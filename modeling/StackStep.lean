import StackStep.Files.Tree
import StackStep.Log
import StackStep.Main
import StackStep.Program
import StackStep.Proofs.Cbor.Bounded
import StackStep.Proofs.Cbor.Extension
import StackStep.Proofs.Cbor.ReadWrite
import StackStep.Proofs.Cbor.Unambiguous
import StackStep.Proofs.CommandLine.Stepping
import StackStep.Proofs.Config
import StackStep.Proofs.Dict
import StackStep.Proofs.Editor.AcceptedOffer
import StackStep.Proofs.Editor.Documents
import StackStep.Proofs.Editor.IgnoringCase
import StackStep.Proofs.Editor.WholeCharacters
import StackStep.Proofs.Editor.WordBounds
import StackStep.Proofs.Files
import StackStep.Proofs.History
import StackStep.Proofs.Listing
import StackStep.Proofs.Machine.Arithmetic
import StackStep.Proofs.Machine.Contract
import StackStep.Proofs.Machine.Counter
import StackStep.Proofs.Machine.Effects
import StackStep.Proofs.Machine.Failure
import StackStep.Proofs.Machine.Growth
import StackStep.Proofs.Machine.Pointer
import StackStep.Proofs.Machine.Printed
import StackStep.Proofs.Machine.Writers
import StackStep.Proofs.Path
import StackStep.Proofs.Program.Enclosed
import StackStep.Proofs.Program.Frame
import StackStep.Proofs.Program.Run
import StackStep.Proofs.Program.Summation
import StackStep.Proofs.Snapshot.Accepted
import StackStep.Proofs.Snapshot.Canonical
import StackStep.Proofs.Snapshot.Decoded
import StackStep.Proofs.Snapshot.Identity
import StackStep.Proofs.Snapshot.Restore
import StackStep.Proofs.Snapshot.RoundTrip
import StackStep.Proofs.Text.Boundary
import StackStep.Proofs.Text.Columns
import StackStep.Proofs.Text.Grammar
import StackStep.Proofs.Text.Lines
import StackStep.Proofs.Text.Numeral
