import StackStep.CommandLine.Run
import StackStep.Editor.Channel
import StackStep.Json.Parser

/-!
The command on a real disk and real streams.
-/

namespace StackStep.Shell

def toBytes (data : ByteArray) : Bytes := data.toList

def toText (bs : Bytes) : String := (String.fromUTF8? ⟨bs.toArray⟩).getD ""

/-- The cause of a failure, by the number of the operating system where it has a name. -/
def fileError (e : IO.Error) : FileError :=
  let named (code : UInt32) : FileError :=
    if code = 2 then .notFound
    else if code = 20 then .notDirectory
    else if code = 21 then .isDirectory
    else if code = 36 then .nameTooLong
    else if code = 22 then .invalidName
    else if code = 13 then .denied
    else if code = 40 then .tooManyLinks
    else .other (Bytes.ofString (toString e))
  match e with
  | .noFileOrDirectory .. => .notFound
  | .inappropriateType _ code _ => named code
  | .invalidArgument _ code _ => named code
  | .permissionDenied _ code _ => named code
  | .resourceVanished code _ => named code
  | .otherError code _ => named code
  | e => .other (Bytes.ofString (toString e))

/-- Tries something on a file. -/
def attempt {α : Type} (action : FileAction) (path : Bytes) (work : IO α) :
    IO (Except FileFailure α) := do
  try return .ok (← work)
  catch e =>
    let error := fileError e
    return .error ⟨if error = .isDirectory then action else .opening, path, error⟩

def disk : Disk IO where
  workingDirectory := do return Bytes.ofString (toString (← IO.currentDir))
  pathExists path := do
    -- Following the path to its end asks nothing of the file itself, unlike opening it.
    match ← attempt .opening path (IO.FS.realPath (toText path)) with
    | .ok _ => return true
    | .error _ => return false
  read path := attempt .reading path do return toBytes (← IO.FS.readBinFile (toText path))
  write path data := attempt .opening path (IO.FS.writeBinFile (toText path) ⟨data.toArray⟩)
  touch path := attempt .opening path do
    let _ ← IO.FS.Handle.mk (toText path) .append

/-- The length that a header announces, if it does. -/
def announced? (header : String) : Option Nat :=
  (Bytes.after? "Content-Length: " (Bytes.ofString header)).map fun digits =>
    Decimal.natOfDigits (digits.takeWhile Bytes.isDigit)

/-- Reads headers up to an empty line, and gives the length of the body. -/
partial def readHeaders (stdin : IO.FS.Stream) (length : Option Nat) : IO (Option Nat) := do
  let line ← stdin.getLine
  if line.isEmpty then return none
  else if line = "\r\n" then return length
  else readHeaders stdin (announced? line <|> length)

/-- Reads a body of the given length, or what there is of it. -/
partial def readBody (stdin : IO.FS.Stream) (length : Nat) (read : Bytes) : IO Bytes := do
  if length = 0 then return read
  let chunk ← stdin.read length.toUSize
  if chunk.isEmpty then return read
  readBody stdin (length - chunk.size) (read ++ toBytes chunk)

/-- Answers messages until the channel is closed or the input ends. -/
partial def serve (stdin stdout : IO.FS.Stream) (channel : Editor.Channel) : IO Unit := do
  unless channel.closed do
    if let some length ← readHeaders stdin none then
      match Json.parse? (← readBody stdin length []) with
      | none => return
      | some message =>
        let (reply, channel) := channel.receive message
        if let some reply := reply then
          stdout.write ⟨(Editor.frame reply).toArray⟩
          stdout.flush
        serve stdin stdout channel

end StackStep.Shell

open StackStep in
def main (args : List String) : IO UInt32 := do
  let fresh := RunId.ofRandom (Shell.toBytes (← IO.getRandomBytes 16))
  match ← CommandLine.run Shell.disk fresh (args.map Bytes.ofString) with
  | .done output =>
    (← IO.getStdout).write ⟨output.stdout.toArray⟩
    (← IO.getStderr).write ⟨output.stderr.toArray⟩
    return output.exitCode.toUInt32
  | .serve service =>
    Shell.serve (← IO.getStdin) (← IO.getStdout) { service }
    return 0
