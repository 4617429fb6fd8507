import StackStep.Registry
import StackStep.Text.Upper

/-!
What the editor service says about instructions: the offers to complete a fragment of a
name, and the explanation of a whole one. The fragment or the word is put into upper case,
the registered names are taken as they are.
-/

namespace StackStep.Editor

/-- The stack effect and the argument of an instruction in one line. -/
def signature (info : OpcodeInfo) : Bytes :=
  ("pops " : Bytes) ++ OpcodeInfo.effect info.pops ++ (", pushes " : Bytes) ++
    OpcodeInfo.effect info.pushes ++ (", arg: " : Bytes) ++
    (if info.arg = [] then ("none" : Bytes) else info.arg)

/-- An offer to complete a fragment. -/
structure Completion where
  label : Bytes
  detail : Bytes
  documentation : Bytes
  deriving DecidableEq, Repr

def Completion.ofInfo (info : OpcodeInfo) : Completion where
  label := info.name
  detail := signature info
  documentation := info.doc

/-- The instructions whose names begin with the fragment in upper case, in their order. -/
def complete (r : Registry) (fragment : Bytes) : List Completion :=
  let start := Text.upper fragment
  (r.entries.filter fun e => e.name.startsWith start).map fun e => .ofInfo e.info

/-- The explanation of an instruction in markdown: name, signature and documentation. -/
def explain (info : OpcodeInfo) : Bytes :=
  ("**" : Bytes) ++ info.name ++ ("**\n\n`" : Bytes) ++ signature info ++
    ("`\n\n---\n\n" : Bytes) ++ info.doc

/-- The explanation of the instruction named by the word in upper case. -/
def hover (r : Registry) (word : Bytes) : Option Bytes :=
  (r.info? (Text.upper word)).map explain

end StackStep.Editor
