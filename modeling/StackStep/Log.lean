import StackStep.Registry

/-!
The lines a call leaves in the log. A call of a known instruction logs the pointer, the
name, the quoted argument and the depth before it, and a failing one also the fault. The
columns are padded in characters.
-/

namespace StackStep.Log

inductive Level where
  | info
  | debug
  deriving DecidableEq, Repr

structure Line where
  level : Level
  logger : Bytes
  message : Bytes
  deriving DecidableEq, Repr

/-- Informative lines need verbosity 1, those for debugging 2. -/
def Level.shown (verbosity : Int) : Level → Bool
  | .info => 1 ≤ verbosity
  | .debug => 2 ≤ verbosity

def Level.name : Level → Bytes
  | .info => "Info"
  | .debug => "Debug"

def Line.render (l : Line) : Bytes :=
  l.level.name ++ (" " : Bytes) ++ l.logger ++ (" " : Bytes) ++ l.message

/-- The lines shown at a verbosity. -/
def shown (verbosity : Int) (lines : List Line) : List Line :=
  lines.filter fun l => l.level.shown verbosity

/-- Spaces after the text, up to a number of characters. -/
def padRight (width : Nat) (bs : Bytes) : Bytes :=
  bs ++ List.replicate (width - Utf8.count bs) 32

/-- At least four characters, the zeros after the sign. -/
def pointer (p : Int64) : Bytes :=
  let zeros (width : Nat) (bs : Bytes) : Bytes := List.replicate (width - bs.length) 48 ++ bs
  if p < 0 then 45 :: zeros 3 (Bytes.ofNat p.toInt.natAbs)
  else zeros 4 (Bytes.ofNat p.toInt.natAbs)

def mark (p : Int64) : Bytes := ("[" : Bytes) ++ pointer p ++ ("] " : Bytes)

/-- The lines of one call from the state `st`. -/
def ofCall (r : Registry) (name arg : Bytes) (st : State) : List Line :=
  match r.find? name with
  | none => []
  | some e =>
    let call : Line :=
      ⟨.debug, "dbn.vm", mark st.pointer ++ padRight 18 name ++ (" " : Bytes) ++
        padRight 8 (Text.quote arg) ++ (" depth=" : Bytes) ++ Bytes.ofNat st.depth⟩
    match e.handler arg st with
    | .done _ => [call]
    | .failed fault _ =>
      [call, ⟨.debug, "dbn.vm", mark st.pointer ++ name ++ (" failed: " : Bytes) ++ fault.message⟩]

end StackStep.Log
