import StackStep.Text.Quoted

/-!
The values of the machine: 64-bit integers and texts. The kind of a value has a code of
one byte. Two codes are in use, and a code read from outside may be any of the others.
-/

namespace StackStep

structure Kind where
  code : UInt8
  deriving DecidableEq, Repr

namespace Kind

def integer : Kind := ⟨0⟩
def text : Kind := ⟨1⟩

def name (k : Kind) : Bytes :=
  if k = integer then "Integer"
  else if k = text then "Text"
  else ("Kind(" : Bytes) ++ Bytes.ofNat k.code.toNat ++ (")" : Bytes)

end Kind

inductive Value where
  | integer (n : Int64)
  | text (t : Bytes)
  deriving DecidableEq, Repr

namespace Value

/-- What an unbound variable holds. -/
def zero : Value := .integer 0

instance : Inhabited Value := ⟨zero⟩

def ofBool (b : Bool) : Value := .integer (if b then 1 else 0)

def kind : Value → Kind
  | .integer _ => .integer
  | .text _ => .text

@[simp] theorem kind_integer (n : Int64) : (integer n).kind = .integer := rfl
@[simp] theorem kind_text (t : Bytes) : (text t).kind = .text := rfl

def toInteger? : Value → Option Int64
  | .integer n => some n
  | .text _ => none

/-- Everything but 0 and the empty text. -/
def truthy : Value → Bool
  | .integer n => n != 0
  | .text t => t != []

/-- An integer in decimal, a text quoted. -/
def render : Value → Bytes
  | .integer n => Bytes.ofInt64 n
  | .text t => Text.quote t

end Value

end StackStep
