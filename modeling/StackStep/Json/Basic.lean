import StackStep.Text.Utf8

/-!
JSON values. A number keeps its literal, because whether it is an integer of some width is
decided by the literal and not by its value. The fields of an object keep their order.
-/

namespace StackStep

inductive Json where
  | null
  | bool (b : Bool)
  | number (literal : Bytes)
  | string (s : Bytes)
  | array (items : List Json)
  | object (fields : List (Bytes × Json))
  deriving Repr

namespace Json

def ofInt (n : Int) : Json := .number (Bytes.ofInt n)

def ofNat (n : Nat) : Json := .number (Bytes.ofNat n)

/-- A field by its exact name, the last one if it is given twice. -/
def field? (name : Bytes) : Json → Option Json
  | .object fields => fields.reverse.lookup name
  | _ => none

end Json

end StackStep
