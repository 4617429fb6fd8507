import StackStep.Json.Basic
import StackStep.Text.Fold
import StackStep.Text.Numeral

/-!
What a JSON value has to look like to be read as a record. Null stands for anything left
out, fields that are not known are passed over, and the names of fields are compared
without regard to case.
-/

namespace StackStep.Json

inductive Shape where
  | any
  | string
  | boolean
  /-- An integer literal of 32 bits with a sign. -/
  | int32
  /-- An integer literal of 32 bits without a sign. -/
  | uint32
  | either (a b : Shape)
  | list (item : Shape)
  | record (fields : List (Bytes × Shape))

def isInt32 (literal : Bytes) : Bool :=
  match Numeral.signed literal with
  | .ok n => -2147483648 ≤ n && n ≤ 2147483647
  | .error _ => false

/-- The value of an integer literal of 32 bits without a sign. -/
def uint32? (literal : Bytes) : Option UInt32 :=
  match Numeral.digits literal with
  | .ok n => if n < 4294967296 then some n.toUInt32 else none
  | .error _ => none

def hasName (name : Bytes) (field : Bytes × Json) : Bool := Text.sameFolded name field.1

mutual

/-- Whether a value has a shape. -/
def fits : Shape → Json → Bool
  | _, .null => true
  | .any, _ => true
  | .string, .string _ => true
  | .boolean, .bool _ => true
  | .int32, .number literal => isInt32 literal
  | .uint32, .number literal => (uint32? literal).isSome
  | .either a b, v => fits a v || fits b v
  | .list item, .array vs => vs.all (fits item)
  | .record fields, .object given => fitFields fields given
  | _, _ => false

def fitFields : List (Bytes × Shape) → List (Bytes × Json) → Bool
  | [], _ => true
  | (name, shape) :: rest, given =>
    (given.all fun field => !hasName name field || fits shape field.2) && fitFields rest given

end

/-! ### Reading values that fit -/

def isNull : Json → Bool
  | .null => true
  | _ => false

/-- The values of a field in the order in which they are given. -/
def given (name : Bytes) : Json → List Json
  | .object fields => (fields.filter (hasName name)).map Prod.snd
  | _ => []

/-- The last value of a field that is not null. -/
def lastGiven? (name : Bytes) (j : Json) : Option Json :=
  ((given name j).filter (!isNull ·)).getLast?

/-- Whether a field is given, and not taken back by a null after it. -/
def isGiven (name : Bytes) (j : Json) : Bool := (given name j).getLast?.any (!isNull ·)

def fieldsOf : Json → List (Bytes × Json)
  | .object fields => fields
  | _ => []

/-- A record inside a record. Given more than once, the parts go together. -/
def recordAt (name : Bytes) (j : Json) : Json := .object ((given name j).flatMap fieldsOf)

/-- A text inside a record, empty if it is left out. -/
def textAt (name : Bytes) (j : Json) : Bytes :=
  match lastGiven? name j with
  | some (.string t) => t
  | _ => []

/-- A number inside a record, zero if it is left out. -/
def uint32At (name : Bytes) (j : Json) : UInt32 :=
  match lastGiven? name j with
  | some (.number literal) => (uint32? literal).getD 0
  | _ => 0

/-- A list inside a record, empty if it is left out or taken back by a null. -/
def listAt (name : Bytes) (j : Json) : List Json :=
  match (given name j).getLast? with
  | some (.array items) => items
  | _ => []

end StackStep.Json
