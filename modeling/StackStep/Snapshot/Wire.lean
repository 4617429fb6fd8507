import StackStep.Cbor.Reader
import StackStep.Snapshot.Basic
import StackStep.Text.Utf8

/-!
The bytes of a snapshot. A snapshot, a slot and a binding are maps from field numbers to
items, in ascending order, and some fields are left out when they are zero or empty.

Reading is more liberal than writing. Tags around an item are passed over, null and
undefined stand for the zero of any field, a number may come as a bignum or as a simple
value, a field number as its decimal text, and fields that are not known are skipped
unread. The first thing found wrong, in the order of the bytes, is what is reported.
-/

namespace StackStep

/-- Why bytes are not a snapshot. -/
inductive DecodeError where
  /-- Not exactly one well-formed item. -/
  | malformed
  /-- An item of the wrong type, or a number out of the range of its field. -/
  | wrongType
  | invalidUtf8
  /-- A tag on an item that it does not go with, or a run identifier of the wrong length. -/
  | invalidContent
  deriving DecidableEq, Repr

open Cbor (Item)

/-! ### Items as field contents -/

namespace Cbor.Item

/-- Whether an item may stand under a tag: a date text under 0, a time stamp under 1, the
bytes of a bignum under 2 and 3, and anything under the others. -/
def fitsTag (number : UInt64) (content : Item) : Bool :=
  if number = 0 then
    match content with
    | .text _ => true
    | _ => false
  else if number = 1 then
    match content with
    | .unsigned _ | .negative _ | .float _ => true
    | _ => false
  else if number = 2 ∨ number = 3 then
    match content with
    | .bytes _ => true
    | _ => false
  else true

/-- The item under its tags, where the tag of a bignum stays. -/
def untag : Item → Except DecodeError Item
  | .tag number content =>
    if content.fitsTag number then
      if number = 2 ∨ number = 3 then .ok (.tag number content) else untag content
    else .error .invalidContent
  | item => .ok item

/-- Null and undefined. -/
def isNull : Item → Bool
  | .simple n => n = 22 ∨ n = 23
  | _ => false

/-- The text of a string, each piece of which is UTF-8 on its own. -/
def checkedText (pieces : List Bytes) : Except DecodeError Bytes :=
  if pieces.all Utf8.valid then .ok pieces.flatten else .error .invalidUtf8

/-- The report on an item that a field does not take. A text is checked first. -/
def misplaced : Item → DecodeError
  | .text pieces => if pieces.all Utf8.valid then .wrongType else .invalidUtf8
  | _ => .wrongType

/-- The number of an untagged item, if it is one. -/
def number? : Item → Option Int
  | .unsigned n => some n.toNat
  | .negative n => some (-1 - n.toNat)
  | .simple n => if n < 20 ∨ 32 ≤ n then some n.toNat else none
  | .tag number (.bytes pieces) =>
    let n := Bytes.toNumber pieces.flatten
    some (if number = 2 then n else -1 - n)
  | _ => none

/-- A number from `low` to `high`. -/
def readNumber (low high : Int) (item : Item) : Except DecodeError Int := do
  let item ← item.untag
  if item.isNull then return 0
  match item.number? with
  | some n => if low ≤ n ∧ n ≤ high then return n else .error .wrongType
  | none => .error item.misplaced

def readByte (item : Item) : Except DecodeError UInt8 := do
  let n ← item.readNumber 0 255
  return n.toNat.toUInt8

def readInt64 (item : Item) : Except DecodeError Int64 := do
  let n ← item.readNumber Int64.minValue.toInt Int64.maxValue.toInt
  return Int64.ofInt n

def readBool (item : Item) : Except DecodeError Bool := do
  match ← item.untag with
  | .simple n =>
    if n = 21 then return true
    else if n = 20 ∨ n = 22 ∨ n = 23 then return false
    else .error .wrongType
  | item => .error item.misplaced

def readText (item : Item) : Except DecodeError Bytes := do
  match ← item.untag with
  | .text pieces => checkedText pieces
  | item => if item.isNull then return [] else .error item.misplaced

def readAll {α : Type} (read : Item → Except DecodeError α) :
    List Item → Except DecodeError (List α)
  | [] => .ok []
  | item :: items => do
    let a ← read item
    let as ← readAll read items
    return a :: as

/-- An array, or null for none. -/
def readList {α : Type} (read : Item → Except DecodeError α) (item : Item) :
    Except DecodeError (Option (List α)) := do
  match ← item.untag with
  | .array items => return some (← readAll read items)
  | item => if item.isNull then return none else .error item.misplaced

/-- Sixteen bytes, or an array of numbers, of which no more than sixteen are read. -/
def readRunId (item : Item) : Except DecodeError RunId := do
  match ← item.untag with
  | .bytes pieces | .tag _ (.bytes pieces) =>
    match RunId.ofBytes? pieces.flatten with
    | some id => return id
    | none => .error .invalidContent
  | .array items => return .ofLeading (← readAll readByte (items.take 16))
  | item => if item.isNull then return .zero else .error item.misplaced

/-- The field that a key names: its number, or the decimal text of it. A negative number
names none, and has to fit in 64 bits with its sign. -/
def readKey : Item → Except DecodeError (Option Nat)
  | .unsigned n => .ok (some n.toNat)
  | .negative n => if n < 0x8000000000000000 then .ok none else .error .wrongType
  | .text pieces => do
    let name ← checkedText pieces
    return (List.range 10).find? fun k => Bytes.ofNat k = name
  | _ => .error .wrongType

/-- How to put the item of a field into a record, for each field number in use. -/
abbrev Fields (α : Type) := Nat → Option (α → Item → Except DecodeError α)

/-- Fills in a record from the entries of a map. Of two entries for one field the first
counts. -/
def readEntries {α : Type} (fields : Fields α) :
    (seen : List Nat) → α → List (Item × Item) → Except DecodeError α
  | _, a, [] => .ok a
  | seen, a, (key, item) :: entries => do
    match ← readKey key with
    | none => readEntries fields seen a entries
    | some k =>
      if k ∈ seen then readEntries fields seen a entries
      else
        match fields k with
        | none => readEntries fields seen a entries
        | some put => readEntries fields (k :: seen) (← put a item) entries

/-- A record written as a map. -/
def readRecord {α : Type} (fields : Fields α) (zero : α) (item : Item) :
    Except DecodeError α := do
  match ← item.untag with
  | .map entries => readEntries fields [] zero entries
  | item => if item.isNull then return zero else .error item.misplaced

/-- A field that is always written. -/
def field (k : UInt64) (item : Item) : List (Item × Item) := [(.unsigned k, item)]

/-- A field that is written only if `present`. -/
def fieldIf (present : Bool) (k : UInt64) (item : Item) : List (Item × Item) :=
  if present then field k item else []

end Cbor.Item

open Cbor.Item (field fieldIf)

/-! ### The three records -/

namespace Slot

def entries (s : Slot) : List (Item × Item) :=
  field 1 (.unsigned s.kind.code.toUInt64) ++
    fieldIf (s.int != 0) 2 (.ofInt64 s.int) ++
    fieldIf (s.text != []) 3 (.ofText s.text)

def toItem (s : Slot) : Item := .map s.entries

def fields : Item.Fields Slot
  | 1 => some fun s item => do return { s with kind := ⟨← item.readByte⟩ }
  | 2 => some fun s item => do return { s with int := ← item.readInt64 }
  | 3 => some fun s item => do return { s with text := ← item.readText }
  | _ => none

def ofItem : Item → Except DecodeError Slot := Item.readRecord fields {}

end Slot

namespace Binding

def entries (b : Binding) : List (Item × Item) :=
  field 1 (.ofText b.name) ++ field 2 b.value.toItem

def toItem (b : Binding) : Item := .map b.entries

def fields : Item.Fields Binding
  | 1 => some fun b item => do return { b with name := ← item.readText }
  | 2 => some fun b item => do return { b with value := ← Slot.ofItem item }
  | _ => none

def ofItem : Item → Except DecodeError Binding := Item.readRecord fields {}

end Binding

namespace Snapshot

/-- A stack that is not there is written as null. -/
def stackItem : Option (List Slot) → Item
  | none => .null
  | some slots => .array (slots.map Slot.toItem)

def entries (s : Snapshot) : List (Item × Item) :=
  field 1 (.unsigned s.version.toUInt64) ++
    field 2 (.ofBytes s.runId.bytes) ++
    field 3 (.ofInt64 s.pointer) ++
    field 4 (.ofBool s.terminated) ++
    fieldIf (s.line != 0) 5 (.ofInt64 s.line) ++
    field 6 (stackItem s.stack) ++
    fieldIf (s.env != []) 7 (.array (s.env.map Binding.toItem))

def toItem (s : Snapshot) : Item := .map s.entries

def fields : Item.Fields Snapshot
  | 1 => some fun s item => do return { s with version := ← item.readByte }
  | 2 => some fun s item => do return { s with runId := ← item.readRunId }
  | 3 => some fun s item => do return { s with pointer := ← item.readInt64 }
  | 4 => some fun s item => do return { s with terminated := ← item.readBool }
  | 5 => some fun s item => do return { s with line := ← item.readInt64 }
  | 6 => some fun s item => do return { s with stack := ← item.readList Slot.ofItem }
  | 7 => some fun s item => do
    return { s with env := (← item.readList Binding.ofItem).getD [] }
  | _ => none

def ofItem : Item → Except DecodeError Snapshot := Item.readRecord fields {}

def encode (s : Snapshot) : Bytes := s.toItem.write

def decode (bs : Bytes) : Except DecodeError Snapshot :=
  match Item.read? bs with
  | none => .error .malformed
  | some item => ofItem item

end Snapshot

end StackStep
