import StackStep.Cbor.Item

/-!
Reading data items back from bytes. A reader takes an item off the front and returns the
rest. It refuses what is not well formed, counts above `maxCount`, and items nested more
than `maxLevels` deep. A level is an array, a map, or a tag that stands directly under
another tag. The readers for one more level are built from those for one less, so the
recursion is on the levels left.
-/

namespace StackStep.Cbor

abbrev Reader (α : Type) := Bytes → Option (α × Bytes)

/-- The most elements in an array, and the most entries in a map. -/
def maxCount : Nat := 131072

def maxLevels : Nat := 32

/-- Takes exactly `n` bytes off the front. -/
def take : (n : Nat) → Reader Bytes
  | 0, bs => some ([], bs)
  | _ + 1, [] => none
  | n + 1, b :: bs => do
    let (front, rest) ← take n bs
    return (b :: front, rest)

theorem take_append (front rest : Bytes) :
    take front.length (front ++ rest) = some (front, rest) := by
  induction front with
  | nil => cases rest <;> rfl
  | cons b front ih => simp [take, ih]

/-! ### Heads -/

inductive Head where
  /-- A number, which counts what follows where the kind has content. -/
  | counted (m : Major) (n : UInt64)
  /-- Content up to a stop byte. -/
  | opened (m : Major)
  | simple (n : UInt8)
  | float (bits : Bytes)
  | stop
  deriving DecidableEq, Repr

/-- How many bytes after the initial one hold the number. -/
def infoWidth? (info : Nat) : Option Nat :=
  if info = 24 then some 1
  else if info = 25 then some 2
  else if info = 26 then some 4
  else if info = 27 then some 8
  else none

/-- The number of a head whose initial byte carries `info`. -/
def readNumber (info : Nat) : Reader UInt64 := fun bs =>
  if info < 24 then some (info.toUInt64, bs)
  else do
    let (digits, rest) ← take (← infoWidth? info) bs
    return (digits.toNumber.toUInt64, rest)

/-- Simple values, floats and the stop byte. A simple value below 32 is refused where it is
written in two bytes. -/
def readSpecial (info : Nat) : Reader Head := fun bs =>
  if info < 24 then some (.simple info.toUInt8, bs)
  else if info = 31 then some (.stop, bs)
  else do
    let (content, rest) ← take (← infoWidth? info) bs
    match content with
    | [n] => if n < 32 then none else return (.simple n, rest)
    | bits => return (.float bits, rest)

def readHead : Reader Head
  | [] => none
  | initial :: rest =>
    let info := initial.toNat % 32
    match Major.ofCode? (initial.toNat / 32) with
    | none => readSpecial info rest
    | some m =>
      if info = 31 then some (.opened m, rest)
      else do
        let (n, rest) ← readNumber info rest
        return (.counted m n, rest)

/-! ### Sequences -/

/-- Reads `n` things. -/
def readMany {α : Type} (read : Reader α) : (n : Nat) → Reader (List α)
  | 0, bs => some ([], bs)
  | n + 1, bs => do
    let (a, rest) ← read bs
    let (as, rest) ← readMany read n rest
    return (a :: as, rest)

/-- Reads at most `limit` things up to a stop byte. -/
def readUntilStop {α : Type} (read : Reader α) : (limit : Nat) → Reader (List α)
  | 0, bs => do
    let rest ← Bytes.after? [stopByte] bs
    return ([], rest)
  | limit + 1, bs =>
    match Bytes.after? [stopByte] bs with
    | some rest => some ([], rest)
    | none => do
      let (a, rest) ← read bs
      let (as, rest) ← readUntilStop read limit rest
      return (a :: as, rest)

/-- The elements after a head that gives their number, or leaves it open. -/
def readCounted {α : Type} (read : Reader α) : Option UInt64 → Reader (List α)
  | some n, bs => if n.toNat ≤ maxCount then readMany read n.toNat bs else none
  | none, bs => readUntilStop read maxCount bs

def readPair {α β : Type} (first : Reader α) (second : Reader β) : Reader (α × β) := fun bs => do
  let (a, rest) ← first bs
  let (b, rest) ← second rest
  return ((a, b), rest)

/-- A piece of a string of open length: a string of the same kind with its length. -/
def readPiece (m : Major) : Reader Bytes := fun bs => do
  match ← readHead bs with
  | (.counted m' n, rest) => if m' = m then take n.toNat rest else none
  | _ => none

/-! ### Items -/

/-- The readers for what may stand at one depth. -/
structure Readers where
  item : Reader Item
  /-- What may stand under a tag. -/
  content : Reader Item

/-- Reads an item whose elements are read by `element` and whose content, if it is a tag,
is read by `content`. Neither is there when no level is left for it. -/
def readItem (element content : Option (Reader Item)) : Reader Item := fun bs => do
  match ← readHead bs with
  | (.counted .unsigned n, rest) => return (.unsigned n, rest)
  | (.counted .negative n, rest) => return (.negative n, rest)
  | (.counted .bytes n, rest) =>
    let (piece, rest) ← take n.toNat rest
    return (.bytes [piece], rest)
  | (.counted .text n, rest) =>
    let (piece, rest) ← take n.toNat rest
    return (.text [piece], rest)
  | (.counted .array n, rest) =>
    let (items, rest) ← readCounted (← element) (some n) rest
    return (.array items, rest)
  | (.counted .map n, rest) =>
    let read ← element
    let (entries, rest) ← readCounted (readPair read read) (some n) rest
    return (.map entries, rest)
  | (.counted .tag n, rest) =>
    let (item, rest) ← (← content) rest
    return (.tag n item, rest)
  | (.opened .bytes, rest) =>
    let (pieces, rest) ← readUntilStop (readPiece .bytes) rest.length rest
    return (.bytes pieces, rest)
  | (.opened .text, rest) =>
    let (pieces, rest) ← readUntilStop (readPiece .text) rest.length rest
    return (.text pieces, rest)
  | (.opened .array, rest) =>
    let (items, rest) ← readCounted (← element) none rest
    return (.array items, rest)
  | (.opened .map, rest) =>
    let read ← element
    let (entries, rest) ← readCounted (readPair read read) none rest
    return (.map entries, rest)
  | (.simple n, rest) => return (.simple n, rest)
  | (.float bits, rest) => return (.float bits, rest)
  | _ => none

/-- The readers where `levels` more levels may be opened. -/
def readers : (levels : Nat) → Readers
  | 0 =>
    let content := readItem none none
    { item := readItem none (some content), content }
  | levels + 1 =>
    let below := readers levels
    let content := readItem (some below.item) (some below.content)
    { item := readItem (some below.item) (some content), content }

/-- The item written by `bs`, if `bs` is exactly one well-formed item. -/
def Item.read? (bs : Bytes) : Option Item :=
  match (readers maxLevels).item bs with
  | some (item, []) => some item
  | _ => none

end StackStep.Cbor
