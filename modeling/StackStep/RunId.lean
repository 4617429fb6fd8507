import StackStep.Bytes

/-!
The identifier of a program run: sixteen bytes, printed as a UUID.
-/

namespace StackStep

structure RunId where
  bytes : Bytes
  length_bytes : bytes.length = 16
  deriving DecidableEq, Repr

namespace RunId

def zero : RunId := ⟨List.replicate 16 0, rfl⟩

instance : Inhabited RunId := ⟨zero⟩

def ofBytes? (bs : Bytes) : Option RunId := if h : bs.length = 16 then some ⟨bs, h⟩ else none

/-- The first sixteen bytes, with zeros in place of those that are missing. -/
def ofLeading (bs : Bytes) : RunId where
  bytes := bs.take 16 ++ List.replicate (16 - bs.length) 0
  length_bytes := by
    rw [List.length_append, List.length_take, List.length_replicate]
    omega

@[simp] theorem ofBytes?_bytes (id : RunId) : ofBytes? id.bytes = some id := by
  simp [ofBytes?, id.length_bytes]

/-- Marks sixteen random bytes as such: the version goes into the seventh byte, the variant
into the ninth. -/
def ofRandom (bs : Bytes) : RunId :=
  ofLeading (bs.mapIdx fun i b =>
    if i = 6 then b % 16 + 0x40 else if i = 8 then b % 64 + 0x80 else b)

/-- Hexadecimal digits in groups of 8, 4, 4, 4 and 12. -/
def render (id : RunId) : Bytes :=
  let digits := id.bytes.toHex
  Bytes.join "-"
    [digits.take 8, (digits.drop 8).take 4, (digits.drop 12).take 4, (digits.drop 16).take 4,
      digits.drop 20]

end RunId

end StackStep
