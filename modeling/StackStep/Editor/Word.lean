import StackStep.Bytes

/-!
The word at a position of a document. Positions count bytes in a line, and each byte is
classed on its own as the Latin-1 character of that code, so a word is a run of letters,
digits and underscores of that repertoire.
-/

namespace StackStep.Editor

structure Position where
  line : UInt32 := 0
  character : UInt32 := 0
  deriving DecidableEq, Repr

/-- The letters among the first 256 characters. -/
def isLetterByte (b : UInt8) : Bool :=
  (0x41 ≤ b && b ≤ 0x5A) || (0x61 ≤ b && b ≤ 0x7A) || b == 0xAA || b == 0xB5 || b == 0xBA ||
    (0xC0 ≤ b && b != 0xD7 && b != 0xF7)

def isWordByte (b : UInt8) : Bool := isLetterByte b || Bytes.isDigit b || b == 0x5F

/-- The longest run of word bytes at the front. -/
def leading (bs : Bytes) : Bytes := bs.takeWhile isWordByte

/-- The longest run of word bytes at the end. -/
def trailing (bs : Bytes) : Bytes := (leading bs.reverse).reverse

/-- The line at a position, cut in two there. A position past the end of its line counts
as the end. -/
def cutAt? (text : Bytes) (p : Position) : Option (Bytes × Bytes) :=
  ((Bytes.split 10 text)[p.line.toNat]?).map fun line =>
    (line.take p.character.toNat, line.drop p.character.toNat)

/-- The part of a word that ends at the position, for completion. -/
def fragmentAt (text : Bytes) (p : Position) : Bytes :=
  match cutAt? text p with
  | some (before, _) => trailing before
  | none => []

/-- The whole word around the position. -/
def wordAt (text : Bytes) (p : Position) : Bytes :=
  match cutAt? text p with
  | some (before, after) => trailing before ++ leading after
  | none => []

end StackStep.Editor
