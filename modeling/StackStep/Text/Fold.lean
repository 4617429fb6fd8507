import StackStep.Text.Utf8

/-!
Comparing names without regard to case. Two characters beyond ASCII have an ASCII letter as
their other case, the long s and the kelvin sign.
-/

namespace StackStep.Text

/-- The small ASCII letter that a character equals but for its case, or the character. -/
def foldChar (c : Char) : Char :=
  if 'A' ≤ c ∧ c ≤ 'Z' then Char.ofNat (c.toNat + 32)
  else if c.toNat = 0x17F then 's'
  else if c.toNat = 0x212A then 'k'
  else c

def foldPiece : Utf8.Piece → Utf8.Piece
  | .char c => .char (foldChar c)
  | .stray b => .stray b

def fold (bs : Bytes) : List Utf8.Piece := (Utf8.pieces bs).map foldPiece

/-- Whether a name in ASCII is the given one but for the case of letters. -/
def sameFolded (name other : Bytes) : Bool := fold name == fold other

end StackStep.Text
