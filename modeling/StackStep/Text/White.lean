import StackStep.Text.Utf8

/-!
White space is what Unicode gives the property `White_Space`, which includes U+0085 and
U+00A0 and leaves out the zero-width characters. Trimming takes it off both ends.
-/

namespace StackStep.Text

def isWhite (c : Char) : Bool :=
  let n := c.toNat
  (9 ≤ n && n ≤ 13) || n == 0x20 || n == 0x85 || n == 0xA0 || n == 0x1680 ||
    (0x2000 ≤ n && n ≤ 0x200A) || n == 0x2028 || n == 0x2029 || n == 0x202F ||
    n == 0x205F || n == 0x3000

def isWhitePiece : Utf8.Piece → Bool
  | .char c => isWhite c
  | .stray _ => false

/-- The list without the longest runs at its two ends on which `p` holds. -/
def trimBy {α : Type} (p : α → Bool) (xs : List α) : List α :=
  ((xs.dropWhile p).reverse.dropWhile p).reverse

def trim (bs : Bytes) : Bytes := Utf8.ofPieces (trimBy isWhitePiece (Utf8.pieces bs))

end StackStep.Text
