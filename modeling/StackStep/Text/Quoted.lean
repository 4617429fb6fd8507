import StackStep.Text.Utf8
import StackStep.Text.Printable

/-!
Quoted text. Between double quotes stand the printable characters, with the quote and the
backslash escaped. Anything else has an escape: a letter for the seven usual control
characters, two hexadecimal digits for other control characters below U+0080 and for
stray bytes, four or eight for other characters.
-/

namespace StackStep.Text

/-- The letter after the backslash, for the control characters that have one. -/
def controlLetter? (c : Char) : Option UInt8 :=
  match c.toNat with
  | 0x07 => some 97
  | 0x08 => some 98
  | 0x0C => some 102
  | 0x0A => some 110
  | 0x0D => some 114
  | 0x09 => some 116
  | 0x0B => some 118
  | _ => none

def quoteChar (c : Char) : Bytes :=
  if c = '"' then "\\\""
  else if c = '\\' then "\\\\"
  else if isPrintable c then Utf8.encode c
  else
    match controlLetter? c with
    | some letter => [92, letter]
    | none =>
      if c.toNat < 0x20 ∨ c.toNat = 0x7F then ("\\x" : Bytes) ++ Bytes.hex 2 c.toNat
      else if c.toNat < 0x10000 then ("\\u" : Bytes) ++ Bytes.hex 4 c.toNat
      else ("\\U" : Bytes) ++ Bytes.hex 8 c.toNat

def quotePiece : Utf8.Piece → Bytes
  | .char c => quoteChar c
  | .stray b => ("\\x" : Bytes) ++ Bytes.hex 2 b.toNat

def quote (bs : Bytes) : Bytes := 34 :: ((Utf8.pieces bs).flatMap quotePiece ++ [34])

end StackStep.Text
