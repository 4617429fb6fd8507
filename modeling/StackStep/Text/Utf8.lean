import StackStep.Bytes

/-!
Reading bytes as UTF-8. Text that is not valid UTF-8 is not refused here. It is cut into
pieces, each a character or one byte that starts no character, so that quoting, trimming,
counting and case mapping can treat every input, and writing the pieces back gives the
bytes they were cut from.
-/

namespace StackStep.Utf8

/-- A character, or a byte at which no character begins. -/
inductive Piece where
  | char (c : Char)
  | stray (b : UInt8)
  deriving DecidableEq, Repr

def encode (c : Char) : Bytes := String.utf8EncodeChar c

def Piece.bytes : Piece → Bytes
  | .char c => encode c
  | .stray b => [b]

@[simp] theorem Piece.bytes_char (c : Char) : (Piece.char c).bytes = encode c := rfl
@[simp] theorem Piece.bytes_stray (b : UInt8) : (Piece.stray b).bytes = [b] := rfl

/-! ### Lead and continuation bytes

A sequence of two, three or four bytes stands for a scalar value only if it is the
shortest for that value, and the value is neither a surrogate nor above U+10FFFF. The
decoders below check this on the value, not on the ranges of the second byte. -/

def isContinuation (b : UInt8) : Bool := 0x80 ≤ b && b ≤ 0xBF

/-- The six payload bits of a continuation byte. -/
def payload (b : UInt8) : Nat := b.toNat % 64

/-- The character with code `n`, if `n` is a scalar value not below `least`. -/
def scalar? (least n : Nat) : Option Char :=
  if least ≤ n ∧ n.isValidChar then some (Char.ofNat n) else none

def two? (a b : UInt8) : Option Char :=
  if 0xC0 ≤ a && a ≤ 0xDF && isContinuation b then
    scalar? 0x80 (a.toNat % 32 * 64 + payload b)
  else none

def three? (a b c : UInt8) : Option Char :=
  if 0xE0 ≤ a && a ≤ 0xEF && isContinuation b && isContinuation c then
    scalar? 0x800 ((a.toNat % 16 * 64 + payload b) * 64 + payload c)
  else none

def four? (a b c d : UInt8) : Option Char :=
  if 0xF0 ≤ a && a ≤ 0xF7 && isContinuation b && isContinuation c && isContinuation d then
    scalar? 0x10000 (((a.toNat % 8 * 64 + payload b) * 64 + payload c) * 64 + payload d)
  else none

/-- The pieces of a byte string, from left to right. -/
def pieces : Bytes → List Piece
  | [] => []
  | a :: rest =>
    if a < 0x80 then .char (Char.ofNat a.toNat) :: pieces rest
    else
      match rest with
      | b :: c :: d :: tail =>
        match two? a b, three? a b c, four? a b c d with
        | some x, _, _ => .char x :: pieces (c :: d :: tail)
        | none, some x, _ => .char x :: pieces (d :: tail)
        | none, none, some x => .char x :: pieces tail
        | none, none, none => .stray a :: pieces (b :: c :: d :: tail)
      | [b, c] =>
        match two? a b, three? a b c with
        | some x, _ => .char x :: pieces [c]
        | none, some x => [.char x]
        | none, none => .stray a :: pieces [b, c]
      | [b] =>
        match two? a b with
        | some x => [.char x]
        | none => .stray a :: pieces [b]
      | [] => [.stray a]

def ofPieces (ps : List Piece) : Bytes := ps.flatMap Piece.bytes

/-- Whether the bytes are the UTF-8 form of some text. -/
def valid (bs : Bytes) : Bool :=
  (pieces bs).all fun
    | .char _ => true
    | .stray _ => false

/-- The number of characters, a stray byte counting as one. -/
def count (bs : Bytes) : Nat := (pieces bs).length

/-- The characters of valid text. -/
def chars? (bs : Bytes) : Option (List Char) :=
  (pieces bs).mapM fun
    | .char c => some c
    | .stray _ => none

def ofChars (cs : List Char) : Bytes := cs.flatMap encode

/-- The replacement character, written where a stray byte cannot be. -/
def replacement : Char := Char.ofNat 0xFFFD

/-- The text with every stray byte replaced, which is always valid. -/
def repair (bs : Bytes) : Bytes :=
  (pieces bs).flatMap fun
    | .char c => encode c
    | .stray _ => encode replacement

end StackStep.Utf8
