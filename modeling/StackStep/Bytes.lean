/-!
The machine reads and writes strings of bytes. Argument texts, variable names and
documents need not be valid UTF-8, and several answers depend on the single bytes,
so bytes are the text type of the whole library. A Lean string stands for its UTF-8
bytes, by coercion, and only fixed wording is written that way.
-/

namespace StackStep

abbrev Bytes := List UInt8

namespace Bytes

def ofString (s : String) : Bytes := s.toList.flatMap String.utf8EncodeChar

instance : Coe String Bytes := ⟨ofString⟩

@[simp] theorem ofString_empty : ofString "" = [] := rfl

theorem ofString_append (s t : String) : ofString (s ++ t) = ofString s ++ ofString t := by
  simp [ofString]

/-! ### Numbers as text -/

def digit (d : Nat) : UInt8 := (48 + d).toUInt8

def isDigit (b : UInt8) : Bool := 48 ≤ b && b ≤ 57

/-- The decimal digits of a natural number, without leading zeros. -/
def ofNat (n : Nat) : Bytes := (Nat.toDigits 10 n).flatMap String.utf8EncodeChar

def ofInt : Int → Bytes
  | .ofNat n => ofNat n
  | .negSucc n => 45 :: ofNat (n + 1)

def ofInt64 (n : Int64) : Bytes := ofInt n.toInt

def ofBool (b : Bool) : Bytes := if b then "true" else "false"

/-- Lower-case hexadecimal digit of a number below sixteen. -/
def hexDigit (d : Nat) : UInt8 := if d < 10 then digit d else (87 + d).toUInt8

/-- The `width` lowest hexadecimal digits of `n`, the highest first. -/
def hex : (width : Nat) → (n : Nat) → Bytes
  | 0, _ => []
  | width + 1, n => hex width (n / 16) ++ [hexDigit (n % 16)]

@[simp] theorem length_hex (width n : Nat) : (hex width n).length = width := by
  induction width generalizing n with
  | zero => rfl
  | succ width ih => simp [hex, ih]

/-- Two hexadecimal digits per byte. -/
def toHex (bs : Bytes) : Bytes := bs.flatMap fun b => hex 2 b.toNat

/-- The value of a hexadecimal digit of either case. -/
def hexValue? (b : UInt8) : Option Nat :=
  if isDigit b then some (b.toNat - 48)
  else if 97 ≤ b && b ≤ 102 then some (b.toNat - 87)
  else if 65 ≤ b && b ≤ 70 then some (b.toNat - 55)
  else none

def ofHex? : Bytes → Option Bytes
  | [] => some []
  | [_] => none
  | a :: b :: rest => do
    let high ← hexValue? a
    let low ← hexValue? b
    let tail ← ofHex? rest
    return (high * 16 + low).toUInt8 :: tail

/-! ### Cutting and joining -/

/-- The parts between the separators, one more than there are separators. -/
def split (sep : UInt8) : Bytes → List Bytes
  | [] => [[]]
  | b :: rest =>
    if b = sep then [] :: split sep rest
    else
      match split sep rest with
      | [] => [[b]]
      | part :: parts => (b :: part) :: parts

theorem split_ne_nil (sep : UInt8) (bs : Bytes) : split sep bs ≠ [] := by
  induction bs with
  | nil => simp [split]
  | cons b rest ih =>
    unfold split
    split
    · simp
    · split <;> simp

def join (sep : Bytes) : List Bytes → Bytes
  | [] => []
  | [part] => part
  | part :: parts => part ++ sep ++ join sep parts

/-- What follows `start` at the head of `bs`, if `bs` begins with it. -/
def after? : (start : Bytes) → (bs : Bytes) → Option Bytes
  | [], bs => some bs
  | _ :: _, [] => none
  | a :: start, b :: bs => if a = b then after? start bs else none

theorem after?_append (start bs : Bytes) : after? start (start ++ bs) = some bs := by
  induction start with
  | nil => cases bs <;> rfl
  | cons a start ih => simp [after?, ih]

theorem eq_append_of_after? {start bs rest : Bytes} (h : after? start bs = some rest) :
    bs = start ++ rest := by
  induction start generalizing bs with
  | nil => cases bs <;> simp_all [after?]
  | cons a start ih =>
    cases bs with
    | nil => simp [after?] at h
    | cons b bs =>
      simp only [after?] at h
      split at h
      · next hab => simp [hab, ih h]
      · simp at h

/-- Whether `bs` begins with `start`. -/
def startsWith (bs start : Bytes) : Bool := (after? start bs).isSome

end Bytes

end StackStep
