import StackStep.Text.White

/-!
Integer arguments. The grammar is an optional sign and one or more decimal digits, with
white space around them ignored. Reading goes from left to right and stops at the first
thing wrong, so a character that is no digit is malformed unless the digits before it
already pass 2^64 - 1, and then the number is out of range whatever follows.

A text of less than nineteen bytes cannot pass the range, so it is read in words and
without looking at their size.
-/

namespace StackStep

/-- Why a text is not an integer of 64 bits. -/
inductive NumeralError where
  | malformed
  | outOfRange
  deriving DecidableEq, Repr

namespace NumeralError

def message : NumeralError → Bytes
  | .malformed => "invalid syntax"
  | .outOfRange => "value out of range"

end NumeralError

namespace Numeral

/-- Reads digits after a value `n` has been read, and fails where it passes 2^64 - 1. -/
def magnitude (n : Nat) : Bytes → Except NumeralError Nat
  | [] => .ok n
  | b :: rest =>
    if Bytes.isDigit b then
      let m := n * 10 + (b.toNat - 48)
      if m < 0x10000000000000000 then magnitude m rest else .error .outOfRange
    else .error .malformed

/-- One or more digits. -/
def digits : Bytes → Except NumeralError Nat
  | [] => .error .malformed
  | bs => magnitude 0 bs

/-- The number with its sign, if it fits in 64 bits. -/
def withSign (negative : Bool) (n : Nat) : Except NumeralError Int64 :=
  if negative then
    if n ≤ 0x8000000000000000 then .ok (Int64.ofInt (-(n : Int))) else .error .outOfRange
  else
    if n < 0x8000000000000000 then .ok (Int64.ofInt n) else .error .outOfRange

def signed : Bytes → Except NumeralError Int64
  | 43 :: rest => digits rest >>= withSign false
  | 45 :: rest => digits rest >>= withSign true
  | bs => digits bs >>= withSign false

/-- Reads digits after a word `n` has been read, whatever it comes to. -/
def wordFrom (n : Int64) : Bytes → Except NumeralError Int64
  | [] => .ok n
  | b :: rest =>
    if Bytes.isDigit b then wordFrom (n * 10 + Int64.ofNat (b.toNat - 48)) rest
    else .error .malformed

/-- One or more digits, in a word. -/
def word : Bytes → Except NumeralError Int64
  | [] => .error .malformed
  | bs => wordFrom 0 bs

/-- The number with its sign, of a text that is too short for a large one. -/
def short : Bytes → Except NumeralError Int64
  | 43 :: rest => word rest
  | 45 :: rest => word rest >>= fun n => .ok (-n)
  | bs => word bs

/-- An integer, by the short way where the text allows it. -/
def integer (bs : Bytes) : Except NumeralError Int64 :=
  if 0 < bs.length ∧ bs.length < 19 then short bs else signed bs

/-- An integer argument, white space around it ignored. -/
def read (arg : Bytes) : Except NumeralError Int64 := integer (Text.trim arg)

end Numeral

end StackStep
