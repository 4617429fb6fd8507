import StackStep.Text.Numeral

/-!
Integer literals in several bases. Reading goes from left to right as for decimal
arguments: a digit that the base does not have is malformed, and a value above 2^64 - 1 is
out of range where it is first passed. A literal that chooses its own base does so by the
letter after a leading zero, and a leading zero alone means octal. Only such literals may
have underscores, each between two digits or after the letter of the base.
-/

namespace StackStep.Radix

/-- The value of a digit, where the letters of either case go on after 9. -/
def digitValue? (b : UInt8) : Option Nat :=
  if Bytes.isDigit b then some (b.toNat - 48)
  else if 97 ≤ b && b ≤ 122 then some (b.toNat - 87)
  else if 65 ≤ b && b ≤ 90 then some (b.toNat - 55)
  else none

/-- Reads digits after a value `n` has been read. -/
def magnitude (base n : Nat) : Bytes → Except NumeralError Nat
  | [] => .ok n
  | b :: rest =>
    match digitValue? b with
    | none => .error .malformed
    | some d =>
      if base ≤ d then .error .malformed
      else if 2 ^ 64 ≤ n * base + d then .error .outOfRange
      else magnitude base (n * base + d) rest

/-- One or more digits of a base. -/
def digits (base : Nat) : Bytes → Except NumeralError Nat
  | [] => .error .malformed
  | bs => magnitude base 0 bs

/-- The base that the letter after a leading zero chooses. -/
def letterBase? (b : UInt8) : Option Nat :=
  if b = 98 ∨ b = 66 then some 2
  else if b = 111 ∨ b = 79 then some 8
  else if b = 120 ∨ b = 88 then some 16
  else none

/-- The base of an unsigned literal, and its digits. -/
def chooseBase : Bytes → Nat × Bytes
  | 48 :: letter :: b :: rest =>
    match letterBase? letter with
    | some base => (base, b :: rest)
    | none => (8, letter :: b :: rest)
  | 48 :: rest => (8, rest)
  | bs => (10, bs)

/-- What stood before a place in a literal. -/
inductive Before where
  | digit
  | underscore
  | other
  deriving DecidableEq, Repr

def isHexLetter (b : UInt8) : Bool := (97 ≤ b && b ≤ 102) || (65 ≤ b && b ≤ 70)

/-- Whether each underscore stands after a digit and before one. -/
def separatedFrom (hex : Bool) : Before → Bytes → Bool
  | before, [] => before ≠ .underscore
  | before, b :: rest =>
    if Bytes.isDigit b || (hex && isHexLetter b) then separatedFrom hex .digit rest
    else if b = 95 then before = .digit && separatedFrom hex .underscore rest
    else before ≠ .underscore && separatedFrom hex .other rest

/-- Whether the underscores of an unsigned literal are well placed. The letter of a base
counts as a digit. -/
def separated : Bytes → Bool
  | 48 :: letter :: rest =>
    match letterBase? letter with
    | some base => separatedFrom (base == 16) .digit rest
    | none => separatedFrom false .other (48 :: letter :: rest)
  | bs => separatedFrom false .other bs

/-- An unsigned literal that chooses its own base. -/
def literal : Bytes → Except NumeralError Nat
  | [] => .error .malformed
  | bs =>
    let (base, ds) := chooseBase bs
    match magnitude base 0 (ds.filter (· ≠ 95)) with
    | .ok n => if 95 ∈ bs ∧ ¬separated bs then .error .malformed else .ok n
    | .error e => .error e

/-- An optional sign before what `read` reads, if the number fits in 64 bits. -/
def signed (read : Bytes → Except NumeralError Nat) : Bytes → Except NumeralError Int64
  | 43 :: rest => read rest >>= Numeral.withSign false
  | 45 :: rest => read rest >>= Numeral.withSign true
  | bs => read bs >>= Numeral.withSign false

end StackStep.Radix
