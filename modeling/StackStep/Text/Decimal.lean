import StackStep.Bytes

/-!
Decimal fractions. A number is read as an integer times a power of ten, and the only
question asked about its size is whether it is beyond the range of 64-bit floating-point
numbers, which is settled in integers.
-/

namespace StackStep

/-- The number `mantissa * 10 ^ exponent`, without its sign. -/
structure Decimal where
  mantissa : Nat
  exponent : Int
  deriving DecidableEq, Repr

namespace Decimal

/-- The least number that rounds to infinity: halfway from the largest finite number to
the next power of two. -/
def limit : Nat := (Nat.pow 2 54 - 1) * Nat.pow 2 970

/-- Whether the number is too large for a 64-bit floating-point number. The limit has 309
digits, so numbers well away from it are told by their digits. -/
def overflows (d : Decimal) : Bool :=
  if d.mantissa = 0 then false
  else
    let digits := (Nat.toDigits 10 d.mantissa).length + d.exponent
    if digits < 300 then false
    else if 320 < digits then true
    else if 0 ≤ d.exponent then limit ≤ d.mantissa * Nat.pow 10 d.exponent.toNat
    else limit * Nat.pow 10 (-d.exponent).toNat ≤ d.mantissa

/-- The leading digits, and what follows them. -/
def spanDigits (bs : Bytes) : Bytes × Bytes :=
  (bs.takeWhile Bytes.isDigit, bs.dropWhile Bytes.isDigit)

def natOfDigits (ds : Bytes) : Nat := ds.foldl (fun n b => n * 10 + (b.toNat - 48)) 0

/-- Without a leading plus or minus. -/
def dropSign : Bytes → Bytes
  | 43 :: rest => rest
  | 45 :: rest => rest
  | bs => bs

/-- The exponent written after the digits, `0` if nothing is. -/
def exponent? : Bytes → Option Int
  | [] => some 0
  | b :: rest =>
    if b = 101 ∨ b = 69 then
      let ds := dropSign rest
      if ds ≠ [] ∧ ds.all Bytes.isDigit then
        let n : Int := natOfDigits ds
        some (if rest.head? = some 45 then -n else n)
      else none
    else none

/-- An optional sign, digits with at most one point among them and at least one digit, and
an optional exponent. -/
def read? (bs : Bytes) : Option Decimal :=
  let (whole, rest) := spanDigits (dropSign bs)
  let (fraction, rest) :=
    match rest with
    | 46 :: rest => spanDigits rest
    | _ => ([], rest)
  if whole = [] ∧ fraction = [] then none
  else
    match exponent? rest with
    | none => none
    | some e => some ⟨natOfDigits (whole ++ fraction), e - fraction.length⟩

end Decimal

end StackStep
