import StackStep.Bytes

/-!
Dates and times of day as they are written in documents. Only their validity matters
here: no date is ever computed with.
-/

namespace StackStep.Calendar

def isLeap (year : Nat) : Bool := year % 4 == 0 && (year % 100 != 0 || year % 400 == 0)

def daysIn (year month : Nat) : Nat :=
  if month = 2 then (if isLeap year then 29 else 28)
  else if month = 4 ∨ month = 6 ∨ month = 9 ∨ month = 11 then 30
  else 31

/-- Whether the day exists. -/
def isDate (year month day : Nat) : Bool :=
  1 ≤ month && month ≤ 12 && 1 ≤ day && day ≤ daysIn year month

def isTime (hour minute second : Nat) : Bool := hour < 24 && minute < 60 && second < 60

/-- Exactly `n` digits at the front, and what follows them. -/
def fixed? : (n : Nat) → Bytes → Option (Nat × Bytes)
  | 0, bs => some (0, bs)
  | n + 1, b :: rest =>
    if Bytes.isDigit b then do
      let (m, rest) ← fixed? n rest
      return ((b.toNat - 48) * 10 ^ n + m, rest)
    else none
  | _ + 1, [] => none

/-- One or two digits at the front. -/
def short? (bs : Bytes) : Option (Nat × Bytes) := fixed? 2 bs <|> fixed? 1 bs

/-- Passes over digits after a point or a comma, if there are any. -/
def dropFraction : Bytes → Bytes
  | mark :: d :: rest =>
    if (mark = 46 ∨ mark = 44) ∧ Bytes.isDigit d then rest.dropWhile Bytes.isDigit
    else mark :: d :: rest
  | bs => bs

/-- What follows a zone: `Z`, or a signed offset of hours and minutes, of which 24 and 60
are still allowed. -/
def dropZone? : Bytes → Option Bytes
  | 90 :: rest => some rest
  | sign :: rest =>
    if sign = 43 ∨ sign = 45 then do
      let (hour, rest) ← fixed? 2 rest
      let rest ← Bytes.after? ":" rest
      let (minute, rest) ← fixed? 2 rest
      if hour ≤ 24 ∧ minute ≤ 60 then some rest else none
    else none
  | [] => none

end StackStep.Calendar
