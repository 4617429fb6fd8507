import StackStep.Calendar
import StackStep.Text.Decimal
import StackStep.Text.Radix

/-!
Which unquoted texts a YAML reader would take for something other than a string: the
words for null and the booleans, numbers, dates and times, and, for readers of the older
version of the language, its further booleans and its numbers in base sixty.
-/

namespace StackStep.Yaml

/-- Null, booleans, infinities and what is not a number. -/
def keywords : List Bytes :=
  ["", "~", "null", "Null", "NULL", "true", "True", "TRUE", "false", "False", "FALSE",
    ".nan", ".NaN", ".NAN", ".inf", ".Inf", ".INF", "+.inf", "+.Inf", "+.INF", "-.inf",
    "-.Inf", "-.INF"]

/-- The booleans of the older version. -/
def oldBooleans : List Bytes :=
  ["y", "Y", "yes", "Yes", "YES", "on", "On", "ON", "n", "N", "no", "No", "NO", "off", "Off",
    "OFF"]

/-- What follows a date with short fields, if it exists. -/
def dropDate? (bs : Bytes) : Option Bytes := do
  let (year, rest) ← Calendar.fixed? 4 bs
  let rest ← Bytes.after? "-" rest
  let (month, rest) ← Calendar.short? rest
  let rest ← Bytes.after? "-" rest
  let (day, rest) ← Calendar.short? rest
  if Calendar.isDate year month day then some rest else none

/-- What follows a time of day with short fields and perhaps a fraction. -/
def dropTime? (bs : Bytes) : Option Bytes := do
  let (hour, rest) ← Calendar.short? bs
  let rest ← Bytes.after? ":" rest
  let (minute, rest) ← Calendar.short? rest
  let rest ← Bytes.after? ":" rest
  let (second, rest) ← Calendar.short? rest
  if Calendar.isTime hour minute second then some (Calendar.dropFraction rest) else none

/-- A date; a date, the letter T, a time and a zone; or a date, spaces and a time. -/
def isTimestamp (bs : Bytes) : Bool :=
  match dropDate? bs with
  | none => false
  | some [] => true
  | some (b :: rest) =>
    if b = 84 ∨ b = 116 then (dropTime? rest >>= Calendar.dropZone?) == some []
    else if b = 32 then dropTime? (rest.dropWhile (· = 32)) == some []
    else false

def isFloat (bs : Bytes) : Bool :=
  match Decimal.read? bs with
  | some d => !d.overflows
  | none => false

def isOk {α : Type} : Except NumeralError α → Bool
  | .ok _ => true
  | .error _ => false

/-- An integer in the digits of `base`, with or without a sign. -/
def isInteger (base : Nat) (bs : Bytes) : Bool :=
  isOk (Radix.signed (Radix.digits base) bs) || isOk (Radix.digits base bs)

/-- An integer that begins with `mark`, after which the digits of `base` follow. -/
def isMarked (mark : Bytes) (base : Nat) (bs : Bytes) : Bool :=
  match Bytes.after? mark bs with
  | some rest => isInteger base rest
  | none =>
    match Bytes.after? (45 :: mark) bs with
    | some rest => isOk (Radix.signed (Radix.digits base) (45 :: rest))
    | none => false

/-- An integer or a fraction. Underscores do not count. -/
def isNumber (bs : Bytes) : Bool :=
  let plain := bs.filter (· ≠ 95)
  isOk (Radix.signed Radix.literal plain) || isOk (Radix.literal plain) || isFloat plain ||
    isMarked "0b" 2 plain || isMarked "0o" 8 plain

/-- A fraction that begins with its point, where underscores must separate digits. -/
def isPointFloat (bs : Bytes) : Bool :=
  (95 ∉ bs || Radix.separated bs) && isFloat (bs.filter (· ≠ 95))

/-- Whether the text stands for a value that is not a string. -/
def isSpecial (bs : Bytes) : Bool :=
  keywords.contains bs ||
    match bs with
    | [] => true
    | b :: _ =>
      if b = 46 then isPointFloat bs
      else if b = 43 ∨ b = 45 ∨ Bytes.isDigit b then isTimestamp bs || isNumber bs
      else false

/-! ### Numbers in base sixty -/

/-- What follows a colon and one or two digits, of which the first of two is below 6. -/
def dropSixtieth? : Bytes → Option Bytes
  | 58 :: a :: b :: rest =>
    if 48 ≤ a && a ≤ 53 && Bytes.isDigit b then some rest
    else if Bytes.isDigit a then some (b :: rest)
    else none
  | [58, a] => if Bytes.isDigit a then some [] else none
  | _ => none

/-- An optional point with digits and underscores after it, and nothing else. -/
def isSixtyTail : Bytes → Bool
  | [] => true
  | b :: rest => b = 46 && rest.all fun b => Bytes.isDigit b || b = 95

/-- Sixtieths and a tail. -/
def isSixtyRest : (fuel : Nat) → Bytes → Bool
  | 0, bs => isSixtyTail bs
  | fuel + 1, bs =>
    isSixtyTail bs ||
      match dropSixtieth? bs with
      | some rest => isSixtyRest fuel rest
      | none => false

/-- Digits and underscores after a first digit, then one or more sixtieths. -/
def isBaseSixty (bs : Bytes) : Bool :=
  match Decimal.dropSign bs with
  | [] => false
  | b :: rest =>
    Bytes.isDigit b &&
      match dropSixtieth? (rest.dropWhile fun b => Bytes.isDigit b || b = 95) with
      | some rest => isSixtyRest rest.length rest
      | none => false

/-- Whether the text can stand unquoted and still be read as a string by everyone. -/
def readsAsString (bs : Bytes) : Bool :=
  !isSpecial bs && !isBaseSixty bs && !oldBooleans.contains bs

end StackStep.Yaml
