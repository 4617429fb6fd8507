import StackStep.Calendar
import StackStep.Text.Decimal
import StackStep.Text.Radix
import StackStep.Text.Utf8
import StackStep.Toml.Document

/-!
The smallest parts of a settings document: blanks and comments, strings, numbers, dates.
Every reader takes its part off the front and returns the rest.
-/

namespace StackStep.Toml

/-! ### Characters -/

def isBlank (b : UInt8) : Bool := b == 32 || b == 9

def isNewline (b : UInt8) : Bool := b == 10 || b == 13

def isControl (b : UInt8) : Bool := (b < 32 && b != 9 && b != 10 && b != 13) || b == 127

/-- Whether every carriage return stands before a line feed. -/
def returnsPaired : Bytes → Bool
  | [] => true
  | [b] => b != 13
  | a :: b :: rest => (a != 13 || b == 10) && returnsPaired (b :: rest)

/-- Whether the bytes can be a document at all: text without control characters. -/
def isText (bs : Bytes) : Bool :=
  Utf8.valid bs && !bs.any isControl && returnsPaired bs

def dropBlanks (bs : Bytes) : Bytes := bs.dropWhile isBlank

/-- What follows a comment, from the end of its line on. -/
def dropComment (bs : Bytes) : Bytes := bs.dropWhile (! isNewline ·)

/-- Passes over blanks, line ends and comments. -/
def dropSpace (inComment : Bool) : Bytes → Bytes
  | [] => []
  | b :: rest =>
    if inComment then dropSpace (!isNewline b) rest
    else if isBlank b || isNewline b then dropSpace false rest
    else if b = 35 then dropSpace true rest
    else b :: rest

/-! ### Strings -/

def isSpace (b : UInt8) : Bool := isBlank b || isNewline b

/-- The character written by hexadecimal digits. -/
def hexChar? (ds : Bytes) : Option Bytes := do
  let values ← ds.mapM Bytes.hexValue?
  let c ← Utf8.scalar? 0 (values.foldl (fun n d => n * 16 + d) 0)
  return Utf8.encode c

/-- What a letter after a backslash stands for. -/
def escapeLetter? (b : UInt8) : Option UInt8 :=
  if b = 98 then some 8
  else if b = 116 then some 9
  else if b = 110 then some 10
  else if b = 102 then some 12
  else if b = 114 then some 13
  else if b = 101 then some 27
  else if b = 34 then some 34
  else if b = 92 then some 92
  else none

/-- Whether only white space stands before the next line feed. -/
def endsLine (bs : Bytes) : Bool := (bs.takeWhile isSpace).contains 10

/-- Replaces the escapes in the text between the quotes. A backslash at the end of a line
takes with it all white space up to the next character. -/
def unescape (skipping : Bool) : Bytes → Option Bytes
  | [] => some []
  | 92 :: 120 :: a :: b :: rest => do
    let c ← hexChar? [a, b]
    return c ++ (← unescape false rest)
  | 92 :: 117 :: a :: b :: c :: d :: rest => do
    let c ← hexChar? [a, b, c, d]
    return c ++ (← unescape false rest)
  | 92 :: 85 :: a :: b :: c :: d :: e :: f :: g :: h :: rest => do
    let c ← hexChar? [a, b, c, d, e, f, g, h]
    return c ++ (← unescape false rest)
  | 92 :: b :: rest =>
    if isSpace b then
      if endsLine (b :: rest) then unescape true rest else none
    else do
      let c ← escapeLetter? b
      return c :: (← unescape false rest)
  | b :: rest =>
    if b = 92 then none
    else if skipping && isSpace b then unescape true rest
    else return b :: (← unescape false rest)

/-- The text up to the closing quote on the same line. A backslash keeps the next character
from closing. -/
def cutString (quote : UInt8) (escapes : Bool) : Bytes → Option (Bytes × Bytes)
  | [] => none
  | 92 :: b :: rest =>
    if isNewline b then none
    else if escapes then do
      let (inner, rest) ← cutString quote escapes rest
      return (92 :: b :: inner, rest)
    else if b = quote then some ([92], rest)
    else do
      let (inner, rest) ← cutString quote escapes (b :: rest)
      return (92 :: inner, rest)
  | b :: rest =>
    if isNewline b then none
    else if b = quote then some ([], rest)
    else do
      let (inner, rest) ← cutString quote escapes rest
      return (b :: inner, rest)

/-- Whether the text read so far, its last byte first, already ends in two quotes, so that
four more would be too many. They do not count where the byte before them is a backslash. -/
def tooMany (quote : UInt8) (escapes : Bool) : (seen : Bytes) → Bool
  | a :: b :: c :: _ => a == quote && b == quote && !(escapes && c == 92)
  | [a, b] => a == quote && b == quote
  | _ => false

/-- The text up to three closing quotes. One or two more before them belong to the text,
further ones are refused. -/
def cutLong (quote : UInt8) (escapes : Bool) :
    (seen : Bytes) → Bytes → Option (Bytes × Bytes)
  | _, [] => none
  | seen, 92 :: b :: rest =>
    if escapes then do
      let (inner, rest) ← cutLong quote escapes (b :: 92 :: seen) rest
      return (92 :: b :: inner, rest)
    else do
      let (inner, rest) ← cutLong quote escapes (92 :: seen) (b :: rest)
      return (92 :: inner, rest)
  | seen, b :: rest =>
    if b = quote ∧ rest.take 2 = [quote, quote] then
      if (rest.drop 2).head? = some quote then
        if tooMany quote escapes seen then none
        else do
          let (inner, rest) ← cutLong quote escapes (b :: seen) rest
          return (b :: inner, rest)
      else some ([], rest.drop 2)
    else do
      let (inner, rest) ← cutLong quote escapes (b :: seen) rest
      return (b :: inner, rest)

/-- A line end right after the opening quotes does not count. -/
def dropFirstNewline : Bytes → Bytes
  | 10 :: rest => rest
  | 13 :: 10 :: rest => rest
  | bs => bs

/-- A string on one line, after its opening quote. -/
def shortString (quote : UInt8) (bs : Bytes) : Option (Bytes × Bytes) := do
  let (raw, rest) ← cutString quote (quote == 34) bs
  if quote = 34 then return (← unescape false raw, rest) else return (raw, rest)

/-- A string of several lines, after its opening quotes. -/
def longString (quote : UInt8) (bs : Bytes) : Option (Bytes × Bytes) := do
  let (raw, rest) ← cutLong quote (quote == 34) [] bs
  let text := dropFirstNewline raw
  if quote = 34 then return (← unescape false text, rest) else return (text, rest)

/-- A string in any of its forms, after its first quote. -/
def string (quote : UInt8) (bs : Bytes) : Option (Bytes × Bytes) :=
  match Bytes.after? [quote, quote] bs with
  | some rest => longString quote rest
  | none => shortString quote bs

/-! ### Numbers and dates -/

/-- Whether each underscore stands between two digits, letters of a base counted in. -/
def underscoresFit : (after : Bool) → Bytes → Bool
  | after, [] => after
  | after, b :: rest => (b != 95 || after) && underscoresFit (Bytes.hexValue? b).isSome rest

/-- Zeros in front, apart from a zero alone and the zero of a base. -/
def hasLeadingZero : Bytes → Bool
  | [48] => false
  | 48 :: b :: _ => !(b == 98 || b == 111 || b == 120)
  | sign :: 48 :: _ :: _ => sign == 43 || sign == 45
  | _ => false

def integer? (literal : Bytes) : Option Int64 :=
  if underscoresFit false literal && !hasLeadingZero literal then
    (Radix.signed Radix.literal literal).toOption
  else none

/-- Whether every point has a digit after it. -/
def pointsFit : Bytes → Bool
  | [] => true
  | 46 :: rest => rest.head?.any Bytes.isDigit && pointsFit rest
  | _ :: rest => pointsFit rest

/-- The parts between points and exponent letters, without those that are empty. -/
def floatParts (literal : Bytes) : List Bytes :=
  ((Bytes.split 46 (literal.map fun b => if b = 101 ∨ b = 69 then 46 else b))).filter (· ≠ [])

/-- Whether the text is a fraction that fits in 64 bits. -/
def isFloat (literal : Bytes) : Bool :=
  let parts := floatParts literal
  parts.all (underscoresFit false) && !parts.head?.any hasLeadingZero && pointsFit literal &&
    match Decimal.read? (literal.filter (· ≠ 95)) with
    | some d => !d.overflows
    | none => false

/-- What follows hours and minutes, and seconds with perhaps a fraction if there are any. -/
def dropTime? (bs : Bytes) : Option Bytes := do
  let (hour, rest) ← Calendar.fixed? 2 bs
  let rest ← Bytes.after? ":" rest
  let (minute, rest) ← Calendar.fixed? 2 rest
  match Bytes.after? ":" rest with
  | none => if Calendar.isTime hour minute 0 then some rest else none
  | some rest =>
    let (second, rest) ← Calendar.fixed? 2 rest
    if Calendar.isTime hour minute second then some (Calendar.dropFraction rest) else none

/-- What follows a date. -/
def dropDate? (bs : Bytes) : Option Bytes := do
  let (year, rest) ← Calendar.fixed? 4 bs
  let rest ← Bytes.after? "-" rest
  let (month, rest) ← Calendar.fixed? 2 rest
  let rest ← Bytes.after? "-" rest
  let (day, rest) ← Calendar.fixed? 2 rest
  if Calendar.isDate year month day then some rest else none

/-- A date, a time, or both with perhaps a zone. The letters may be small, and a blank may
stand for the letter between date and time. -/
def isDatetime (literal : Bytes) : Bool :=
  let plain := literal.map fun b => if b = 122 then 90 else if b = 116 ∨ b = 32 then 84 else b
  match dropDate? plain with
  | some [] => true
  | some (84 :: rest) =>
    match dropTime? rest with
    | some [] => true
    | some zone => Calendar.dropZone? zone == some []
    | none => false
  | some _ => false
  | none => dropTime? plain == some []

/-- Digits of a base and underscores. -/
def isBaseDigit (base : Nat) (b : UInt8) : Bool :=
  b == 95 || (Radix.digitValue? b).any (· < base)

def isDecimalByte (b : UInt8) : Bool := Bytes.isDigit b || b == 95

def isFloatByte (b : UInt8) : Bool :=
  isDecimalByte b || b == 46 || b == 45 || b == 43 || b == 101 || b == 69

def isDatetimeByte (b : UInt8) : Bool :=
  Bytes.isDigit b || [45, 58, 84, 116, 32, 46, 90, 122, 43].contains b

/-- The longest text of bytes in a class, read as a value of one kind. -/
def span (inside : UInt8 → Bool) (value? : Bytes → Option Expr) (bs : Bytes) :
    Option (Expr × Bytes) := do
  return (← value? (bs.takeWhile inside), bs.dropWhile inside)

def integerExpr (literal : Bytes) : Option Expr := (integer? literal).map .integer

def floatExpr (literal : Bytes) : Option Expr :=
  if isFloat literal then some (.float literal) else none

def datetimeExpr (literal : Bytes) : Option Expr :=
  let trimmed := (literal.reverse.dropWhile (· = 32)).reverse
  if isDatetime trimmed then some (.datetime trimmed) else none

/-- Whether a point or an exponent follows, so that the number is a fraction. -/
def fractionFollows (bs : Bytes) : Bool :=
  bs.head?.any fun b => b == 46 || b == 101 || b == 69

/-- An integer or a fraction in decimal, perhaps with a sign that has been read. -/
def decimal (sign : Bytes) (bs : Bytes) : Option (Expr × Bytes) :=
  let inside := if fractionFollows (bs.dropWhile isDecimalByte) then isFloatByte else isDecimalByte
  let value? := if fractionFollows (bs.dropWhile isDecimalByte) then floatExpr else integerExpr
  span inside (fun literal => value? (sign ++ literal)) bs

/-- The base chosen by a letter after a leading zero. Only small letters choose one. -/
def smallLetterBase? (b : UInt8) : Option Nat :=
  if b = 98 then some 2 else if b = 111 then some 8 else if b = 120 then some 16 else none

/-- A number, a date or a time that begins with a digit. -/
def numberOrDate (bs : Bytes) : Option (Expr × Bytes) :=
  let digits := bs.takeWhile Bytes.isDigit
  let next := (bs.dropWhile Bytes.isDigit).head?
  if digits = [48] then
    match next.bind smallLetterBase? with
    | some base => do
      let digits := (bs.drop 2).takeWhile (isBaseDigit base)
      if digits.head? = some 95 then none
      else return (← integerExpr (bs.take 2 ++ digits), (bs.drop 2).dropWhile (isBaseDigit base))
    | none => decimal [] bs
  else if next = some 45 ∨ next = some 58 then span isDatetimeByte datetimeExpr bs
  else decimal [] bs

/-- A number after its sign. Only decimal numbers have one. -/
def signedNumber (sign : UInt8) (bs : Bytes) : Option (Expr × Bytes) :=
  match Bytes.after? "inf" bs, Bytes.after? "nan" bs, bs with
  | some rest, _, _ => some (.float (sign :: "inf"), rest)
  | none, some rest, _ => some (.float (sign :: "nan"), rest)
  | none, none, 48 :: b :: rest =>
    if (smallLetterBase? b).isSome then none else decimal [sign] (48 :: b :: rest)
  | none, none, b :: rest => if Bytes.isDigit b then decimal [sign] (b :: rest) else none
  | none, none, [] => none

def isAsciiLetter (b : UInt8) : Bool := (97 ≤ b && b ≤ 122) || (65 ≤ b && b ≤ 90)

/-- The words for booleans, infinity and what is not a number. -/
def word (bs : Bytes) : Option (Expr × Bytes) :=
  match Bytes.after? "inf" bs, Bytes.after? "nan" bs with
  | some rest, _ => some (.float "inf", rest)
  | none, some rest => some (.float "nan", rest)
  | none, none =>
    let letters := bs.takeWhile isAsciiLetter
    let rest := bs.dropWhile isAsciiLetter
    if letters = Bytes.ofString "true" then some (.boolean true, rest)
    else if letters = Bytes.ofString "false" then some (.boolean false, rest)
    else none

end StackStep.Toml
