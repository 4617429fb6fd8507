import StackStep.Json.Basic

/-!
Reading JSON. Every function takes the rest of the input and gives back what is left of it.
In a string an escape that is half of a surrogate pair, or a byte that is not UTF-8, stands
for the replacement character.
-/

namespace StackStep.Json

def isBlank (b : UInt8) : Bool := b == 32 || b == 9 || b == 10 || b == 13

def skipBlanks (bs : Bytes) : Bytes := bs.dropWhile isBlank

/-! ### Strings -/

/-- The value of four hexadecimal digits. -/
def hex4? : Bytes → Option (Nat × Bytes)
  | a :: b :: c :: d :: rest => do
    let a ← Bytes.hexValue? a
    let b ← Bytes.hexValue? b
    let c ← Bytes.hexValue? c
    let d ← Bytes.hexValue? d
    return (((a * 16 + b) * 16 + c) * 16 + d, rest)
  | _ => none

def isHighSurrogate (n : Nat) : Bool := 0xD800 ≤ n && n < 0xDC00
def isLowSurrogate (n : Nat) : Bool := 0xDC00 ≤ n && n < 0xE000

/-- The character of an escape by code, which takes a second escape if the first is the
high half of a pair and the second its low half. -/
def escapedCode? (bs : Bytes) : Option (Char × Bytes) := do
  let (high, rest) ← hex4? bs
  if isHighSurrogate high then
    match Bytes.after? "\\u" rest with
    | some second =>
      match hex4? second with
      | some (low, rest') =>
        if isLowSurrogate low then
          return (Char.ofNat (0x10000 + (high - 0xD800) * 0x400 + (low - 0xDC00)), rest')
        else return (Utf8.replacement, rest)
      | none => return (Utf8.replacement, rest)
    | none => return (Utf8.replacement, rest)
  else if isLowSurrogate high then return (Utf8.replacement, rest)
  else return (Char.ofNat high, rest)

/-- What a letter after the backslash stands for. -/
def escapedLetter? (b : UInt8) : Option UInt8 :=
  match b with
  | 34 => some 34
  | 92 => some 92
  | 47 => some 47
  | 98 => some 8
  | 102 => some 12
  | 110 => some 10
  | 114 => some 13
  | 116 => some 9
  | _ => none

/-- The rest of a string after its opening quote, with what is read so far reversed. -/
def stringBody : (fuel : Nat) → (read : Bytes) → Bytes → Option (Bytes × Bytes)
  | 0, _, _ => none
  | _ + 1, _, [] => none
  | fuel + 1, read, b :: rest =>
    if b = 34 then some (read.reverse, rest)
    else if b = 92 then
      match rest with
      | 117 :: code =>
        match escapedCode? code with
        | some (c, rest') => stringBody fuel ((Utf8.encode c).reverse ++ read) rest'
        | none => none
      | letter :: rest' =>
        match escapedLetter? letter with
        | some x => stringBody fuel (x :: read) rest'
        | none => none
      | [] => none
    else if b < 32 then none
    else stringBody fuel (b :: read) rest

def string? (bs : Bytes) : Option (Bytes × Bytes) :=
  (stringBody (bs.length + 1) [] bs).map fun (s, rest) => (Utf8.repair s, rest)

/-! ### Numbers -/

/-- One or more digits, and what follows them. -/
def digits? (bs : Bytes) : Option (Bytes × Bytes) :=
  match bs.takeWhile Bytes.isDigit with
  | [] => none
  | ds => some (ds, bs.dropWhile Bytes.isDigit)

/-- The digits before the point, without a leading zero unless it stands alone. -/
def whole? : Bytes → Option (Bytes × Bytes)
  | 48 :: rest => some ([48], rest)
  | bs => digits? bs

def fraction? : Bytes → Option (Bytes × Bytes)
  | 46 :: rest => (digits? rest).map fun (ds, rest) => (46 :: ds, rest)
  | bs => some ([], bs)

def exponent? : Bytes → Option (Bytes × Bytes)
  | b :: rest =>
    if b = 101 ∨ b = 69 then
      match rest with
      | s :: rest' =>
        if s = 43 ∨ s = 45 then (digits? rest').map fun (ds, r) => (b :: s :: ds, r)
        else (digits? rest).map fun (ds, r) => (b :: ds, r)
      | [] => none
    else some ([], b :: rest)
  | [] => some ([], [])

def number? (bs : Bytes) : Option (Bytes × Bytes) := do
  let (sign, bs) := match bs with
    | 45 :: rest => (([45] : Bytes), rest)
    | bs => ([], bs)
  let (whole, bs) ← whole? bs
  let (fraction, bs) ← fraction? bs
  let (exponent, bs) ← exponent? bs
  return (sign ++ whole ++ fraction ++ exponent, bs)

/-! ### Values -/

/-- A field name and the colon after it. -/
def fieldName? (bs : Bytes) : Option (Bytes × Bytes) :=
  match skipBlanks bs with
  | 34 :: rest => do
    let (name, rest) ← string? rest
    match skipBlanks rest with
    | 58 :: rest => return (name, rest)
    | _ => none
  | _ => none

/-- Items separated by commas up to the closing byte, after the opening one and at least
one item. -/
def itemsWith {α : Type} (item : Bytes → Option (α × Bytes)) (close : UInt8) :
    (fuel : Nat) → Bytes → Option (List α × Bytes)
  | 0, _ => none
  | fuel + 1, bs => do
    let (x, rest) ← item bs
    match skipBlanks rest with
    | b :: rest =>
      if b = 44 then
        let (xs, rest) ← itemsWith item close fuel rest
        return (x :: xs, rest)
      else if b = close then return ([x], rest)
      else none
    | [] => none

/-- A value with at most `fuel` levels of nesting. -/
def value? : (fuel : Nat) → Bytes → Option (Json × Bytes)
  | 0, _ => none
  | fuel + 1, bs =>
    match skipBlanks bs with
    | [] => none
    | b :: rest =>
      if b = 34 then (string? rest).map fun (s, rest) => (.string s, rest)
      else if b = 91 then
        match skipBlanks rest with
        | 93 :: rest => some (.array [], rest)
        | rest =>
          (itemsWith (value? fuel) 93 rest.length rest).map fun (xs, rest) => (.array xs, rest)
      else if b = 123 then
        match skipBlanks rest with
        | 125 :: rest => some (.object [], rest)
        | rest =>
          let pair (bs : Bytes) : Option ((Bytes × Json) × Bytes) := do
            let (name, rest) ← fieldName? bs
            let (v, rest) ← value? fuel rest
            return ((name, v), rest)
          (itemsWith pair 125 rest.length rest).map fun (fs, rest) => (.object fs, rest)
      else
        match Bytes.after? "null" (b :: rest) with
        | some rest => some (.null, rest)
        | none =>
          match Bytes.after? "true" (b :: rest) with
          | some rest => some (.bool true, rest)
          | none =>
            match Bytes.after? "false" (b :: rest) with
            | some rest => some (.bool false, rest)
            | none => (number? (b :: rest)).map fun (n, rest) => (.number n, rest)

/-- The nesting that is read, beyond which a text is refused. -/
def maxNesting : Nat := 10000

/-- One value, with nothing but blanks around it. -/
def parse? (bs : Bytes) : Option Json :=
  match value? maxNesting bs with
  | some (v, rest) => if (skipBlanks rest).isEmpty then some v else none
  | none => none

end StackStep.Json
