import StackStep.Toml.Token

/-!
Reading a settings document. A statement takes a line, unless a value inside brackets goes
on over several, and only a comment may follow it. Each step of the readers below takes a
byte or opens a bracket, so twice the length of the text is more than enough fuel.
-/

namespace StackStep.Toml

/-! ### Keys -/

def isBareByte (b : UInt8) : Bool :=
  Bytes.isDigit b || isAsciiLetter b || b == 95 || b == 45

/-- One part of a key, bare or quoted. -/
def keyPart : Bytes → Option (Bytes × Bytes)
  | 34 :: rest => shortString 34 rest
  | 39 :: rest => shortString 39 rest
  | bs =>
    let name := bs.takeWhile isBareByte
    if name = [] then none else some (name, bs.dropWhile isBareByte)

/-- The parts of a key with points between them and blanks anywhere around. -/
def key : (fuel : Nat) → Bytes → Option (Key × Bytes)
  | 0, _ => none
  | fuel + 1, bs => do
    let (part, rest) ← keyPart (dropBlanks bs)
    match dropBlanks rest with
    | 46 :: rest =>
      let (parts, rest) ← key fuel rest
      return (part :: parts, rest)
    | rest => return ([part], rest)

/-! ### Values -/

mutual

/-- A value, blanks before it passed over. -/
def value : (fuel : Nat) → Bytes → Option (Expr × Bytes)
  | 0, _ => none
  | fuel + 1, bs =>
    match dropBlanks bs with
    | 34 :: rest => do
      let (t, rest) ← string 34 rest
      return (.string t, rest)
    | 39 :: rest => do
      let (t, rest) ← string 39 rest
      return (.string t, rest)
    | 91 :: rest => do
      let (items, rest) ← arrayItems fuel rest
      return (.array items, rest)
    | 123 :: rest => do
      let (entries, rest) ← tableEntries fuel rest
      return (.inlineTable entries, rest)
    | 43 :: rest => signedNumber 43 rest
    | 45 :: rest => signedNumber 45 rest
    | b :: rest => if Bytes.isDigit b then numberOrDate (b :: rest) else word (b :: rest)
    | [] => none

/-- The items of an array up to its closing bracket. -/
def arrayItems : (fuel : Nat) → Bytes → Option (List Expr × Bytes)
  | 0, _ => none
  | fuel + 1, bs =>
    match dropSpace false bs with
    | 93 :: rest => some ([], rest)
    | rest => do
      let (item, rest) ← value fuel rest
      match dropSpace false rest with
      | 44 :: rest =>
        let (items, rest) ← arrayItems fuel rest
        return (item :: items, rest)
      | 93 :: rest => return ([item], rest)
      | _ => none

/-- The entries of an inline table up to its closing brace. -/
def tableEntries : (fuel : Nat) → Bytes → Option (List (Key × Expr) × Bytes)
  | 0, _ => none
  | fuel + 1, bs =>
    match dropSpace false bs with
    | 125 :: rest => some ([], rest)
    | rest => do
      let (name, rest) ← key rest.length rest
      let rest ← Bytes.after? "=" rest
      let (item, rest) ← value fuel rest
      match dropSpace false rest with
      | 44 :: rest =>
        let (entries, rest) ← tableEntries fuel rest
        return ((name, item) :: entries, rest)
      | 125 :: rest => return ([(name, item)], rest)
      | _ => none

end

/-! ### Statements -/

/-- What follows the line that a statement ends on. -/
def endStatement (bs : Bytes) : Option Bytes :=
  match dropBlanks bs with
  | [] => some []
  | b :: rest =>
    if isNewline b then some rest
    else if b = 35 then some (dropComment rest)
    else none

/-- A statement at the start of a line. -/
def statement (bs : Bytes) : Option (Statement × Bytes) :=
  match bs with
  | 91 :: 91 :: rest => do
    let (name, rest) ← key rest.length rest
    let rest ← Bytes.after? "]]" rest
    return (.element name, rest)
  | 91 :: rest => do
    let (name, rest) ← key rest.length rest
    let rest ← Bytes.after? "]" rest
    return (.table name, rest)
  | bs => do
    let (name, rest) ← key bs.length bs
    let rest ← Bytes.after? "=" rest
    let (item, rest) ← value (2 * rest.length + 2) rest
    return (.assign name item, rest)

def statements : (fuel : Nat) → Bytes → Option Document
  | 0, _ => none
  | fuel + 1, bs =>
    match dropSpace false bs with
    | [] => some []
    | rest => do
      let (first, rest) ← statement rest
      let rest ← endStatement rest
      return first :: (← statements fuel rest)

/-- The bytes after a byte order mark. -/
def dropMark : Bytes → Bytes
  | 0xEF :: 0xBB :: 0xBF :: rest => rest
  | 0xFF :: 0xFE :: rest => rest
  | 0xFE :: 0xFF :: rest => rest
  | bs => bs

/-- The document that the bytes write, if they do. -/
def Document.read? (bs : Bytes) : Option Document :=
  let text := dropMark bs
  if isText text then statements (text.length + 1) text else none

end StackStep.Toml
