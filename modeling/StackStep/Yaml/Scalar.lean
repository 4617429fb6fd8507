import StackStep.Text.Base64
import StackStep.Text.Utf8
import StackStep.Yaml.Resolve

/-!
Texts as YAML scalars, for a block mapping whose values are indented by `indent` where
they go on over several lines. A text of several lines is a literal block, a text that
would be read as something else is double quoted, and any other text stands as it is. A
style that cannot show the text gives way, plain to single quoted and every style to
double quoted, in which anything can be escaped. Bytes that are no text are written in
base 64 under a tag.
-/

namespace StackStep.Yaml

/-- How far the further lines of a scalar are indented. -/
def indent : Bytes := [32, 32, 32, 32]

/-! ### Characters -/

def isBreak (c : Char) : Bool :=
  let n := c.toNat
  n == 0x0A || n == 0x0D || n == 0x85 || n == 0x2028 || n == 0x2029

def isBlank (c : Char) : Bool := c == ' ' || c == '\t'

/-- Characters that may stand unescaped in some style: those of the basic plane but for
control characters, the byte order mark and the last two. -/
def isShown (c : Char) : Bool :=
  let n := c.toNat
  n == 0x0A || (0x20 ≤ n && n ≤ 0x7E) || (0xA0 ≤ n && n ≤ 0xD7FF) ||
    (0xE000 ≤ n && n ≤ 0xFFFD && n != 0xFEFF)

/-- Whether a tab apart, some character has to be escaped. -/
def hasSpecial (cs : List Char) : Bool := cs.any fun c => c != '\t' && !isShown c

/-- Whether two neighbours satisfy `p`. -/
def anyNeighbours (p : Char → Char → Bool) : List Char → Bool
  | a :: b :: rest => p a b || anyNeighbours p (b :: rest)
  | _ => false

/-! ### What a style can show -/

/-- Whether the first character, before `rest`, would open something else. -/
def opens (c : Char) (rest : List Char) : Bool :=
  let beforeBlank := match rest with
    | [] => true
    | d :: _ => isBlank d
  "#,[]\x7b\x7d&*!|>'\"%@`".toList.contains c || ("?:-".toList.contains c && beforeBlank)

/-- Whether a colon ends a word, or a number sign begins one. -/
def hasIndicator (cs : List Char) : Bool :=
  cs.getLast? == some ':' ||
    anyNeighbours (fun a b => (a == ':' && isBlank b) || (isBlank a && b == '#')) cs

def plainAllowed (cs : List Char) : Bool :=
  match cs with
  | [] => true
  | c :: rest =>
    !("---".toList.isPrefixOf cs || "...".toList.isPrefixOf cs) && !opens c rest &&
      !hasIndicator cs && c != ' ' && cs.getLast? != some ' ' &&
      cs.all fun c => isShown c && !isBreak c

/-- Whether a space stands before a line break. -/
def hasSpaceBreak (cs : List Char) : Bool := anyNeighbours (fun a b => a == ' ' && isBreak b) cs

def singleAllowed (cs : List Char) : Bool :=
  !anyNeighbours (fun a b => isBreak a && b == ' ') cs && !hasSpaceBreak cs &&
    !cs.contains '\t' && !hasSpecial cs

def literalAllowed (cs : List Char) : Bool :=
  cs.getLast? != some ' ' && !hasSpaceBreak cs && !hasSpecial cs

inductive Style where
  | plain
  | single
  | double
  | literal
  deriving DecidableEq, Repr

/-- The style of a text. A text that is `special` would be read as something else. -/
def chooseStyle (special : Bool) (cs : List Char) : Style :=
  if cs.contains '\n' then (if literalAllowed cs then .literal else .double)
  else if special then .double
  else if plainAllowed cs then .plain
  else if singleAllowed cs then .single
  else .double

/-! ### Writing -/

/-- Quotes are doubled, and what follows a line break is indented. -/
def singleBody (afterBreak : Bool) : List Char → Bytes
  | [] => []
  | c :: rest =>
    if isBreak c then Utf8.encode c ++ singleBody true rest
    else
      (if afterBreak then indent else []) ++ (if c = '\'' then [39, 39] else Utf8.encode c) ++
        singleBody false rest

def upperHex (width n : Nat) : Bytes :=
  (Bytes.hex width n).map fun b => if 97 ≤ b then b - 32 else b

/-- The letter after the backslash, for the characters that have one. -/
def escapeLetter? (c : Char) : Option UInt8 :=
  match c.toNat with
  | 0x00 => some 48
  | 0x07 => some 97
  | 0x08 => some 98
  | 0x09 => some 116
  | 0x0A => some 110
  | 0x0B => some 118
  | 0x0C => some 102
  | 0x0D => some 114
  | 0x1B => some 101
  | 0x22 => some 34
  | 0x5C => some 92
  | 0x85 => some 78
  | 0xA0 => some 95
  | 0x2028 => some 76
  | 0x2029 => some 80
  | _ => none

def escape (c : Char) : Bytes :=
  match escapeLetter? c with
  | some letter => [92, letter]
  | none =>
    if c.toNat ≤ 0xFF then ("\\x" : Bytes) ++ upperHex 2 c.toNat
    else if c.toNat ≤ 0xFFFF then ("\\u" : Bytes) ++ upperHex 4 c.toNat
    else ("\\U" : Bytes) ++ upperHex 8 c.toNat

/-- A text that begins with a byte order mark has every character escaped. -/
def doubleBody (cs : List Char) : Bytes :=
  let marked := cs.head? == some (Char.ofNat 0xFEFF)
  cs.flatMap fun c =>
    if marked || !isShown c || isBreak c || c == '"' || c == '\\' then escape c
    else Utf8.encode c

/-- The header of a literal block: the indentation, if the text begins with white space,
and what becomes of the line breaks at its end. -/
def literalHeader (cs : List Char) : Bytes :=
  let space := match cs with
    | c :: _ => c == ' ' || isBreak c
    | [] => false
  let chomp : Bytes := match cs.reverse with
    | [] => "-"
    | [c] => if isBreak c then "+" else "-"
    | c :: d :: _ => if !isBreak c then "-" else if isBreak d then "+" else ""
  ("|" : Bytes) ++ (if space then ("2" : Bytes) else []) ++ chomp

/-- The lines of a literal block. A line break at the very start ends the header. -/
def literalBody (afterBreak : Bool) : List Char → Bytes
  | [] => []
  | c :: rest =>
    if isBreak c then Utf8.encode c ++ literalBody true rest
    else (if afterBreak then indent else []) ++ Utf8.encode c ++ literalBody false rest

def writeLiteral (cs : List Char) : Bytes :=
  let start : Bytes := match cs with
    | c :: _ => if isBreak c then [] else "\n"
    | [] => []
  literalHeader cs ++ start ++ literalBody true cs

def write (style : Style) (cs : List Char) : Bytes :=
  match style with
  | .plain => Utf8.ofChars cs
  | .single => 39 :: (singleBody false cs ++ [39])
  | .double => 34 :: (doubleBody cs ++ [34])
  | .literal => writeLiteral cs

/-- Whether what is written ends in a line break of its own. -/
def endsLine (style : Style) (cs : List Char) : Bool :=
  style == .literal && cs.getLast?.any isBreak

/-- A scalar up to the end of its line. -/
def writeLine (special : Bool) (cs : List Char) : Bytes :=
  let style := chooseStyle special cs
  write style cs ++ (if endsLine style cs then [] else "\n")

/-- Lines of `width` bytes, each ended. -/
def wrapLines (width : Nat) : (fuel : Nat) → Bytes → Bytes
  | 0, _ => []
  | _ + 1, [] => []
  | fuel + 1, bs => bs.take width ++ (10 :: wrapLines width fuel (bs.drop width))

/-- Base 64, in lines of seventy digits unless there are fewer. -/
def binaryText (bs : Bytes) : Bytes :=
  let digits := Base64.encode bs
  if digits.length < 70 then digits else wrapLines 70 digits.length digits

/-- A text as the value of a mapping, up to the end of its line. -/
def scalarLine (bs : Bytes) : Bytes :=
  match Utf8.chars? bs with
  | some cs => writeLine (!readsAsString bs) cs
  | none =>
    ("!!binary " : Bytes) ++ writeLine false ((binaryText bs).map fun b => Char.ofNat b.toNat)

end StackStep.Yaml
