import StackStep.Text.Utf8

/-!
Text laid out in columns. A tab ends a cell, a line break ends a line, and a form feed
ends a line and every column with it. The last cell of a line belongs to no column. A
column is a run of neighbouring lines that have a cell there, and all its cells are padded
with spaces to two more than the widest, counted in characters. Between two bytes FF
nothing is a mark, and the two do not count.
-/

namespace StackStep.Columns

/-- The byte that opens and closes a stretch in which nothing is a mark. -/
def escape : UInt8 := 0xFF

/-- The parts between the marks that stand outside escaped stretches. -/
def cut (mark : UInt8 → Bool) (escaped : Bool) : Bytes → List Bytes
  | [] => [[]]
  | b :: rest =>
    if !escaped && mark b then [] :: cut mark escaped rest
    else
      match cut mark (if b = escape then !escaped else escaped) rest with
      | [] => [[b]]
      | part :: parts => (b :: part) :: parts

def isCellEnd (b : UInt8) : Bool := b == 9 || b == 11

def cells (line : Bytes) : List Bytes := cut isCellEnd false line

def lines (part : Bytes) : List Bytes := cut (· == 10) false part

def parts (text : Bytes) : List Bytes := cut (· == 12) false text

/-- The characters of a cell, without the bytes that bound escaped stretches. -/
def width (cell : Bytes) : Nat := Utf8.count cell - cell.count escape / 2 * 2

/-- What stands between two columns. -/
def padding : Nat := 2

def pad (w : Nat) (cell : Bytes) : Bytes := cell ++ List.replicate (w - width cell) 32

/-- Neighbours on which `p` holds share a group, any other element is alone in one. -/
def groups {α : Type} (p : α → Bool) : List α → List (List α)
  | [] => []
  | a :: rest =>
    match groups p rest with
    | [] => [[a]]
    | group :: more =>
      if p a && group.head?.any p then (a :: group) :: more else [a] :: group :: more

/-- Whether a line has a cell in the column it now begins with. -/
def hasColumn (line : List Bytes) : Bool := 2 ≤ line.length

/-- The width of a column whose cells begin these lines. -/
def columnWidth (lines : List (List Bytes)) : Nat :=
  (lines.map fun line => width (line.headD [])).foldl max 0 + padding

/-- Lays out lines of cells, at most `columns` columns of them. -/
def align : (columns : Nat) → List (List Bytes) → List Bytes
  | 0, lines => lines.map List.flatten
  | columns + 1, lines =>
    (groups hasColumn lines).flatMap fun group =>
      if group.head?.any hasColumn then
        List.zipWith (fun line rest => pad (columnWidth group) (line.headD []) ++ rest) group
          (align columns (group.map List.tail))
      else group.map List.flatten

/-- The most cells in a line. -/
def maxCells (lines : List (List Bytes)) : Nat := (lines.map List.length).foldl max 0

def alignAll (lines : List (List Bytes)) : List Bytes := align (maxCells lines) lines

/-- The whole text laid out. -/
def layout (text : Bytes) : Bytes :=
  Bytes.join "\n" ((parts text).flatMap fun part => alignAll ((lines part).map cells))

end StackStep.Columns
