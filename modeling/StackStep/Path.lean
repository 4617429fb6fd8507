import StackStep.Bytes

/-!
Paths as texts. Nothing here looks at a disk: a path is cleaned, joined and taken apart by
its letters alone, with `/` between the names and `..` for the directory above.
-/

namespace StackStep.Path

def separator : UInt8 := 47

def current : Bytes := "."
def parent : Bytes := ".."

def isAbsolute (path : Bytes) : Bool := path.head? == some separator

/-- Adds a name to names already read, the last of them first. Above the root of an absolute
path there is nothing, above the start of a relative one there is `..`. -/
def follow (absolute : Bool) (names : List Bytes) (name : Bytes) : List Bytes :=
  if name = [] ∨ name = current then names
  else if name = parent then
    match names with
    | [] => if absolute then [] else [parent]
    | last :: rest => if last = parent then parent :: names else rest
  else name :: names

/-- The names that are left of a path when `.` and `..` have been followed. -/
def names (path : Bytes) : List Bytes :=
  ((Bytes.split separator path).foldl (follow (isAbsolute path)) []).reverse

/-- The shortest path that means the same. -/
def clean (path : Bytes) : Bytes :=
  let joined := Bytes.join [separator] (names path)
  if isAbsolute path then separator :: joined
  else if joined = [] then current
  else joined

/-- Two paths one after the other, where an empty one does not count. -/
def join (a b : Bytes) : Bytes :=
  if a = [] then (if b = [] then [] else clean b)
  else clean (a ++ separator :: b)

/-- Everything before the last name. -/
def directory (path : Bytes) : Bytes :=
  clean (path.reverse.dropWhile (· ≠ separator)).reverse

/-- The path from the root, where a relative one starts in the directory `cwd`. -/
def absolute (cwd path : Bytes) : Bytes :=
  if isAbsolute path then clean path else join cwd path

end StackStep.Path
