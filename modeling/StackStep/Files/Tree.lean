import StackStep.Files.Disk
import StackStep.Path

/-!
A tree of files held as a value. A path is followed name by name from the root or from the
working directory, and every name but the last has to be a directory that exists, also
where `..` takes it back again. A name is looked up only in a directory that may be
searched. What is found may still not be open for reading or writing, be damaged, or be a
link that leads nowhere. A link that leads somewhere is taken for what it leads to.
-/

namespace StackStep

/-- The names that lead from the root to a place. -/
abbrev Location := List Bytes

/-- What may be done with a file or a directory. -/
structure Access where
  read : Bool := true
  write : Bool := true
  /-- Looking up names, in a directory. -/
  search : Bool := true
  deriving DecidableEq, Repr

inductive FileNode where
  | directory (access : Access := {})
  | file (data : Bytes) (access : Access := {})
  /-- A file that opens, but does not give its data. -/
  | damaged (error : FileError)
  /-- A link that leads nowhere, whether to read or to write there. -/
  | broken (error : FileError)
  deriving DecidableEq, Repr

/-- What reading gives, on the path that leads here. -/
def FileNode.read (path : Bytes) : FileNode → Except FileFailure Bytes
  | .directory access =>
    .error (if access.read then ⟨.reading, path, .isDirectory⟩ else ⟨.opening, path, .denied⟩)
  | .file data access => if access.read then .ok data else .error ⟨.opening, path, .denied⟩
  | .damaged error => .error ⟨.reading, path, error⟩
  | .broken error => .error ⟨.opening, path, error⟩

/-- What exists below the root. The root is always a directory. -/
structure FileTree where
  nodes : List (Location × FileNode) := []
  workingDirectory : Location := []

namespace FileTree

def node? (t : FileTree) (place : Location) : Option FileNode :=
  if place = [] then some (.directory {}) else t.nodes.lookup place

def put (t : FileTree) (place : Location) (node : FileNode) : FileTree :=
  { t with nodes := (place, node) :: t.nodes.filter fun entry => entry.1 ≠ place }

/-! ### Following paths -/

/-- The longest name, and the longest path, that a disk takes. -/
def maxName : Nat := 255
def maxPath : Nat := 4095

/-- What may be done with the directory at a place, if there is one. -/
def directoryAt (t : FileTree) (place : Location) : Except FileError Access :=
  match t.node? place with
  | some (.directory access) => .ok access
  | some (.broken error) => .error error
  | some _ => .error .notDirectory
  | none => .error .notFound

/-- The place that a name leads to from a directory, whatever is there. -/
def named (t : FileTree) (place : Location) (name : Bytes) : Except FileError Location := do
  if name = [] then return place
  else
    let access ← t.directoryAt place
    if !access.search then .error .denied
    else if name = Path.current then return place
    else if name = Path.parent then return place.dropLast
    else if maxName < name.length then .error .nameTooLong
    else return place ++ [name]

/-- The directory that a name leads to. -/
def enter (t : FileTree) (place : Location) (name : Bytes) : Except FileError Location := do
  let next ← t.named place name
  let _ ← t.directoryAt next
  return next

/-- The names of a path, and the place they start from. -/
def start (t : FileTree) (path : Bytes) : Except FileError (Location × List Bytes) :=
  if path = [] then .error .notFound
  else if 0 ∈ path then .error .invalidName
  else if maxPath < path.length then .error .nameTooLong
  else
    let place := if Path.isAbsolute path then [] else t.workingDirectory
    .ok (place, Bytes.split Path.separator path)

/-- The place of a path to be read, and what is there. -/
def locate (t : FileTree) (path : Bytes) : Except FileError FileNode := do
  let (place, names) ← t.start path
  let directory ← names.dropLast.foldlM t.enter place
  let found ← t.named directory (names.getLast?.getD [])
  match t.node? found with
  | some (.broken error) => .error error
  | some node => return node
  | none => .error .notFound

/-- The place of a path to be written, which must not end in a directory. A new file takes
the right to write to its directory. -/
def target (t : FileTree) (path : Bytes) : Except FileError Location := do
  let (place, names) ← t.start path
  let kept := (names.reverse.dropWhile (· = [])).reverse
  let directory ← kept.dropLast.foldlM t.enter place
  let last := kept.getLast?.getD []
  if names.getLast? = some [] ∨ last = [] ∨ last = Path.current ∨ last = Path.parent then
    .error .isDirectory
  else
    let found ← t.named directory last
    match t.node? found with
    | some (.directory _) => .error .isDirectory
    | some (.file _ access) => if access.write then return found else .error .denied
    | some (.damaged _) => return found
    | some (.broken error) => .error error
    | none =>
      let access ← t.directoryAt directory
      if access.write then return found else .error .denied

/-! ### Operations -/

def pathExists (t : FileTree) (path : Bytes) : Bool :=
  match t.locate path with
  | .ok _ => true
  | .error _ => false

def read (t : FileTree) (path : Bytes) : Except FileFailure Bytes :=
  match t.locate path with
  | .ok node => node.read path
  | .error e => .error ⟨.opening, path, e⟩

/-- A file with new data, and the rights that it had. -/
def withData (t : FileTree) (place : Location) (data : Bytes) : FileNode :=
  match t.node? place with
  | some (.file _ access) => .file data access
  | _ => .file data

def write (t : FileTree) (path data : Bytes) : Except FileFailure FileTree :=
  match t.target path with
  | .ok place => .ok (t.put place (t.withData place data))
  | .error e => .error ⟨.opening, path, e⟩

def touch (t : FileTree) (path : Bytes) : Except FileFailure FileTree :=
  match t.target path with
  | .ok place => .ok (if (t.node? place).isSome then t else t.put place (.file []))
  | .error e => .error ⟨.opening, path, e⟩

/-- Makes a directory and all those above it, in place of nothing. -/
def makeDirectory (t : FileTree) (place : Location) : FileTree :=
  let onTheWay := (List.range (place.length + 1)).map place.take
  (onTheWay.filter fun above => (t.node? above).isNone).foldl
    (fun t above => t.put above .directory) t

/-- Puts a file in its place and makes the directories above it. -/
def makeFile (t : FileTree) (place : Location) (data : Bytes) : FileTree :=
  (t.makeDirectory place.dropLast).put place (.file data)

/-- Keeps the tree that an operation leaves, the old one if it fails. -/
def update (operation : FileTree → Except FileFailure FileTree) :
    StateM FileTree (Except FileFailure Unit) := fun t =>
  match operation t with
  | .ok t' => (.ok (), t')
  | .error e => (.error e, t)

/-- The tree as a disk. -/
def disk : Disk (StateM FileTree) where
  workingDirectory := fun t =>
    (Path.separator :: Bytes.join [Path.separator] t.workingDirectory, t)
  pathExists path := fun t => (t.pathExists path, t)
  read path := fun t => (t.read path, t)
  write path data := update fun t => t.write path data
  touch path := update fun t => t.touch path

end FileTree

end StackStep
