import StackStep.Registry
import StackStep.Text.Columns
import StackStep.Yaml.Scalar

/-!
The listing of a registry, as a table or as YAML.
-/

namespace StackStep.Listing

/-- A row of the table: tabs end all cells but the last, and the line is ended. -/
def row (cells : List Bytes) : Bytes := Bytes.join "\t" cells ++ ("\n" : Bytes)

def header : List Bytes := ["NAME", "POP", "PUSH", "ARG", "DOC"]

def cells (info : OpcodeInfo) : List Bytes :=
  [info.name, OpcodeInfo.effect info.pops, OpcodeInfo.effect info.pushes, info.arg, info.doc]

/-- The heading and a row for each instruction. -/
def table (infos : List OpcodeInfo) : Bytes :=
  Columns.layout (row header ++ infos.flatMap fun info => row (cells info))

/-- One entry of the YAML sequence. The argument is left out when there is none. -/
def yamlEntry (info : OpcodeInfo) : Bytes :=
  ("- name: " : Bytes) ++ Yaml.scalarLine info.name ++
    ("  pops: " : Bytes) ++ Bytes.ofInt info.pops ++ ("\n" : Bytes) ++
    ("  pushes: " : Bytes) ++ Bytes.ofInt info.pushes ++ ("\n" : Bytes) ++
    (if info.arg = [] then [] else ("  arg: " : Bytes) ++ Yaml.scalarLine info.arg) ++
    ("  doc: " : Bytes) ++ Yaml.scalarLine info.doc

def yaml : List OpcodeInfo → Bytes
  | [] => "[]\n"
  | infos => infos.flatMap yamlEntry

inductive Format where
  | text
  | yaml
  deriving DecidableEq, Repr

/-- The format of the given name. An empty name means the table. -/
def Format.ofName? (name : Bytes) : Option Format :=
  if name = [] ∨ name = Bytes.ofString "text" then some .text
  else if name = Bytes.ofString "yaml" then some .yaml
  else none

def write (r : Registry) : Format → Bytes
  | .text => table (r.entries.map Entry.info)
  | .yaml => yaml (r.entries.map Entry.info)

/-- What is said about a format that does not exist. -/
def unknownFormat (name : Bytes) : Bytes :=
  ("unknown list format " : Bytes) ++ Text.quote name ++ (" (want text or yaml)" : Bytes)

/-- The listing in a format given by name, or what is wrong with the name. -/
def list (r : Registry) (name : Bytes) : Except Bytes Bytes :=
  match Format.ofName? name with
  | some format => .ok (write r format)
  | none => .error (unknownFormat name)

end StackStep.Listing
