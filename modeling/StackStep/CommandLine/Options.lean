import StackStep.Text.Quoted
import StackStep.Text.Radix

/-!
The options of the command. An option begins with one or two hyphens, and its value
follows after an equals sign or as the next argument. A switch takes a value only after an
equals sign. Reading stops at the first argument that is no option, and at two hyphens
alone. An option given twice counts by its last value.
-/

namespace StackStep.CommandLine

structure Options where
  list : Bool := false
  format : Bytes := "text"
  new : Bool := false
  state : Bytes := []
  op : Bytes := []
  arg : Bytes := []
  lsp : Bool := false
  config : Bytes := "."
  verbosity : Int64 := -1
  deriving DecidableEq, Repr

/-- How the value of an option goes into the record. -/
inductive Setter where
  | switch (set : Bool → Options → Options)
  | text (set : Bytes → Options → Options)
  | number (set : Int64 → Options → Options)

structure Declaration where
  name : Bytes
  setter : Setter
  usage : Bytes
  /-- The default value as it is shown. -/
  shown : Option Bytes := none

/-- The options in the order in which they are explained. -/
def declarations : List Declaration :=
  [{ name := "arg", setter := .text fun v o => { o with arg := v },
      usage := "Argument text for -op" },
    { name := "config", setter := .text fun v o => { o with config := v },
      usage := "Directory to search upward for dbn.toml", shown := some "\".\"" },
    { name := "format", setter := .text fun v o => { o with format := v },
      usage := "Output format for -list: text or yaml", shown := some "\"text\"" },
    { name := "list", setter := .switch fun v o => { o with list := v },
      usage := "List the registered opcodes" },
    { name := "lsp", setter := .switch fun v o => { o with lsp := v },
      usage := "Run the opcode language server on stdio" },
    { name := "new", setter := .switch fun v o => { o with new := v },
      usage := "Write a fresh state snapshot" },
    { name := "op", setter := .text fun v o => { o with op := v },
      usage := "Apply one opcode to the snapshot" },
    { name := "state", setter := .text fun v o => { o with state := v },
      usage := "Snapshot file (default from dbn.toml, else state.dbns)" },
    { name := "v", setter := .number fun v o => { o with verbosity := v },
      usage := "Log verbosity (overrides dbn.toml)", shown := some "-1" }]

/-! ### The explanation -/

def Declaration.explain (d : Declaration) : Bytes :=
  ("  -" : Bytes) ++ d.name ++
    (match d.setter with
      | .switch _ => []
      | .text _ => (" string" : Bytes)
      | .number _ => " int") ++
    ("\n    \t" : Bytes) ++ d.usage ++
    (match d.shown with
      | none => []
      | some v => (" (default " : Bytes) ++ v ++ (")" : Bytes)) ++
    ("\n" : Bytes)

def examples : Bytes :=
  ("  dbnop -list                       # Print the opcode table\n" : Bytes) ++
  ("  dbnop -list -format yaml          # Same, as YAML\n" : Bytes) ++
  ("  dbnop -new                        # Start a new run in state.dbns\n" : Bytes) ++
  ("  dbnop -op LOAD_INTEGER -arg 3     # Push 3 onto the saved stack\n" : Bytes) ++
  ("  dbnop -op BINARY_ADD              # Add the top two values\n" : Bytes) ++
  ("  dbnop -state                      # Print the saved state\n" : Bytes) ++
  ("  dbnop -lsp                        # Serve completion and hover\n" : Bytes)

def usage : Bytes :=
  ("Usage: dbnop [options]\n\n" : Bytes) ++
    ("Lists opcodes and steps a saved interpreter state one opcode at a time.\n\n" : Bytes) ++
    ("Options:\n" : Bytes) ++ declarations.flatMap Declaration.explain ++
    ("\nExamples:\n" : Bytes) ++ examples

/-! ### Reading -/

inductive OptionError where
  /-- The explanation was asked for. -/
  | help
  | badForm (arg : Bytes)
  | unknown (name : Bytes)
  | missingValue (name : Bytes)
  | badSwitch (name value : Bytes)
  | badNumber (name value : Bytes) (cause : NumeralError)
  deriving DecidableEq, Repr

namespace OptionError

def cause : NumeralError → Bytes
  | .malformed => "parse error"
  | .outOfRange => "value out of range"

/-- The line that says what is wrong. -/
def message : OptionError → Bytes
  | .help => []
  | .badForm arg => ("bad flag syntax: " : Bytes) ++ arg ++ ("\n" : Bytes)
  | .unknown name => ("flag provided but not defined: -" : Bytes) ++ name ++ ("\n" : Bytes)
  | .missingValue name => ("flag needs an argument: -" : Bytes) ++ name ++ ("\n" : Bytes)
  | .badSwitch name value =>
    ("invalid boolean value " : Bytes) ++ Text.quote value ++ (" for -" : Bytes) ++ name ++
      (": parse error\n" : Bytes)
  | .badNumber name value e =>
    ("invalid value " : Bytes) ++ Text.quote value ++ (" for flag -" : Bytes) ++ name ++
      (": " : Bytes) ++ cause e ++ ("\n" : Bytes)

def exitCode : OptionError → Nat
  | .help => 0
  | _ => 2

end OptionError

def boolean? (value : Bytes) : Option Bool :=
  if (["1", "t", "T", "TRUE", "true", "True"] : List Bytes).contains value then some true
  else if (["0", "f", "F", "FALSE", "false", "False"] : List Bytes).contains value then some false
  else none

/-- The name of an option, and the value after an equals sign. A name is not empty. -/
def cutName : Bytes → Bytes × Option Bytes
  | [] => ([], none)
  | first :: rest =>
    (first :: rest.takeWhile (· ≠ 61),
      if 61 ∈ rest then some ((rest.dropWhile (· ≠ 61)).drop 1) else none)

/-- Without the hyphens of an option. -/
def dropHyphens : Bytes → Option Bytes
  | 45 :: 45 :: name => some name
  | 45 :: name => if name = [] then none else some name
  | _ => none

/-- Sets an option that has a value of its own. -/
def Declaration.set (d : Declaration) (value : Bytes) (o : Options) : Except OptionError Options :=
  match d.setter with
  | .text set => .ok (set value o)
  | .switch set =>
    match boolean? value with
    | some b => .ok (set b o)
    | none => .error (.badSwitch d.name value)
  | .number set =>
    match Radix.signed Radix.literal value with
    | .ok n => .ok (set n o)
    | .error e => .error (.badNumber d.name value e)

def Declaration.isSwitch (d : Declaration) : Bool :=
  match d.setter with
  | .switch _ => true
  | _ => false

def findDeclaration (name : Bytes) : Except OptionError Declaration :=
  match declarations.find? (·.name = name) with
  | some d => .ok d
  | none =>
    if name = Bytes.ofString "help" ∨ name = Bytes.ofString "h" then .error .help
    else .error (.unknown name)

/-- Reads options from the front of the arguments. -/
def readOptions (o : Options) : List Bytes → Except OptionError Options
  | [] => .ok o
  | arg :: args =>
    match dropHyphens arg with
    | none => .ok o
    | some name =>
      if arg = [45, 45] then .ok o
      else if name = [] ∨ name.head? = some 45 ∨ name.head? = some 61 then
        .error (.badForm arg)
      else
        match findDeclaration (cutName name).1, (cutName name).2, args with
        | .error e, _, _ => .error e
        | .ok d, some value, args =>
          match d.set value o with
          | .ok o => readOptions o args
          | .error e => .error e
        | .ok d, none, [] =>
          if d.isSwitch then d.set "true" o else .error (.missingValue d.name)
        | .ok d, none, next :: rest =>
          if d.isSwitch then
            match d.set "true" o with
            | .ok o => readOptions o (next :: rest)
            | .error e => .error e
          else
            match d.set next o with
            | .ok o => readOptions o rest
            | .error e => .error e

def Options.read (args : List Bytes) : Except OptionError Options := readOptions {} args

end StackStep.CommandLine
