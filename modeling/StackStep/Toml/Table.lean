import StackStep.Toml.Document

/-!
The tables that a settings document makes. Statements are carried out in order. A table
may be begun implicitly, as the parent of another or by a dotted key, and such a table may
be opened once more by name. Any other key is given once. Where a dotted key leads through
a key whose last value was an array, a new table takes the place of what is there.

Whether a table was begun implicitly and whether a key last had an array is recorded by
the names that lead there, without regard to which element of an array of tables they lead
through.
-/

namespace StackStep.Toml

inductive Value where
  | string (t : Bytes)
  | integer (n : Int64)
  | boolean (b : Bool)
  | float (literal : Bytes)
  | datetime (literal : Bytes)
  | array (items : List Value)
  | table (entries : List (Bytes × Value))
  /-- The elements made by headers in double brackets. -/
  | tables (elements : List (List (Bytes × Value)))
  deriving Repr

abbrev Table := List (Bytes × Value)

namespace Table

/-- Gives a name its value, in the place of an older one. -/
def set (name : Bytes) (v : Value) : Table → Table
  | [] => [(name, v)]
  | (n, w) :: rest => if n = name then (n, v) :: rest else (n, w) :: set name v rest

/-- The table that names lead to. Through an array of tables they lead into its last
element. -/
def find? : (path : Key) → Table → Option Table
  | [], t => some t
  | name :: path, t =>
    match t.lookup name with
    | some (.table inner) => find? path inner
    | some (.tables elements) => elements.getLast?.bind (find? path)
    | _ => none

/-- Changes the table that names lead to, if they lead to one. -/
def modify (change : Table → Table) : (path : Key) → Table → Table
  | [], t => change t
  | name :: path, t =>
    match t.lookup name with
    | some (.table inner) => t.set name (.table (modify change path inner))
    | some (.tables elements) =>
      match elements.getLast? with
      | some last => t.set name (.tables (elements.dropLast ++ [modify change path last]))
      | none => t
    | _ => t

/-- Gives nested names a value inside a table that nothing else refers to. -/
def insertAt (v : Value) : (path : Key) → (name : Bytes) → Table → Option Table
  | [], name, t => some (t.set name v)
  | part :: path, name, t =>
    match t.lookup part with
    | none => do
      let inner ← insertAt v path name []
      return t.set part (.table inner)
    | some (.table inner) => do
      let inner ← insertAt v path name inner
      return t.set part (.table inner)
    | some _ => none

end Table

/-- The tables so far, and what has to be known about them. -/
structure Builder where
  root : Table := []
  /-- The tables begun implicitly and not yet opened by name. -/
  implicit : List Key := []
  /-- The keys whose last value was an array. -/
  arrays : List Key := []
  /-- The table that keys are now given in. -/
  context : Key := []

namespace Builder

def markImplicit (b : Builder) (path : Key) : Builder :=
  { b with implicit := path :: b.implicit }

def unmarkImplicit (b : Builder) (path : Key) : Builder :=
  { b with implicit := b.implicit.filter (· ≠ path) }

/-- Records whether a key has an array. An empty key stands for the table it is in. -/
def markArray (b : Builder) (name : Bytes) (isArray : Bool) : Builder :=
  let path := if name = [] then b.context else b.context ++ [name]
  let path := if path = [] then [[]] else path
  let others := b.arrays.filter (· ≠ path)
  { b with arrays := if isArray then path :: others else others }

/-- Puts a value into the table of the context. -/
def put (b : Builder) (name : Bytes) (v : Value) : Builder :=
  { b with root := b.root.modify (·.set name v) b.context }

/-- Gives a key its value in the table of the context. A key that is there already has to be
implicit, and no longer is. It keeps its table, unless its last value was an array. -/
def setValue (b : Builder) (name : Bytes) (v : Value) : Option Builder := do
  let path := b.context ++ [name]
  let t ← b.root.find? b.context
  if (t.lookup name).isNone then return b.put name v
  else if b.implicit.contains path then
    let opened := b.unmarkImplicit path
    return if b.arrays.contains path then opened.put name v else opened
  else none

/-- Moves the context into a table below it, which is begun if it is not there. -/
def descend (b : Builder) (name : Bytes) : Option Builder := do
  let path := b.context ++ [name]
  let t ← b.root.find? b.context
  match t.lookup name with
  | none => return { (b.markImplicit path).put name (.table []) with context := path }
  | some (.table _) | some (.tables _) => return { b with context := path }
  | some _ => none

/-- Adds an element to an array of tables. -/
def addElement (b : Builder) (name : Bytes) : Option Builder := do
  let t ← b.root.find? b.context
  match t.lookup name with
  | none => return b.put name (.tables [[]])
  | some (.tables elements) => return b.put name (.tables (elements ++ [[]]))
  | some _ => none

/-- Makes the table that names lead to from the root the context. It is opened by name, or,
as an `element`, added to an array of tables. -/
def enter (b : Builder) (path : Key) (element : Bool) : Option Builder := do
  let name ← path.getLast?
  let b ← path.dropLast.foldlM descend { b with context := [] }
  let b ← if element then b.addElement name else b.setValue name (.table [])
  return { b with context := path }

/-- Makes the table of a dotted key the context, each part begun implicitly. -/
def enterDotted (b : Builder) (parts : Key) : Option Builder :=
  parts.foldlM (fun b part =>
    let path := b.context ++ [part]
    (b.markImplicit path).enter path false) b

end Builder

def Expr.isArray : Expr → Bool
  | .array _ => true
  | _ => false

mutual

/-- The value given to the key `name` in the table of the context. The entries of an inline
table are also given one by one, as keys of that table. -/
def Expr.eval (b : Builder) (name : Bytes) (inArray : Bool) : Expr → Option (Value × Builder)
  | .string t => some (.string t, b)
  | .integer n => some (.integer n, b)
  | .boolean v => some (.boolean v, b)
  | .float literal => some (.float literal, b)
  | .datetime literal => some (.datetime literal, b)
  | .array items => do
    let (values, b) ← evalItems (b.markArray name true) name items
    return (.array values, b)
  | .inlineTable entries => do
    let path := b.context ++ [name]
    let inside ← (b.markImplicit path).enter path inArray
    let (made, after) ← evalEntries inside [] entries
    return (.table made, { after with context := b.context })

def evalItems (b : Builder) (name : Bytes) : List Expr → Option (List Value × Builder)
  | [] => some ([], b)
  | item :: items => do
    let (v, b) ← item.eval b name true
    let (vs, b) ← evalItems b name items
    return (v :: vs, b)

/-- Carries out the entries of an inline table and collects what they make. -/
def evalEntries (b : Builder) (made : Table) : List (Key × Expr) → Option (Table × Builder)
  | [] => some (made, b)
  | (path, item) :: entries => do
    let name ← path.getLast?
    let inside ← b.enterDotted path.dropLast
    let (v, inside) ← item.eval inside name false
    let inside ← inside.setValue name v
    let made ← made.insertAt v path.dropLast name
    evalEntries { inside.markArray name item.isArray with context := b.context } made entries

end

def Statement.run (b : Builder) : Statement → Option Builder
  | .table path => do
    let b ← b.enter path false
    return b.markArray [] false
  | .element path => do
    let b ← b.enter path true
    return b.markArray [] false
  | .assign path item => do
    let name ← path.getLast?
    let inside ← b.enterDotted path.dropLast
    let (v, inside) ← item.eval inside name false
    let inside ← inside.setValue name v
    return { inside.markArray name item.isArray with context := b.context }

/-- The table that the whole document makes, if its statements go together. -/
def Document.table? (d : Document) : Option Table := do
  let b ← d.foldlM Statement.run {}
  return b.root

end StackStep.Toml
