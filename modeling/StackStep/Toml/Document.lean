import StackStep.Bytes

/-!
A settings document as it is written: a sequence of headers and assignments, before it is
known which tables they make.
-/

namespace StackStep.Toml

/-- The parts of a dotted key. -/
abbrev Key := List Bytes

/-- A value as it is written. Fractions, dates and times keep their text. -/
inductive Expr where
  | string (t : Bytes)
  | integer (n : Int64)
  | boolean (b : Bool)
  | float (literal : Bytes)
  | datetime (literal : Bytes)
  | array (items : List Expr)
  | inlineTable (entries : List (Key × Expr))
  deriving Repr

inductive Statement where
  /-- `[key]` -/
  | table (key : Key)
  /-- `[[key]]` -/
  | element (key : Key)
  | assign (key : Key) (value : Expr)
  deriving Repr

abbrev Document := List Statement

end StackStep.Toml
