import StackStep.Json.Basic

/-!
Writing JSON, on one line and without blanks. Characters that end a script element or a
line in other languages are written by code, so that the text can stand inside them.
-/

namespace StackStep.Json

def escapeChar (c : Char) : Bytes :=
  match c.toNat with
  | 0x22 => "\\\""
  | 0x5C => "\\\\"
  | 0x0A => "\\n"
  | 0x0D => "\\r"
  | 0x09 => "\\t"
  | n =>
    if n < 0x20 ∨ n = 0x3C ∨ n = 0x3E ∨ n = 0x26 ∨ n = 0x2028 ∨ n = 0x2029 then
      ("\\u" : Bytes) ++ Bytes.hex 4 n
    else Utf8.encode c

/-- A string between quotes. A stray byte becomes the replacement character. -/
def renderString (s : Bytes) : Bytes :=
  34 :: ((Utf8.pieces s).flatMap (fun
    | .char c => escapeChar c
    | .stray _ => Utf8.encode Utf8.replacement) ++ [34])

mutual

def render : Json → Bytes
  | .null => "null"
  | .bool b => Bytes.ofBool b
  | .number literal => literal
  | .string s => renderString s
  | .array items => 91 :: (renderItems items ++ [93])
  | .object fields => 123 :: (renderFields fields ++ [125])

def renderItems : List Json → Bytes
  | [] => []
  | [v] => render v
  | v :: rest => render v ++ 44 :: renderItems rest

def renderFields : List (Bytes × Json) → Bytes
  | [] => []
  | [(name, v)] => renderString name ++ 58 :: render v
  | (name, v) :: rest => renderString name ++ 58 :: render v ++ 44 :: renderFields rest

end

end StackStep.Json
