import StackStep.Dict
import StackStep.Editor.Help
import StackStep.Editor.Request
import StackStep.Log

/-!
The editor service: what it knows, and how it answers. It keeps the whole text of every
open document. Before it is started, and after it has been shut down, it refuses everything
but being started, and it then has no documents.
-/

namespace StackStep.Editor

structure Service where
  registry : Registry
  name : Bytes
  started : Bool := false
  documents : Dict Bytes := {}

inductive Answer where
  /-- Nothing to say. -/
  | nothing
  /-- What the service of the given name can do. -/
  | abilities (name : Bytes)
  | completions (items : List Completion)
  | explanation (markdown : Bytes)
  deriving DecidableEq, Repr

namespace Service

def defaultName : Bytes := "dbn-lsp"

def version : Bytes := "0.1.0"

/-- A service that has not been started. An empty name stands for the default one. -/
def create (registry : Registry) (name : Bytes) : Service where
  registry := registry
  name := if name = [] then defaultName else name

/-- The offers at a place in a document. -/
def completions (s : Service) (uri : Bytes) (p : Position) : Answer :=
  match s.documents.find? uri with
  | none => .nothing
  | some text =>
    let fragment := fragmentAt text p
    if fragment = [] then .nothing
    else
      match complete s.registry fragment with
      | [] => .nothing
      | items => .completions items

/-- The explanation of the word at a place in a document. -/
def explanation (s : Service) (uri : Bytes) (p : Position) : Answer :=
  match s.documents.find? uri with
  | none => .nothing
  | some text =>
    let word := wordAt text p
    if word = [] then .nothing
    else
      match hover s.registry word with
      | none => .nothing
      | some markdown => .explanation markdown

/-- The documents after a change. Only the last part of a change counts, and only if it is
the whole text. -/
def changed (documents : Dict Bytes) (uri : Bytes) (changes : List Change) : Dict Bytes :=
  match changes.getLast? with
  | some (.whole text) => documents.insert uri text
  | _ => documents

/-- Answers a request that has been read. -/
def answer (s : Service) : Request → Answer × Service
  | .start => (.abilities s.name, { s with started := true })
  | .started => (.nothing, s)
  | .shutdown => (.nothing, { s with started := false, documents := {} })
  | .setTrace => (.nothing, s)
  | .didOpen uri text => (.nothing, { s with documents := s.documents.insert uri text })
  | .didChange uri changes => (.nothing, { s with documents := changed s.documents uri changes })
  | .didClose uri => (.nothing, { s with documents := s.documents.erase uri })
  | .completion uri p => (s.completions uri p, s)
  | .hover uri p => (s.explanation uri p, s)

/-- Whether a method may be called now. -/
def admits (s : Service) (method : Bytes) : Bool :=
  s.started || method = Bytes.ofString "initialize"

/-- Answers a request as it comes, or refuses it and stays as it is. -/
def handle (s : Service) (method : Bytes) (params : Option Json) :
    Except Refusal Answer × Service :=
  if s.admits method then
    match Request.read method params with
    | .ok request => (.ok (s.answer request).1, (s.answer request).2)
    | .error refusal => (.error refusal, s)
  else (.error .notStarted, s)

/-- The lines that a request leaves in the log. -/
def log (s : Service) (method : Bytes) (params : Option Json) : List Log.Line :=
  match Request.read method params with
  | .ok .start => [⟨.info, "dbn.lsp", s.name ++ (" initializing" : Bytes)⟩]
  | _ => []

end Service

/-! ### Answers in JSON -/

def record (fields : List (String × Json)) : Json :=
  .object (fields.map fun f => (Bytes.ofString f.1, f.2))

def Completion.toJson (c : Completion) : Json :=
  record [("label", .string c.label), ("kind", .ofNat 14), ("detail", .string c.detail),
    ("documentation", .string c.documentation)]

def explanationJson (markdown : Bytes) : Json :=
  record [("contents", record [("kind", .string "markdown"), ("value", .string markdown)])]

def abilitiesJson (name : Bytes) : Json :=
  record
    [("capabilities", record
      [("textDocumentSync", record [("openClose", .bool true), ("change", .ofNat 1)]),
        ("completionProvider", record []), ("hoverProvider", .bool true)]),
      ("serverInfo", record [("name", .string name), ("version", .string Service.version)])]

def Answer.toJson : Answer → Json
  | .nothing => .null
  | .abilities name => abilitiesJson name
  | .completions items => .array (items.map Completion.toJson)
  | .explanation markdown => explanationJson markdown

end StackStep.Editor
