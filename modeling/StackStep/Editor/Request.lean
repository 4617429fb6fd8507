import StackStep.Editor.Capabilities
import StackStep.Editor.Word

/-!
What a client can ask of the service. A request comes as the name of a method and
parameters in JSON, and is checked against the shape of the method's parameters before
anything is read from them. Parameters that are null are all left out, parameters that are
missing are refused, unless the method has none.
-/

namespace StackStep.Editor

open Json (Shape)

/-- A change of a document: the whole new text, or a part that is not given. -/
inductive Change where
  | whole (text : Bytes)
  | part
  deriving DecidableEq, Repr

inductive Request where
  | start
  | started
  | shutdown
  | setTrace
  | didOpen (uri text : Bytes)
  | didChange (uri : Bytes) (changes : List Change)
  | didClose (uri : Bytes)
  | completion (uri : Bytes) (position : Position)
  | hover (uri : Bytes) (position : Position)
  deriving DecidableEq, Repr

/-- Why a request is refused. -/
inductive Refusal where
  | notStarted
  | methodNotFound
  | invalidParams
  deriving DecidableEq, Repr

/-! ### Shapes of parameters -/

/-- What names a piece of work in progress. -/
def token : Shape := .either .int32 .string

def position : Shape := .record [("line", .uint32), ("character", .uint32)]

def range : Shape := .record [("start", position), ("end", position)]

def document : Shape := .record [("uri", .string)]

def startParams : Shape :=
  .record
    [("workDoneToken", token), ("processId", .int32),
      ("clientInfo", .record [("name", .string), ("version", .string)]),
      ("locale", .string), ("rootPath", .string), ("rootUri", .string),
      ("initializationOptions", .any), ("capabilities", clientCapabilities),
      ("trace", .string),
      ("workspaceFolders", .list (.record [("uri", .string), ("name", .string)]))]

def didOpenParams : Shape :=
  .record [("textDocument", .record
    [("uri", .string), ("languageId", .string), ("version", .int32), ("text", .string)])]

def change : Shape :=
  .record [("range", range), ("rangeLength", .uint32), ("text", .string)]

def didChangeParams : Shape :=
  .record [("textDocument", .record [("uri", .string), ("version", .int32)]),
    ("contentChanges", .list change)]

def hoverParams : Shape :=
  .record [("textDocument", document), ("position", position), ("workDoneToken", token)]

def completionParams : Shape :=
  .record
    [("textDocument", document), ("position", position), ("workDoneToken", token),
      ("partialResultToken", token),
      ("context", .record [("triggerKind", .int32), ("triggerCharacter", .string)])]

/-! ### Reading -/

def uriOf (params : Json) : Bytes := (params.recordAt "textDocument").textAt "uri"

def positionOf (params : Json) : Position :=
  let p := params.recordAt "position"
  { line := p.uint32At "line", character := p.uint32At "character" }

/-- A change with a range is a part, any other is the whole text. -/
def changeOf (j : Json) : Change :=
  if j.isGiven "range" then .part else .whole (j.textAt "text")

/-- Reads parameters of the right shape. -/
def withParams (shape : Shape) (params : Option Json) (read : Json → Request) :
    Except Refusal Request :=
  match params with
  | some j => if j.fits shape then .ok (read j) else .error .invalidParams
  | none => .error .invalidParams

def Request.read (method : Bytes) (params : Option Json) : Except Refusal Request :=
  if method = Bytes.ofString "initialize" then withParams startParams params fun _ => .start
  else if method = Bytes.ofString "initialized" then
    withParams (.record []) params fun _ => .started
  else if method = Bytes.ofString "shutdown" then .ok .shutdown
  else if method = Bytes.ofString "$/setTrace" then
    withParams (.record [("value", .string)]) params fun _ => .setTrace
  else if method = Bytes.ofString "textDocument/didOpen" then
    withParams didOpenParams params fun j =>
      .didOpen (uriOf j) ((j.recordAt "textDocument").textAt "text")
  else if method = Bytes.ofString "textDocument/didChange" then
    withParams didChangeParams params fun j =>
      .didChange (uriOf j) ((j.listAt "contentChanges").map changeOf)
  else if method = Bytes.ofString "textDocument/didClose" then
    withParams (.record [("textDocument", document)]) params fun j => .didClose (uriOf j)
  else if method = Bytes.ofString "textDocument/completion" then
    withParams completionParams params fun j => .completion (uriOf j) (positionOf j)
  else if method = Bytes.ofString "textDocument/hover" then
    withParams hoverParams params fun j => .hover (uriOf j) (positionOf j)
  else .error .methodNotFound

end StackStep.Editor
