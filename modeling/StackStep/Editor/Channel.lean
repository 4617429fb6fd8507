import StackStep.Editor.Service
import StackStep.Json.Printer

/-!
The service behind a stream of messages. A message that carries an identifier is a request
and gets exactly one response, any other is a notification and gets none. The message
`exit` closes the channel, and so does one that is no request at all.
-/

namespace StackStep.Editor

structure Channel where
  service : Service
  closed : Bool := false

/-- A message that asks for something. -/
structure Message where
  /-- The identifier to be given back, if an answer is wanted. -/
  id : Option Json
  method : Bytes
  params : Option Json

/-- An identifier is a number or a text. -/
def Message.isId : Json → Bool
  | .number _ => true
  | .string _ => true
  | _ => false

def Message.ofJson? (j : Json) : Option Message := do
  let method ← match j.field? "method" with
    | some (.string t) => some t
    | _ => none
  let id ← match j.field? "id" with
    | none | some .null => some none
    | some id => if Message.isId id then some (some id) else none
  return { id, method, params := j.field? "params" }

/-- The number and the text of an error. The text about parameters is not specified. -/
def Refusal.error (method : Bytes) : Refusal → Int × Bytes
  | .methodNotFound => (-32601, ("method not supported: " : Bytes) ++ method)
  | .invalidParams => (-32602, "invalid parameters")
  | .notStarted => (-32600, "server not initialized")

def response (id : Json) (outcome : String × Json) : Json :=
  record [("jsonrpc", .string "2.0"), ("id", id), outcome]

/-- The response to a request. -/
def respond (id : Json) (method : Bytes) : Except Refusal Answer → Json
  | .ok answer => response id ("result", answer.toJson)
  | .error refusal =>
    let (code, message) := refusal.error method
    response id ("error", record [("code", .ofInt code), ("message", .string message)])

namespace Channel

/-- Takes one message, and gives the response if there is one. -/
def receive (c : Channel) (j : Json) : Option Json × Channel :=
  if c.closed then (none, c)
  else
    match Message.ofJson? j with
    | none => (none, { c with closed := true })
    | some message =>
      if message.method = Bytes.ofString "exit" then (none, { c with closed := true })
      else
        let (result, service) := c.service.handle message.method message.params
        (message.id.map fun id => respond id message.method result, { c with service })

/-- The responses to a sequence of messages. -/
def receiveAll (c : Channel) : List Json → List Json
  | [] => []
  | j :: rest =>
    let (reply, c) := c.receive j
    reply.toList ++ receiveAll c rest

end Channel

/-- A message with its length in front. -/
def frame (j : Json) : Bytes :=
  let body := j.render
  ("Content-Length: " : Bytes) ++ Bytes.ofNat body.length ++ ("\r\n\r\n" : Bytes) ++ body

end StackStep.Editor
