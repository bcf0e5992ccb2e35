import Rynmesh.ApiStream
import Rynmesh.ChatRequest

/-!
# Requests of two protocols

`normalize` of `llm_package/api_formats.py`: a request of the Responses or of the Messages
protocol becomes a chat request, which `validate_chat` then checks.

* `Responses.addItem` is one round of the loop over the input items: a call joins the calls of
  the message before it;
* `Messages.addMessage` is one round of the loop over the messages: tool results come first;
* `normalize` is the whole translation, on an object.

The chat protocol, which hands its fields on, is left out.  `json.dumps` is a parameter.
-/

namespace Api

open Checked

/-- The texts that the two readers of JSON need. -/
structure Codec extends Platform where
  dumps : Json → String

/-- What was read and is written can be read again. -/
def Codec.Faithful (p : Codec) : Prop :=
  ∀ text value, p.loads text = some value → p.loads (p.dumps value) = some value

/-- `value[k]` of an object. -/
def item (value : Json) (k : String) : Except String Json := do
  require "TypeError" (value.isObj = true)
  demand "KeyError" (value.get? k)

/-- `value in names`, for a set of texts. -/
def among (names : List String) (value : Json) : Except String Bool := do
  let key ← demand "TypeError" (hashKey value)
  return key ∈ names.map Key.text

/-- A field that is there. -/
def optional (k : String) (value : Option Json) : List (String × Json) :=
  (value.map fun v => (k, v)).toList

/-! ### Texts -/

def textPart (part : Json) : Except String String := do
  require "only text content is supported" (part.isObj = true)
  let known ← among ["text", "input_text", "output_text"] ((part.get? "type").getD .null)
  require "only text content is supported" (known = true)
  demand "only text content is supported" ((part.get? "text").bind Json.asStr?)

/-- `text_content`. -/
def textContent : Json → Except String String
  | .str text => .ok text
  | .arr parts => (parts.mapM textPart).map String.join
  | _ => .error "only text content is supported"

/-! ### Chat messages -/

def chatMessage (role content : Json) : Json := .object [("role", role), ("content", content)]

def systemMessage (body : Json) (k : String) : Except String (List Json) :=
  if given (body.get? k) then
    (textContent ((body.get? k).getD .null)).map fun text =>
      [chatMessage (.str "system") (.str text)]
  else .ok []

def chatCall (id name arguments : Json) : Json :=
  .object [("id", id), ("type", .str "function"),
    ("function", .object [("name", name), ("arguments", arguments)])]

def callsMessage (content : Json) (calls : List Json) : Json :=
  .object [("role", .str "assistant"), ("content", content), ("tool_calls", .arr calls)]

def toolMessage (id : Json) (text : String) : Json :=
  .object [("role", .str "tool"), ("tool_call_id", id), ("content", .str text)]

/-- The parameters that both protocols share. -/
def common : List String := ["model", "stream", "temperature", "top_p", "tools", "tool_choice"]

def checkKeys (body : Json) (more : List String) : Except String Unit :=
  require ("unsupported parameters: " ++
    ", ".intercalate (body.keys.filter fun k => k ∉ common ++ more))
    (∀ k ∈ body.keys, k ∈ common ++ more)

/-- The parameters that are handed on as they are. -/
def handedOn (body : Json) : List (String × Json) :=
  ["stream", "temperature", "top_p"].flatMap fun k => optional k (body.get? k)

/-! ### Responses -/

namespace Responses

def allowed : List String :=
  ["input", "instructions", "max_output_tokens", "store", "previous_response_id"]

/-- A call joins the calls of the last message, or makes a message. -/
def addCall (messages : List Json) (call : Json) : List Json :=
  match messages.getLast? with
  | some last =>
      match last.get? "tool_calls" with
      | some (.arr (first :: calls)) =>
          messages.dropLast ++ [last.assign "tool_calls" (.arr (first :: calls ++ [call]))]
      | _ => messages ++ [callsMessage .null [call]]
  | none => messages ++ [callsMessage .null [call]]

/-- One input item. -/
def addItem (p : Codec) (messages : List Json) (input : Json) : Except String (List Json) := do
  require "AttributeError" (input.isObj = true)
  let kind := (input.get? "type").getD (.str "message")
  if kind = .str "message" then do
    let role ← item input "role"
    let text ← textContent (← item input "content")
    return messages ++ [chatMessage role (.str text)]
  else if kind = .str "function_call" then do
    let id ← item input "call_id"
    let name ← item input "name"
    let arguments ← item input "arguments"
    return addCall messages (chatCall id name arguments)
  else if kind = .str "function_call_output" then do
    let id ← item input "call_id"
    let text ← textContent (← item input "output")
    return messages ++ [toolMessage id text]
  else .error ("unsupported Responses input item: " ++ p.str kind)

/-- A text stands for one message of the user. -/
def inputItems (body : Json) : Except String (List Json) :=
  match (body.get? "input").getD (.arr []) with
  | .str text => .ok [chatMessage (.str "user") (.str text)]
  | .arr items => .ok items
  | _ => .error "input must be text or an array"

def addTool (tool : Json) : Except String Json := do
  require "AttributeError" (tool.isObj = true)
  require "only client-executed function tools are supported"
    (tool.get? "type" = some (.str "function"))
  return .object [("type", .str "function"), ("function", tool.without "type")]

def tools (body : Json) : Except String (Option Json) :=
  match body.get? "tools" with
  | none => .ok none
  | some listed => do
      let items ← iterate listed
      return some (.arr (← items.mapM addTool))

/-- A choice that is an object names a function. -/
def choice (body : Json) : Option Json :=
  (body.get? "tool_choice").map fun value =>
    if value.isObj then
      .object [("type", .str "function"),
        ("function", .object [("name", (value.get? "name").getD .null)])]
    else value

def messages (p : Codec) (body : Json) : Except String (List Json) := do
  let system ← systemMessage body "instructions"
  let items ← inputItems body
  items.foldlM (addItem p) system

/-- The chat request. -/
def request (p : Codec) (body : Json) : Except String Json := do
  checkKeys body allowed
  require "Responses is stateless: use store=false and send conversation history in input"
    (given (body.get? "store") = false ∧ given (body.get? "previous_response_id") = false)
  let messages ← messages p body
  let tools ← tools body
  return .object (("messages", .arr messages) ::
    ("max_tokens", (body.get? "max_output_tokens").getD (.int 512)) ::
    (handedOn body ++ optional "tools" tools ++ optional "tool_choice" (choice body)))

end Responses

/-! ### Messages -/

namespace Messages

def allowed : List String := ["messages", "system", "max_tokens", "stop_sequences"]

/-- The texts, the calls and the results of a message. -/
structure Read where
  texts : List Json
  calls : List Json
  results : List Json

def addBlock (p : Codec) (role : Json) (read : Read) (block : Json) : Except String Read := do
  let kind ← item block "type"
  if kind = .str "text" then do
    return { read with texts := read.texts ++ [← item block "text"] }
  else if kind = .str "tool_use" ∧ role = .str "assistant" then do
    let id ← item block "id"
    let name ← item block "name"
    let input ← item block "input"
    return { read with calls := read.calls ++ [chatCall id name (.str (p.dumps input))] }
  else if kind = .str "tool_result" ∧ role = .str "user" then do
    let text ← textContent ((block.get? "content").getD (.str ""))
    let id ← item block "tool_use_id"
    let mark := if given (block.get? "is_error") then "Tool error: " else ""
    return { read with results := read.results ++ [toolMessage id (mark ++ text)] }
  else .error "unsupported Messages content block"

/-- `"".join(texts) or None`. -/
def joinTexts (texts : List Json) : Except String Json := do
  let texts ← demand "TypeError" (texts.mapM Json.asStr?)
  return if String.join texts = "" then .null else .str (String.join texts)

/-- The results of a message, and the rest of it as one message. -/
def Read.messages (role : Json) (read : Read) : Except String (List Json) :=
  if read.texts = [] ∧ read.calls = [] then .ok read.results
  else do
    let content ← joinTexts read.texts
    return read.results ++ [if read.calls = [] then chatMessage role content
      else .object [("role", role), ("content", content), ("tool_calls", .arr read.calls)]]

/-- One message. -/
def addMessage (p : Codec) (messages : List Json) (message : Json) : Except String (List Json) := do
  let role := (← get message "role").getD .null
  let known ← among ["user", "assistant"] role
  require "invalid Messages role" (known = true)
  match (message.get? "content").getD .null with
  | .str text => return messages ++ [chatMessage role (.str text)]
  | content => do
      let blocks ← iterate content
      let read ← blocks.foldlM (addBlock p role) ⟨[], [], []⟩
      return messages ++ (← read.messages role)

def addTool (tool : Json) : Except String Json := do
  let name ← item tool "name"
  let schema ← item tool "input_schema"
  return .object [("type", .str "function"), ("function", .object [("name", name),
    ("description", (tool.get? "description").getD (.str "")), ("parameters", schema)])]

def tools (body : Json) : Except String (Option Json) :=
  match body.get? "tools" with
  | none => .ok none
  | some listed => do
      let items ← iterate listed
      return some (.arr (← items.mapM addTool))

/-- A choice with a kind that both sides have. -/
def choiceOf (value : Json) : Except String Json := do
  let parallel ← get value "disable_parallel_tool_use"
  require "disable_parallel_tool_use is not supported" (given parallel = false)
  let kind := (value.get? "type").getD .null
  let known ← among ["auto", "none", "any", "tool"] kind
  require "invalid tool_choice" (known = true)
  if kind = .str "tool" then do
    let name ← item value "name"
    return .object [("type", .str "function"), ("function", .object [("name", name)])]
  else return if kind = .str "any" then .str "required" else kind

def choice (body : Json) : Except String (Option Json) :=
  match body.get? "tool_choice" with
  | none => .ok none
  | some value => (choiceOf value).map some

def messages (p : Codec) (body : Json) : Except String (List Json) := do
  let system ← systemMessage body "system"
  let items ← iterate ((body.get? "messages").getD (.arr []))
  items.foldlM (addMessage p) system

/-- The chat request. -/
def request (p : Codec) (body : Json) : Except String Json := do
  checkKeys body allowed
  let tokens ← item body "max_tokens"
  let messages ← messages p body
  let tools ← tools body
  let choice ← choice body
  return .object (("messages", .arr messages) :: ("max_tokens", tokens) ::
    (handedOn body ++ optional "stop" (body.get? "stop_sequences") ++ optional "tools" tools ++
      optional "tool_choice" choice))

end Messages

/-! ### Both -/

def faultText : Chat.Fault → String
  | .valueError message => message
  | .typeError => "TypeError"
  | .attributeError => "AttributeError"
  | .overflowError => "OverflowError"

def request (p : Codec) (protocol : Protocol) (body : Json) : Except String Json :=
  match protocol with
  | .responses => Responses.request p body
  | .messages => Messages.request p body

/-- `normalize`; `checkSchema` is whether `check_schema` returns. -/
def normalize (p : Codec) (checkSchema : Json → Bool) (protocol : Protocol) (body : Json) :
    Except String Json := do
  let chat ← request p protocol body
  (Chat.validateChat checkSchema chat).mapError faultText

end Api
