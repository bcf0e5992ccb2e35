import Rynmesh.CheckedComputation
import Rynmesh.JsonFields

/-!
# Chat requests

`llm_package/chat.py`: the checks of a chat request before it reaches a model
runtime or another node.

* `checkMessage` is one round of the loop over the messages, with the ids of the
  tool calls that wait for their results;
* `validateToolSchema` is the search through a tool's parameters;
* `validateChat` is the whole check, and the request as it is passed on.

A check that runs into a value of a type it did not expect raises what Python
raises there (`Fault`).  `Draft202012Validator.check_schema` is a parameter.  The
fields of an object are in key order, so which of two forbidden parts of a tool
schema is met first is not told.
-/

namespace Chat

open Checked

/-- What a call raises. -/
inductive Fault
  | valueError (message : String)
  | typeError
  | attributeError
  | overflowError
  deriving DecidableEq

/-! ### Python on values of any type -/

/-- `value.get(k)` of an object. -/
def field (value : Json) (k : String) : Json := (value.get? k).getD .null

/-- Lists and objects are not hashable. -/
def hashable : Json → Bool
  | .arr _ | .obj _ => false
  | _ => true

/-- `value in names`, for a set of strings. -/
def isIn (names : List String) (value : Json) : Except Fault Bool :=
  match value with
  | .str s => .ok (s ∈ names)
  | .arr _ | .obj _ => .error .typeError
  | _ => .ok false

/-- `value[k] = v`. -/
def put (value : Json) (k : String) (v : Json) : Json :=
  if (value.get? k).isSome then value.assign k v else value.withField k v

def refuse {α : Type} (message : String) : Except Fault α := .error (.valueError message)

mutual

/-- The separators of a text, each of them followed by a space. -/
def separators : Json → Nat
  | .arr items => separatorsItems items + (items.length - 1)
  | .obj fields => separatorsFields fields + fields.length + (fields.length - 1)
  | _ => 0
termination_by structural value => value

def separatorsItems : List Json → Nat
  | [] => 0
  | item :: rest => separators item + separatorsItems rest
termination_by structural items => items

def separatorsFields : List (String × Json) → Nat
  | [] => 0
  | f :: rest => separatorsField f + separatorsFields rest
termination_by structural fields => fields

def separatorsField : String × Json → Nat
  | (_, v) => separators v
termination_by structural f => f

end

/-- `len(json.dumps(value, ensure_ascii=False).encode())`. -/
def dumpSize (value : Json) : Nat := value.size + separators value

/-! ### Options -/

def allowed : List String :=
  ["messages", "max_tokens", "temperature", "top_p", "stop", "tools", "tool_choice", "stream",
    "enable_thinking", "chat_template_kwargs"]

/-- `type(a) is type(b)`. -/
def sameType : Json → Json → Bool
  | .null, .null | .bool _, .bool _ | .int _, .int _ | .float _ _, .float _ _ | .str _, .str _
  | .arr _, .arr _ | .obj _, .obj _ => true
  | _, _ => false

/-- `chat_template_kwargs` becomes `enable_thinking`. -/
def mergeOptions (body : Json) : Except Fault Json :=
  match body.get? "chat_template_kwargs" with
  | none => .ok body
  | some options => do
      require (.valueError "only enable_thinking is supported in chat_template_kwargs")
        (options.isObj = true ∧ ∀ k ∈ options.keys, k = "enable_thinking")
      match options.get? "enable_thinking" with
      | none => return body.without "chat_template_kwargs"
      | some thinking => do
          require (.valueError "conflicting enable_thinking values")
            (∀ own, body.get? "enable_thinking" = some own →
              sameType own thinking = true ∧ own.pyEq thinking = true)
          return put (body.without "chat_template_kwargs") "enable_thinking" thinking

/-- The checks before the messages. -/
def openRequest (value : Json) : Except Fault Json := do
  require (.valueError ("unsupported chat parameters: " ++
    ", ".intercalate (value.keys.filter fun k => k ∉ allowed))) (∀ k ∈ value.keys, k ∈ allowed)
  let body ← mergeOptions value
  require (.valueError "enable_thinking must be boolean")
    (∀ thinking, body.get? "enable_thinking" = some thinking → thinking.asBool?.isSome = true)
  return body

/-! ### Messages -/

def roles : List String := ["system", "developer", "user", "assistant", "tool"]

def messageFields : List String :=
  ["role", "content", "tool_calls", "tool_call_id", "name", "reasoning_content"]

def checkRole (message : Json) : Except Fault Unit :=
  if message.isObj then do
    let known ← isIn roles (field message "role")
    require (.valueError "invalid message role") (known = true)
  else refuse "invalid message role"

def isText : Json → Bool
  | .null | .str _ => true
  | _ => false

def reasoningOk (message : Json) : Bool :=
  match message.get? "reasoning_content" with
  | none => true
  | some text => field message "role" = .str "assistant" && isText text

/-- The text of a part of type `text`. -/
def partText (part : Json) : Option String :=
  if part.isObj && field part "type" = .str "text" then (field part "text").asStr? else none

/-- A list of text parts becomes one text. -/
def checkContent (message : Json) : Except Fault Json :=
  match field message "content" with
  | .arr parts =>
      match parts.mapM partText with
      | some texts => .ok (message.assign "content" (.str (String.join texts)))
      | none => refuse "only text content is supported"
  | .null | .str _ => .ok message
  | _ => refuse "message content must be text"

/-- A tool message answers a call that waits; no other message comes while one waits. -/
def checkAnswer (pending : List String) (message : Json) : Except Fault (List String) :=
  if field message "role" = .str "tool" then do
    let known ← isIn pending (field message "tool_call_id")
    require (.valueError "tool result must reference a pending tool call") (known = true)
    return pending.erase ((field message "tool_call_id").asStr?.getD "")
  else do
    require (.valueError "all tool results must precede the next message") (pending = [])
    return pending

/-- The id of a tool call with everything that one needs. -/
def callId (call : Json) : Option String :=
  let function := (call.get? "function").getD (.obj [])
  if call.isObj && function.isObj && field call "type" = .str "function" &&
      (field function "name").truthy && (field function "arguments").asStr?.isSome then
    (field call "id").asStr?.filter fun id => id ≠ ""
  else none

def addCall (pending : List String) (call : Json) : Except Fault (List String) := do
  let id ← demand (.valueError "invalid tool call") (callId call)
  require (.valueError "duplicate tool call id") (id ∉ pending)
  return pending ++ [id]

/-- `message.get("tool_calls", [])`. -/
def callsOf (message : Json) : Json := (message.get? "tool_calls").getD (.arr [])

/-- The loop over the calls; an empty text or object has no items, and nothing else that is
false can be iterated. -/
def checkCalls (pending : List String) (message : Json) : Except Fault (List String) := do
  require (.valueError "tool_calls require an assistant message")
    ((callsOf message).truthy = true →
      field message "role" = .str "assistant" ∧ (callsOf message).asArr?.isSome = true)
  match callsOf message with
  | .arr calls => calls.foldlM addCall pending
  | .str _ | .obj _ => .ok pending
  | _ => .error .typeError

/-- One message, with the ids that wait for results before it. -/
def checkMessage (pending : List String) (message : Json) : Except Fault (Json × List String) := do
  checkRole message
  require (.valueError "unsupported message fields") (∀ k ∈ message.keys, k ∈ messageFields)
  require (.valueError "reasoning_content must be assistant text") (reasoningOk message = true)
  let message ← checkContent message
  let answered ← checkAnswer pending message
  let asked ← checkCalls answered message
  return (message, asked)

def checkMessages : List String → List Json → Except Fault (List Json × List String)
  | pending, [] => .ok ([], pending)
  | pending, message :: rest => do
      let checked ← checkMessage pending message
      let others ← checkMessages checked.2 rest
      return (checked.1 :: others.1, others.2)

/-- The messages of a request, one at least. -/
def messagesOf (body : Json) : Option (List Json) :=
  match body.get? "messages" with
  | some (.arr messages) => if messages = [] then none else some messages
  | _ => none

def checkConversation (body : Json) : Except Fault Json := do
  let messages ← demand (.valueError "messages must be a non-empty array") (messagesOf body)
  let checked ← checkMessages [] messages
  require (.valueError "missing tool results") (checked.2 = [])
  return body.assign "messages" (.arr checked.1)

/-! ### Numbers -/

/-- `body.get("max_tokens", 512)`. -/
def tokensOf (body : Json) : Json := (body.get? "max_tokens").getD (.int 512)

/-- The integers from which on `float` raises `OverflowError`: these round to `2 ^ 1024`. -/
def floatOverflow : Nat := 2 ^ 1024 - 2 ^ 970

def checkSampling (body : Json) (key : String) (limit : Rat) : Except Fault Unit :=
  match body.get? key with
  | none => .ok ()
  | some (.int n) =>
      if floatOverflow ≤ n.natAbs then .error .overflowError
      else require (.valueError ("invalid " ++ key)) (0 ≤ n ∧ (n : Rat) ≤ limit)
  | some (.float value _) =>
      require (.valueError ("invalid " ++ key)) (value.any (fun x => 0 ≤ x && x ≤ limit) = true)
  | some _ => refuse ("invalid " ++ key)

/-- A text or up to four texts. -/
def stopOk : Json → Bool
  | .null | .str _ => true
  | .arr items => items.length ≤ 4 && items.all fun item => item.asStr?.isSome
  | _ => false

def checkLimits (body : Json) : Except Fault Json := do
  require (.valueError "max_tokens must be a positive integer <= 131072")
    ((tokensOf body).asInt?.any (fun n => 1 ≤ n && n ≤ 131072) = true)
  require (.valueError "stream must be boolean")
    (((body.get? "stream").getD (.bool false)).asBool?.isSome = true)
  checkSampling body "temperature" 2
  checkSampling body "top_p" 1
  require (.valueError "stop must be text or up to four strings")
    (((body.get? "stop").getD .null |> stopOk) = true)
  return put body "max_tokens" (tokensOf body)

/-! ### Tools -/

/-- One part of a schema and the parts inside, one level deeper. -/
def schemaParts (value : Json) (depth : Nat) : Except Fault (List (Json × Nat)) :=
  match value with
  | .obj fields => do
      require (.valueError "external tool schema references are disabled")
        (∀ f ∈ fields, f.1 = "$ref" ∨ f.1 = "$dynamicRef" →
          f.2.asStr?.any (fun target => "#".toList.isPrefixOf target.toList) = true)
      return (fields.map fun f => (f.2, depth + 1)).reverse
  | .arr items => .ok (items.map fun item => (item, depth + 1)).reverse
  | _ => .ok []

/-- The search with a stack; `nodes` parts may still be looked at. -/
def searchSchema : Nat → List (Json × Nat) → Except Fault Unit
  | _, [] => .ok ()
  | 0, _ :: _ => refuse "tool schema complexity limit exceeded"
  | nodes + 1, (value, depth) :: pending => do
      require (.valueError "tool schema complexity limit exceeded") (depth ≤ 32)
      let parts ← schemaParts value depth
      searchSchema nodes (parts ++ pending)

/-- `validate_tool_schema`; `checkSchema` is whether `check_schema` returns. -/
def validateToolSchema (checkSchema : Json → Bool) (schema : Json) : Except Fault Unit := do
  searchSchema 4096 [(schema, 0)]
  require (.valueError "invalid tool parameter schema") (checkSchema schema = true)

/-- The function of a tool, and its name. -/
def toolFunction (tool : Json) : Option (Json × String) :=
  let function := (tool.get? "function").getD (.obj [])
  if tool.isObj && field tool "type" = .str "function" && function.isObj then
    (field function "name").asStr?.map fun name => (function, name)
  else none

/-- `[A-Za-z0-9_-]{1,64}`. -/
def isToolName (name : String) : Bool :=
  0 < name.length && name.length ≤ 64 &&
    name.toList.all fun c => c.isAlphanum || c = '_' || c = '-'

def checkTool (checkSchema : Json → Bool) (names : List String) (tool : Json) :
    Except Fault (List String) := do
  let function ← demand (.valueError "only named function tools are supported")
    (toolFunction tool)
  require (.valueError "invalid or duplicate tool name")
    (isToolName function.2 = true ∧ function.2 ∉ names)
  require (.valueError "tool parameters must be a JSON schema object")
    (((function.1.get? "parameters").getD (.obj [])).isObj = true)
  validateToolSchema checkSchema ((function.1.get? "parameters").getD (.obj []))
  require (.valueError "strict must be boolean")
    (((function.1.get? "strict").getD (.bool false)).asBool?.isSome = true)
  return names ++ [function.2]

/-- `body.get("tools", [])`, a list of at most 128. -/
def toolsOf (body : Json) : Option (List Json) :=
  ((body.get? "tools").getD (.arr [])).asArr?.filter fun tools => tools.length ≤ 128

/-- `body.get("tool_choice", "auto")`. -/
def choiceOf (body : Json) : Json := (body.get? "tool_choice").getD (.str "auto")

def checkChoice (names : List String) (choice : Json) : Except Fault Unit :=
  match choice with
  | .obj fields => do
      require (.valueError "unknown tool_choice function")
        (field (.obj fields) "type" = .str "function")
      match ((Json.obj fields).get? "function").getD (.obj []) with
      | .obj function => do
          let known ← isIn names (field (.obj function) "name")
          require (.valueError "unknown tool_choice function") (known = true)
      | _ => .error .attributeError
  | .str s => require (.valueError "invalid tool_choice") (s ∈ ["auto", "none", "required"])
  | _ => refuse "invalid tool_choice"

def checkTools (checkSchema : Json → Bool) (body : Json) : Except Fault Unit := do
  let tools ← demand (.valueError "invalid tools") (toolsOf body)
  let names ← tools.foldlM (checkTool checkSchema) []
  checkChoice names (choiceOf body)
  require (.valueError "tool_choice requires tools")
    (choiceOf body ≠ .str "auto" → choiceOf body ≠ .str "none" → tools ≠ [])

/-! ### Requests -/

/-- `validate_chat`, on an object. -/
def validateChat (checkSchema : Json → Bool) (value : Json) : Except Fault Json := do
  let opened ← openRequest value
  let conversed ← checkConversation opened
  let body ← checkLimits conversed
  checkTools checkSchema body
  require (.valueError "chat exceeds 1 MiB") (dumpSize body ≤ 1024 * 1024)
  return body

end Chat
