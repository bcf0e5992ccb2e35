import Rynmesh.CheckedComputation
import Rynmesh.JsonValue

/-!
# Streamed answers

`llm_package/api_formats.py` and `ChatAccumulator` of `llm_package/chat.py`: the chunks of an
upstream chat are read twice.

* `Accumulator` joins them to one message, and `convertMessages` and `convertResponses` write
  the whole answer in the form of the two other protocols;
* `StreamFormat` sends each chunk on as events, which open, extend and close numbered blocks.

A chunk is any JSON object.  An event holds what the source writes in it; the constant fields
are left out, and so is the chat protocol, whose chunks pass as they are.
-/

namespace Api

open Checked

structure Platform where
  /-- `str` of a JSON value. -/
  str : Json → String
  /-- `json.loads`, none where it raises. -/
  loads : String → Option Json

/-! ### Python on values of any type -/

/-- `value.get(k)`. -/
def get (value : Json) (k : String) : Except String (Option Json) := do
  require "AttributeError" (value.isObj = true)
  return value.get? k

/-- What a `for` goes through. -/
def iterate : Json → Except String (List Json)
  | .arr items => .ok items
  | .obj fields => .ok (fields.map fun f => .str f.1)
  | .str text => .ok (text.toList.map fun c => .str (String.singleton c))
  | _ => .error "TypeError"

def given (value : Option Json) : Bool := value.any Json.truthy

/-- `value or other`. -/
def orElse (value : Option Json) (other : Json) : Json :=
  if given value then value.getD other else other

/-- `value or ""`, which is added to a text. -/
def textOf (value : Option Json) : Except String String :=
  if given value then demand "TypeError" (value.bind Json.asStr?) else .ok ""

/-- The keys of a dictionary that are equal in Python; a parsed NaN is one object. -/
inductive Key
  | null
  | number (value : Rat)
  | special (text : String)
  | text (value : String)
  deriving DecidableEq

/-- Lists and objects are not hashable. -/
def hashKey : Json → Option Key
  | .null => some .null
  | .bool b => some (.number (if b then 1 else 0))
  | .int n => some (.number n)
  | .float (some q) _ => some (.number q)
  | .float none text => some (.special text)
  | .str s => some (.text s)
  | _ => none

def Key.isNumber : Key → Bool
  | .number _ | .special _ => true
  | _ => false

def Key.isText : Key → Bool
  | .text _ => true
  | _ => false

/-- `a < b` of two numbers or two texts. -/
def Key.lt : Key → Key → Bool
  | .number a, .number b => a < b
  | .text a, .text b => a < b
  | .special a, .special b => a = "-Infinity" ∧ b = "Infinity"
  | .special a, .number _ => a = "-Infinity"
  | .number _, .special b => b = "Infinity"
  | _, _ => false

/-- `sorted`. -/
def sortKeys (keys : List Key) : Except String (List Key) := do
  require "TypeError" (keys.length ≤ 1 ∨ (∀ k ∈ keys, k.isNumber = true) ∨
    ∀ k ∈ keys, k.isText = true)
  return keys.insertionSort fun a b => b.lt a = false

/-! ### The whole message -/

/-- A fragment of a tool call, as it is read. -/
structure Fragment where
  index : Json
  id : Option Json
  name : Option Json
  arguments : Option Json

def readFragment (item : Json) : Except String Fragment := do
  require "TypeError" (item.isObj = true)
  let index ← demand "KeyError" (item.get? "index")
  let function := (item.get? "function").getD (.obj [])
  return ⟨index, item.get? "id", ← get function "name", ← get function "arguments"⟩

/-- A tool call of a message. -/
structure Call where
  id : Json
  name : String
  arguments : String

structure Accumulator where
  text : String
  reasoning : String
  calls : Dict Key Call
  usage : Json
  finishReason : Json
  finished : Bool

def Accumulator.empty : Accumulator := ⟨"", "", .empty, .obj [], .str "stop", false⟩

def Accumulator.addCall (a : Accumulator) (item : Json) : Except String Accumulator := do
  let fragment ← readFragment item
  let key ← demand "TypeError" (hashKey fragment.index)
  let old := (a.calls.get? key).getD ⟨.str "", "", ""⟩
  let name ← textOf fragment.name
  let arguments ← textOf fragment.arguments
  let call : Call :=
    ⟨orElse fragment.id old.id, old.name ++ name, old.arguments ++ arguments⟩
  return { a with calls := a.calls.set key call }

def Accumulator.addChoice (a : Accumulator) (choice : Json) : Except String Accumulator := do
  let index ← get choice "index"
  require "only one completion is supported" ((index.getD (.int 0)).pyEq (.int 0) = true)
  let delta := (choice.get? "delta").getD (.obj [])
  let text ← textOf (← get delta "content")
  let reasoning ← textOf (delta.get? "reasoning_content")
  let items ← iterate (orElse (delta.get? "tool_calls") (.arr []))
  let a ← items.foldlM Accumulator.addCall
    { a with text := a.text ++ text, reasoning := a.reasoning ++ reasoning }
  return if given (choice.get? "finish_reason") then
      { a with finishReason := orElse (choice.get? "finish_reason") a.finishReason,
               finished := true }
    else a

/-- `ChatAccumulator.add`. -/
def Accumulator.add (a : Accumulator) (chunk : Json) : Except String Accumulator := do
  let usage ← get chunk "usage"
  let choices ← iterate ((chunk.get? "choices").getD (.arr []))
  choices.foldlM Accumulator.addChoice { a with usage := orElse usage a.usage }

/-- The assistant's message; a text that is blank is null, and no calls are no field. -/
structure Message where
  content : String
  reasoning : String
  calls : List Call

/-- `ChatAccumulator.message`. -/
def Accumulator.message (a : Accumulator) : Except String Message := do
  let keys ← sortKeys a.calls.keys
  return ⟨a.text, a.reasoning, keys.filterMap a.calls.get?⟩

structure Completion where
  id : String
  created : Int
  model : String
  message : Message
  finishReason : Json
  promptTokens : Int
  completionTokens : Int

/-- `completion` of a result with a message. -/
def completion (message : Message) (finishReason : Json) (inputTokens outputTokens : Int)
    (created : Int) (model requestId : String) : Completion :=
  ⟨"chatcmpl-" ++ requestId, created, model, message, finishReason, inputTokens, outputTokens⟩

/-! ### The whole answer -/

/-- A content block of a Messages answer. -/
inductive Content
  | text (text : String)
  | toolUse (id : Json) (name : Json) (input : Json)

structure MessagesAnswer where
  id : String
  model : String
  content : List Content
  stopReason : String
  inputTokens : Int
  outputTokens : Int

def textBlocks (message : Message) : List String :=
  if message.content = "" then [] else [message.content]

/-- `finish_reason == "length"`. -/
def cutOff (chat : Completion) : Bool := chat.finishReason.pyEq (.str "length")

/-- `convert_response` for Messages. -/
def convertMessages (p : Platform) (chat : Completion) : Except String MessagesAnswer := do
  let calls ← chat.message.calls.mapM fun call => do
    let input ← demand "JSONDecodeError" (p.loads call.arguments)
    return Content.toolUse call.id (.str call.name) input
  return {
    id := "msg_" ++ chat.id
    model := chat.model
    content := (textBlocks chat.message).map .text ++ calls
    stopReason := if chat.message.calls ≠ [] then "tool_use"
      else if cutOff chat then "max_tokens" else "end_turn"
    inputTokens := chat.promptTokens
    outputTokens := chat.completionTokens }

/-- An output item of Responses; a message has one part, or none yet. -/
inductive Item
  | message (id status : String) (part : Option String)
  | functionCall (id status : String) (callId name : Json) (arguments : String)
  deriving DecidableEq

def Item.id : Item → String
  | .message id _ _ => id
  | .functionCall id _ _ _ _ => id

structure Response where
  id : String
  createdAt : Int
  model : String
  status : String
  output : List Item
  /-- Of the input and of the output. -/
  usage : Option (Int × Int)

/-- `"fc_" + id`. -/
def itemId (id : Json) : Except String String := do
  return "fc_" ++ (← demand "TypeError" id.asStr?)

/-- `convert_response` for Responses. -/
def convertResponses (chat : Completion) : Except String Response := do
  let calls ← chat.message.calls.mapM fun call => do
    return Item.functionCall (← itemId call.id) "completed" call.id (.str call.name) call.arguments
  return {
    id := "resp_" ++ chat.id
    createdAt := chat.created
    model := chat.model
    status := if cutOff chat then "incomplete" else "completed"
    output := (textBlocks chat.message).map
      (fun text => .message ("msg_" ++ chat.id) "completed" (some text)) ++ calls
    usage := some (chat.promptTokens, chat.completionTokens) }

/-! ### Events -/

/-- A block as a content block starts. -/
inductive Block
  | text (text : String)
  | tool (id name : Json) (arguments : String)

inductive Event
  | messageStart (id model : String)
  | contentBlockStart (index : Nat) (block : Block)
  | textDelta (index : Nat) (text : String)
  | inputJsonDelta (index : Nat) (partialJson : String)
  | contentBlockStop (index : Nat)
  | messageDelta (stopReason : String) (inputTokens outputTokens : Int)
  | messageStop
  | response (kind : String) (response : Response)
  | outputItemAdded (index : Nat) (item : Item)
  | contentPartAdded (itemId : String) (index : Nat)
  | outputTextDelta (itemId : String) (index : Nat) (delta : String)
  | argumentsDelta (itemId : String) (index : Nat) (delta : String)
  | outputTextDone (itemId : String) (index : Nat) (text : String)
  | contentPartDone (itemId : String) (index : Nat) (text : String)
  | argumentsDone (itemId : String) (index : Nat) (arguments : String) (name : Json)
  | outputItemDone (index : Nat) (item : Item)

inductive Protocol
  | messages
  | responses
  deriving DecidableEq

/-- A call of which some arguments were sent. -/
structure StreamCall where
  id : Json
  name : Json
  arguments : String

structure StreamFormat where
  protocol : Protocol
  model : String
  taskId : String
  created : Int
  sequence : Nat
  blocks : Dict String Nat
  calls : Dict Nat StreamCall
  text : String

def StreamFormat.new (protocol : Protocol) (model taskId : String) (created : Int) :
    StreamFormat := ⟨protocol, model, taskId, created, 0, .empty, .empty, ""⟩

def StreamFormat.chatId (s : StreamFormat) : String := "chatcmpl-" ++ s.taskId

/-- An event with its sequence number, which only Responses has. -/
structure Sent where
  event : Event
  sequence : Option Nat

/-- `StreamFormat.event`, of one event after the other. -/
def StreamFormat.send (s : StreamFormat) (events : List Event) : StreamFormat × List Sent :=
  match s.protocol with
  | .messages => (s, events.map fun event => ⟨event, none⟩)
  | .responses => ({ s with sequence := s.sequence + events.length },
      (events.zipIdx s.sequence).map fun (event, n) => ⟨event, some n⟩)

/-- `StreamFormat.start`. -/
def StreamFormat.start (s : StreamFormat) : StreamFormat × List Sent :=
  match s.protocol with
  | .messages => s.send [.messageStart ("msg_" ++ s.chatId) s.model]
  | .responses =>
      let value : Response := ⟨"resp_" ++ s.chatId, s.created, s.model, "in_progress", [], none⟩
      s.send [.response "response.created" value, .response "response.in_progress" value]

section Delta

variable (p : Platform)

/-- The text of a choice. -/
def StreamFormat.deltaText (s : StreamFormat) (text : String) : StreamFormat × List Event :=
  if text = "" then (s, [])
  else
    let itemId := "msg_" ++ s.chatId
    let index := (s.blocks.get? "text").getD s.blocks.entries.length
    let opened : List Event :=
      if (s.blocks.get? "text").isSome then []
      else match s.protocol with
        | .messages => [.contentBlockStart index (.text "")]
        | .responses => [.outputItemAdded index (.message itemId "in_progress" none),
            .contentPartAdded itemId index]
    ({ s with blocks := s.blocks.set "text" index, text := s.text ++ text },
      opened ++ [match s.protocol with
        | .messages => .textDelta index text
        | .responses => .outputTextDelta itemId index text])

/-- The event that opens the block of a call. -/
def StreamFormat.callOpened (s : StreamFormat) (index : Nat) (id name : Json) :
    Except String Event :=
  match s.protocol with
  | .messages => .ok (.contentBlockStart index (.tool id name ""))
  | .responses => (itemId id).map fun item =>
      .outputItemAdded index (.functionCall item "in_progress" id name "")

/-- The first fragment of a call opens a block. -/
def StreamFormat.openCall (s : StreamFormat) (key : String) (fragment : Fragment) :
    Except String (StreamFormat × Event) := do
  require "upstream must start tool delta with id and name"
    (given fragment.id = true ∧ given fragment.name = true)
  let index := s.blocks.entries.length
  let id := fragment.id.getD .null
  let name := fragment.name.getD .null
  let event ← s.callOpened index id name
  return ({ s with blocks := s.blocks.set key index, calls := s.calls.set index ⟨id, name, ""⟩ },
    event)

/-- The event of more arguments, if there are any. -/
def StreamFormat.argumentsSent (s : StreamFormat) (index : Nat) (id : Json) (arguments : String) :
    Except String (List Event) :=
  if arguments = "" then .ok []
  else match s.protocol with
    | .messages => .ok [.inputJsonDelta index arguments]
    | .responses => (itemId id).map fun item => [.argumentsDelta item index arguments]

/-- The arguments of a fragment. -/
def StreamFormat.deltaArguments (s : StreamFormat) (index : Nat) (fragment : Fragment) :
    Except String (StreamFormat × List Event) := do
  let arguments ← textOf fragment.arguments
  let call ← demand "KeyError" (s.calls.get? index)
  let events ← s.argumentsSent index call.id arguments
  let extended : StreamCall := { call with arguments := call.arguments ++ arguments }
  return ({ s with calls := s.calls.set index extended }, events)

/-- A fragment of a tool call. -/
def StreamFormat.deltaCall (s : StreamFormat) (item : Json) :
    Except String (StreamFormat × List Event) := do
  let fragment ← readFragment item
  let key := "tool:" ++ p.str fragment.index
  match s.blocks.get? key with
  | some index => s.deltaArguments index fragment
  | none => do
      let (opened, event) ← s.openCall key fragment
      let (s, events) ← opened.deltaArguments s.blocks.entries.length fragment
      return (s, event :: events)

def StreamFormat.deltaChoice (state : StreamFormat × List Event) (choice : Json) :
    Except String (StreamFormat × List Event) := do
  let delta := orElse (← get choice "delta") (.obj [])
  let text ← textOf (← get delta "content")
  let (s, events) := state.1.deltaText text
  let items ← iterate (orElse (delta.get? "tool_calls") (.arr []))
  items.foldlM (fun state item => do
    let (s, events) ← state.1.deltaCall p item
    return (s, state.2 ++ events)) (s, state.2 ++ events)

/-- `StreamFormat.delta`. -/
def StreamFormat.delta (s : StreamFormat) (chunk : Json) :
    Except String (StreamFormat × List Sent) := do
  let choices ← iterate ((← get chunk "choices").getD (.arr []))
  let (s, events) ← choices.foldlM (StreamFormat.deltaChoice p) (s, [])
  return s.send events

/-- The events that close a block. -/
def StreamFormat.closeBlock (s : StreamFormat) (entry : String × Nat) :
    Except String (List Event) :=
  let index := entry.2
  match s.protocol with
  | .messages => .ok [.contentBlockStop index]
  | .responses =>
      if entry.1 = "text" then
        let id := "msg_" ++ s.chatId
        .ok [.outputTextDone id index s.text, .contentPartDone id index s.text,
          .outputItemDone index (.message id "completed" (some s.text))]
      else do
        let call ← demand "KeyError" (s.calls.get? index)
        let id ← itemId call.id
        return [.argumentsDone id index call.arguments call.name,
          .outputItemDone index (.functionCall id "completed" call.id call.name call.arguments)]

/-- The identifier of the item of a block. -/
def StreamFormat.blockId (s : StreamFormat) (entry : String × Nat) : Except String String :=
  if entry.1 = "text" then .ok ("msg_" ++ s.chatId)
  else do
    let call ← demand "KeyError" (s.calls.get? entry.2)
    itemId call.id

/-- The output of a final response in the order of the blocks. -/
def StreamFormat.reordered (s : StreamFormat) (output : List Item) : Except String (List Item) :=
  let byId : Dict String Item := output.foldl (fun d item => d.set item.id item) .empty
  s.blocks.entries.mapM fun entry => do
    let id ← s.blockId entry
    demand "KeyError" (byId.get? id)

/-- `StreamFormat.finish`. -/
def StreamFormat.finish (s : StreamFormat) (chat : Completion) :
    Except String (StreamFormat × List Sent) :=
  match s.protocol with
  | .messages => do
      let final ← convertMessages p chat
      let closed ← s.blocks.entries.mapM s.closeBlock
      return s.send (closed.flatten ++
        [.messageDelta final.stopReason final.inputTokens final.outputTokens, .messageStop])
  | .responses => do
      let final ← convertResponses chat
      let closed ← s.blocks.entries.mapM s.closeBlock
      let output ← s.reordered final.output
      return s.send (closed.flatten ++
        [.response ("response." ++ final.status) { final with output }])

/-- The chunks of a stream, one after the other. -/
def StreamFormat.deltas (s : StreamFormat) (chunks : List Json) :
    Except String (StreamFormat × List Sent) :=
  chunks.foldlM (fun state chunk => do
    let (s, sent) ← state.1.delta p chunk
    return (s, state.2 ++ sent)) (s, [])

end Delta

end Api
