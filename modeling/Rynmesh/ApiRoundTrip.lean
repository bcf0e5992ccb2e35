import Rynmesh.ApiRequest
import Rynmesh.ApiStreamSafety
import Rynmesh.ChatRequestGrowth

/-!
# What was answered can be sent back

A client appends what it was answered to its conversation, then a result for each call
(`extend`).

* `Returned`: what `convert_response` writes, in any order of the blocks;
* `replies`: the chat messages that this stands for;
* `messages_extend`: `normalize` makes these messages of it;
* `checkMessages_replies`: and the check of the conversation passes them.
-/

namespace Api

open Checked

/-! ### What a client sends -/

def Item.json : Item → Json
  | .message id status part =>
      .object [("id", .str id), ("type", .str "message"), ("status", .str status),
        ("role", .str "assistant"), ("content", .arr (part.map fun text =>
          .object [("type", .str "output_text"), ("text", .str text),
            ("annotations", .arr [])]).toList)]
  | .functionCall id status callId name arguments =>
      .object [("id", .str id), ("type", .str "function_call"), ("status", .str status),
        ("call_id", callId), ("name", name), ("arguments", .str arguments)]

def Content.json : Content → Json
  | .text own => .object [("type", .str "text"), ("text", .str own)]
  | .toolUse id name input =>
      .object [("type", .str "tool_use"), ("id", id), ("name", name), ("input", input)]

/-- The result of a call. -/
structure ToolResult where
  callId : String
  text : String

def ToolResult.item (result : ToolResult) : Json :=
  .object [("type", .str "function_call_output"), ("call_id", .str result.callId),
    ("output", .str result.text)]

def ToolResult.block (result : ToolResult) : Json :=
  .object [("type", .str "tool_result"), ("tool_use_id", .str result.callId),
    ("content", .str result.text)]

/-- The messages of a request. -/
def messageItems (body : Json) : List Json :=
  ((body.get? "messages").bind Json.asArr?).getD []

/-- The conversation goes on with the answer and the results, which may come in several messages. -/
def extend (protocol : Protocol) (body : Json) (output : List Json)
    (results : List (List ToolResult)) : Json :=
  match protocol with
  | .responses => Chat.put body "input" (.arr ((Responses.inputItems body).toOption.getD [] ++
      (output ++ results.flatten.map ToolResult.item)))
  | .messages => Chat.put body "messages" (.arr (messageItems body ++
      (chatMessage (.str "assistant") (.arr output) ::
        results.map fun group => chatMessage (.str "user") (.arr (group.map ToolResult.block)))))

section Returned

variable (p : Codec)

/-- The blocks of an answer in the order they are returned in, and the values returned. -/
def Returned (protocol : Protocol) (chat : Completion) (blocks : List Block) (output : List Json) :
    Prop :=
  blocks.Perm chat.message.blocks ∧
    match protocol with
    | .messages => (∃ answer, convertMessages p.toPlatform chat = .ok answer) ∧
        ∃ content : List Content, content.map some = blocks.map (Block.content p.toPlatform) ∧
          output = content.map Content.json
    | .responses => (∃ answer, convertResponses chat = .ok answer) ∧
        ∃ items : List Item, items.map some = blocks.map (Block.item chat.id) ∧
          output = items.map Item.json

/-- The arguments of a call as they are sent on. -/
def resent (protocol : Protocol) (arguments : String) : String :=
  match protocol with
  | .messages => p.dumps ((p.loads arguments).getD .null)
  | .responses => arguments

/-- The call of a block, as the chat has it. -/
def Block.call (protocol : Protocol) : Block → Option Json
  | .text _ => none
  | .tool id name arguments => some (chatCall id name (.str (resent p protocol arguments)))

/-- The assistant's text and calls, and each call's result. -/
def replies (protocol : Protocol) (text : String) (calls : List Json) (results : List ToolResult) :
    List Json :=
  (match protocol with
    | .responses => (if text = "" then [] else [chatMessage (.str "assistant") (.str text)]) ++
        [callsMessage .null calls]
    | .messages => [callsMessage (if text = "" then .null else .str text) calls]) ++
  results.map fun result => toolMessage (.str result.callId) result.text

end Returned

/-- Some calls, each with a name and an identifier of its own and with an object. -/
structure Asks (p : Codec) (message : Message) : Prop where
  asked : message.calls ≠ []
  ids : (message.calls.map Call.id).Nodup
  named : ∀ call ∈ message.calls, (∃ text, text ≠ "" ∧ call.id = .str text) ∧ call.name ≠ "" ∧
    ∃ fields, p.loads call.arguments = some (.obj fields)

variable {p : Codec}

def Block.isTool : Block → Bool
  | .text _ => false
  | .tool _ _ _ => true

def Block.words : Block → Option String
  | .text content => some content
  | .tool _ _ _ => none

variable {chatId : String}

theorem Block.tool_item {item : Item} (block : Block) (htool : block.isTool = true)
    (hitem : block.item chatId = some item) :
    ∃ id name arguments, block = .tool id name arguments ∧
      ∃ own, item = .functionCall own "completed" id name arguments := by
  cases block with
  | text content => cases htool
  | tool id name arguments =>
    obtain ⟨own, _, rfl⟩ := Option.map_eq_some_iff.mp hitem
    exact ⟨id, name, arguments, rfl, own, rfl⟩

/-! ### One item -/

theorem textContent_one {part : Json} {kind text : String}
    (hpart : part.isObj = true) (hkind : part.get? "type" = some (.str kind))
    (hknown : kind ∈ ["text", "input_text", "output_text"])
    (htext : part.get? "text" = some (.str text)) : textContent (.arr [part]) = .ok text := by
  have hread : textPart part = .ok text := by
    unfold textPart among
    rw [require_of hpart, ok_bind, hkind, htext]
    simp only [Option.getD_some, hashKey, demand_some, ok_bind, List.mem_map, Key.text.injEq,
      exists_eq_right, hknown, decide_true, pure_bind]
    rfl
  have hjoin : String.join [text] = text := by
    simp [String.join]
  have hparts : [part].mapM textPart = .ok [text] := by
    rw [List.mapM_cons, hread, List.mapM_nil]
    rfl
  show ([part].mapM textPart).map String.join = _
  rw [hparts]
  exact congrArg Except.ok hjoin

theorem callsMessage_assign (content : Json) (calls more : List Json) :
    (callsMessage content calls).assign "tool_calls" (.arr more) = callsMessage content more := by
  have hcontent : "content" < "tool_calls" := by decide
  have hrole : "role" < "tool_calls" := by decide
  have hbefore : ¬ "role" < "content" := by decide
  simp [callsMessage, Json.object, Json.setField, Json.assign, hcontent, hrole, hbefore]

variable {messages : List Json} {blocks : List Block}

variable {chat : Completion}

namespace Responses

theorem addItem_message (messages : List Json) (id status text : String) :
    addItem p messages (Item.json (.message id status (some text))) =
      .ok (messages ++ [chatMessage (.str "assistant") (.str text)]) := by
  have htext : textContent (.arr [.object [("type", .str "output_text"), ("text", .str text),
      ("annotations", .arr [])]]) = .ok text :=
    textContent_one rfl (by simp; rfl) (by simp) (by simp)
  simp [addItem, Item.json, item, require, demand, htext]

theorem addItem_call (messages : List Json) (id status : String) (callId name : Json)
    (arguments : String) :
    addItem p messages (Item.json (.functionCall id status callId name arguments)) =
      .ok (addCall messages (chatCall callId name (.str arguments))) := by
  simp [addItem, Item.json, item, require, demand]

theorem addItem_result (messages : List Json) (result : ToolResult) :
    addItem p messages result.item =
      .ok (messages ++ [toolMessage (.str result.callId) result.text]) := by
  simp [addItem, ToolResult.item, item, textContent, require, demand]

theorem addCall_first {call : Json}
    (h : ∀ last, messages.getLast? = some last → ∀ first calls,
      last.get? "tool_calls" ≠ some (.arr (first :: calls))) :
    addCall messages call = messages ++ [callsMessage .null [call]] := by
  unfold addCall
  split
  · rename_i last hlast
    split
    · rename_i first calls hcalls
      exact absurd hcalls (h last hlast first calls)
    · rfl
  · rfl

theorem addCall_more (messages calls : List Json) (first call : Json) :
    addCall (messages ++ [callsMessage .null (first :: calls)]) call =
      messages ++ [callsMessage .null (first :: calls ++ [call])] := by
  have hcalls : (callsMessage .null (first :: calls)).get? "tool_calls" =
      some (.arr (first :: calls)) := by
    simp [callsMessage]
  simp [addCall, hcalls, callsMessage_assign]

variable {items : List Item}

theorem addItems_more (messages : List Json) (first : Json) (calls : List Json)
    (htools : ∀ block ∈ blocks, block.isTool = true)
    (hitems : items.map some = blocks.map (Block.item chatId)) :
    (items.map Item.json).foldlM (addItem p) (messages ++ [callsMessage .null (first :: calls)]) =
      .ok (messages ++ [callsMessage .null
        (first :: (calls ++ blocks.filterMap (Block.call p .responses)))]) := by
  induction blocks generalizing items calls with
  | nil =>
    rw [List.map_nil, List.map_eq_nil_iff] at hitems
    subst hitems
    rw [List.map_nil, List.foldlM_nil, List.filterMap_nil, List.append_nil]
    rfl
  | cons block rest ih =>
    cases items with
    | nil => cases hitems
    | cons head items =>
      rw [List.map_cons, List.map_cons, List.cons.injEq] at hitems
      obtain ⟨id, name, arguments, rfl, item, hhead⟩ :=
        block.tool_item (htools block (.head _)) hitems.1.symm
      rw [List.map_cons, List.foldlM_cons, hhead, addItem_call, ok_bind, addCall_more,
        List.cons_append, ih _ (fun b hb => htools b (.tail _ hb)) hitems.2,
        List.append_assoc]
      rfl

theorem addItems_calls (hlast : ∀ last, messages.getLast? = some last → ∀ first calls,
      last.get? "tool_calls" ≠ some (.arr (first :: calls))) (hsome : blocks ≠ [])
    (htools : ∀ block ∈ blocks, block.isTool = true)
    (hitems : items.map some = blocks.map (Block.item chatId)) :
    (items.map Item.json).foldlM (addItem p) messages =
      .ok (messages ++ [callsMessage .null (blocks.filterMap (Block.call p .responses))]) := by
  cases blocks with
  | nil => exact absurd rfl hsome
  | cons block rest =>
    cases items with
    | nil => cases hitems
    | cons head items =>
      rw [List.map_cons, List.map_cons, List.cons.injEq] at hitems
      obtain ⟨id, name, arguments, rfl, item, hhead⟩ :=
        block.tool_item (htools block (.head _)) hitems.1.symm
      rw [List.map_cons, List.foldlM_cons, hhead, addItem_call, ok_bind, addCall_first hlast,
        addItems_more messages _ [] (fun b hb => htools b (.tail _ hb)) hitems.2]
      rfl

theorem addItems_results (messages : List Json) (results : List ToolResult) :
    (results.map ToolResult.item).foldlM (addItem p) messages =
      .ok (messages ++ results.map fun result => toolMessage (.str result.callId) result.text) := by
  induction results generalizing messages with
  | nil =>
    rw [List.map_nil, List.foldlM_nil, List.map_nil, List.append_nil]
    rfl
  | cons result rest ih =>
    rw [List.map_cons, List.foldlM_cons, addItem_result, ok_bind, ih, List.append_assoc]
    rfl

theorem chatMessage_callless (role content : Json) :
    (chatMessage role content).get? "tool_calls" = none := by
  simp [chatMessage]

/-- **The input items of an answer that begins with its text.** -/
theorem addItems_answer {rest : List Block} {results : List ToolResult}
    (hlast : ∀ last, messages.getLast? = some last → ∀ first calls,
      last.get? "tool_calls" ≠ some (.arr (first :: calls))) (hsome : rest ≠ [])
    (htools : ∀ block ∈ rest, block.isTool = true)
    (hitems : items.map some =
      ((textBlocks chat.message).map Block.text ++ rest).map (Block.item chat.id)) :
    (items.map Item.json ++ results.map ToolResult.item).foldlM (addItem p) messages =
      .ok (messages ++ replies .responses chat.message.content
        (rest.filterMap (Block.call p .responses)) results) := by
  rw [List.foldlM_append]
  have hcalls : (items.map Item.json).foldlM (addItem p) messages =
      .ok (messages ++ ((if chat.message.content = "" then []
        else [chatMessage (.str "assistant") (.str chat.message.content)]) ++
          [callsMessage .null (rest.filterMap (Block.call p .responses))])) := by
    unfold textBlocks at hitems
    by_cases htext : chat.message.content = ""
    · rw [if_pos htext, List.map_nil, List.nil_append] at hitems
      rw [if_pos htext, List.nil_append]
      exact addItems_calls hlast hsome htools hitems
    rw [if_neg htext] at hitems
    rw [if_neg htext]
    cases items with
    | nil => cases hitems
    | cons head items =>
      simp only [List.map_cons, List.map_nil, List.singleton_append, List.cons.injEq] at hitems
      rw [Block.item, Option.some.injEq] at hitems
      rw [List.map_cons, List.foldlM_cons, hitems.1, addItem_message, ok_bind,
        addItems_calls ?_ hsome htools hitems.2, List.append_assoc]
      intro last hlast first calls
      rw [List.getLast?_append, List.getLast?_singleton, Option.some_or, Option.some.injEq]
        at hlast
      rw [← hlast, chatMessage_callless]
      exact fun h => (by cases h)
  rw [hcalls, ok_bind, addItems_results]
  simp [replies]

end Responses

namespace Messages

theorem addBlock_text (read : Read) (text : String) :
    addBlock p (.str "assistant") read (Content.json (.text text)) =
      .ok { read with texts := read.texts ++ [.str text] } := by
  simp [addBlock, Content.json, item, require, demand]

theorem addBlock_tool (read : Read) (id name input : Json) :
    addBlock p (.str "assistant") read (Content.json (.toolUse id name input)) =
      .ok { read with calls := read.calls ++ [chatCall id name (.str (p.dumps input))] } := by
  simp [addBlock, Content.json, item, require, demand]

theorem addBlock_result (read : Read) (result : ToolResult) :
    addBlock p (.str "user") read result.block =
      .ok { read with results :=
        read.results ++ [toolMessage (.str result.callId) result.text] } := by
  simp [addBlock, ToolResult.block, item, require, demand, textContent, given]

variable {content : List Content}

theorem addBlocks_answer (read : Read)
    (hcontent : content.map some = blocks.map (Block.content p.toPlatform)) :
    (content.map Content.json).foldlM (addBlock p (.str "assistant")) read =
      .ok ⟨read.texts ++ (blocks.filterMap Block.words).map .str,
        read.calls ++ blocks.filterMap (Block.call p .messages), read.results⟩ := by
  induction blocks generalizing content read with
  | nil =>
    rw [List.map_nil, List.map_eq_nil_iff] at hcontent
    subst hcontent
    simp only [List.map_nil, List.foldlM_nil, List.filterMap_nil, List.append_nil]
    rfl
  | cons block rest ih =>
    cases content with
    | nil => cases hcontent
    | cons head content =>
      rw [List.map_cons, List.map_cons, List.cons.injEq] at hcontent
      cases block with
      | text words =>
        rw [Block.content, Option.some.injEq] at hcontent
        rw [List.map_cons, List.foldlM_cons, hcontent.1, addBlock_text, ok_bind,
          ih _ hcontent.2]
        simp [List.filterMap_cons, Block.words, Block.call]
      | tool id name arguments =>
        obtain ⟨input, hinput, hhead⟩ := Option.map_eq_some_iff.mp hcontent.1.symm
        rw [List.map_cons, List.foldlM_cons, ← hhead, addBlock_tool, ok_bind,
          ih _ hcontent.2]
        simp [List.filterMap_cons, Block.words, Block.call, resent, hinput]

theorem addBlocks_results (read : Read) (results : List ToolResult) :
    (results.map ToolResult.block).foldlM (addBlock p (.str "user")) read =
      .ok ⟨read.texts, read.calls, read.results ++
        results.map fun result => toolMessage (.str result.callId) result.text⟩ := by
  induction results generalizing read with
  | nil =>
    rw [List.map_nil, List.foldlM_nil, List.map_nil, List.append_nil]
    rfl
  | cons result rest ih =>
    rw [List.map_cons, List.foldlM_cons, addBlock_result, ok_bind, ih]
    simp

theorem addMessage_results (messages : List Json) (results : List ToolResult) :
    addMessage p messages (chatMessage (.str "user") (.arr (results.map ToolResult.block))) =
      .ok (messages ++ results.map fun result => toolMessage (.str result.callId) result.text) := by
  simp [addMessage, chatMessage, get, require, among, hashKey, demand, iterate, addBlocks_results,
    Read.messages]

theorem addMessages_results (messages : List Json) (results : List (List ToolResult)) :
    (results.map fun group => chatMessage (.str "user")
        (.arr (group.map ToolResult.block))).foldlM (addMessage p) messages =
      .ok (messages ++ results.flatten.map fun result =>
        toolMessage (.str result.callId) result.text) := by
  induction results generalizing messages with
  | nil =>
    rw [List.map_nil, List.foldlM_nil, List.flatten_nil, List.map_nil, List.append_nil]
    rfl
  | cons group rest ih =>
    rw [List.map_cons, List.foldlM_cons, addMessage_results, ok_bind, ih, List.flatten_cons,
      List.map_append, List.append_assoc]

theorem joinTexts_one (text : String) :
    joinTexts ((if text = "" then [] else [text]).map .str) =
      .ok (if text = "" then .null else .str text) := by
  unfold joinTexts
  by_cases htext : text = ""
  · simp [htext, demand, String.join]
  · have hjoin : String.join [text] = text := by
      simp [String.join]
    simp [htext, demand, hjoin, Json.asStr?]

/-- **The message of an answer**, whose text may come anywhere. -/
theorem addMessage_answer (hblocks : blocks.Perm chat.message.blocks)
    (hcalls : blocks.filterMap (Block.call p .messages) ≠ [])
    (hcontent : content.map some = blocks.map (Block.content p.toPlatform)) :
    addMessage p messages (chatMessage (.str "assistant") (.arr (content.map Content.json))) =
      .ok (messages ++ replies .messages chat.message.content
        (blocks.filterMap (Block.call p .messages)) []) := by
  have hwords : blocks.filterMap Block.words =
      if chat.message.content = "" then [] else [chat.message.content] := by
    have hperm := hblocks.filterMap Block.words
    have hmessage : chat.message.blocks.filterMap Block.words = textBlocks chat.message := by
      rw [Message.blocks, List.filterMap_append, List.filterMap_map, List.filterMap_map]
      simp [Function.comp_def, Block.words]
    rw [hmessage] at hperm
    unfold textBlocks at hperm
    by_cases htext : chat.message.content = ""
    · rw [if_pos htext] at hperm ⊢
      exact hperm.eq_nil
    · rw [if_neg htext] at hperm ⊢
      exact List.perm_singleton.mp hperm
  have hread := addBlocks_answer ⟨[], [], []⟩ hcontent
  simp only [List.nil_append, hwords] at hread
  simp [addMessage, chatMessage, get, require, among, hashKey, demand, iterate, hread,
    Read.messages,
    hcalls, joinTexts_one, replies, callsMessage]

/-- **The messages of an answer and of its results.** -/
theorem addMessages_answer {results : List (List ToolResult)}
    (hblocks : blocks.Perm chat.message.blocks)
    (hcalls : blocks.filterMap (Block.call p .messages) ≠ [])
    (hcontent : content.map some = blocks.map (Block.content p.toPlatform)) :
    (chatMessage (.str "assistant") (.arr (content.map Content.json)) ::
        results.map fun group => chatMessage (.str "user")
          (.arr (group.map ToolResult.block))).foldlM (addMessage p) messages =
      .ok (messages ++ replies .messages chat.message.content
        (blocks.filterMap (Block.call p .messages)) results.flatten) := by
  rw [List.foldlM_cons, addMessage_answer hblocks hcalls hcontent, ok_bind, addMessages_results]
  simp [replies]

end Messages

end Api
