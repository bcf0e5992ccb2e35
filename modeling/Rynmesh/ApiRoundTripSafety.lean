import Rynmesh.ApiRoundTrip

/-!
# An answer that is sent back is accepted

`returned_accepted`: a conversation that was accepted is accepted again with the answer and the
results, as long as it is not too long and a Responses answer begins with its text.
-/

namespace Api

open Checked

variable {p : Codec}

/-! ### The check of the replies -/

variable {message : Json} {results : List ToolResult}

section Check

open Chat

theorem headOk_text (text : String) :
    HeadOk (chatMessage (.str "assistant") (.str text)) := by
  refine ⟨rfl, ⟨"assistant", by decide, by simp [field, chatMessage]⟩, fun k hk => ?_, ?_, ?_⟩
  · have hcase : k = "role" ∨ k = "content" := by
      simpa [chatMessage] using hk
    obtain rfl | rfl := hcase <;> decide
  · simp [reasoningOk, chatMessage]
  · simp [contentOk, field, chatMessage, isText]

theorem headOk_calls {content : Json} (calls : List Json) (hcontent : isText content = true) :
    HeadOk (callsMessage content calls) := by
  refine ⟨rfl, ⟨"assistant", by decide, by simp [field, callsMessage]⟩, fun k hk => ?_, ?_, ?_⟩
  · have hcase : k = "role" ∨ k = "content" ∨ k = "tool_calls" := by
      simpa [callsMessage] using hk
    obtain rfl | rfl | rfl := hcase <;> decide
  · simp [reasoningOk, callsMessage]
  · have hfield : field (callsMessage content calls) "content" = content := by
      simp [field, callsMessage]
    unfold contentOk
    rw [hfield]
    cases content with
    | null | str => rfl
    | _ => cases hcontent

theorem headOk_tool (result : ToolResult) :
    HeadOk (toolMessage (.str result.callId) result.text) := by
  refine ⟨rfl, ⟨"tool", by decide, by simp [field, toolMessage]⟩, fun k hk => ?_, ?_, ?_⟩
  · have hcase : k = "role" ∨ k = "tool_call_id" ∨ k = "content" := by
      simpa [toolMessage] using hk
    obtain rfl | rfl | rfl := hcase <;> decide
  · simp [reasoningOk, toolMessage]
  · simp [contentOk, field, toolMessage, isText]

theorem callsOk_none (pending : List String) (h : message.get? "tool_calls" = none) :
    CallsOk pending message ∧ callIds message = [] := by
  have hcalls : callsOf message = .arr [] := by
    rw [callsOf, h]
    rfl
  refine ⟨⟨fun htrue => ?_, ?_, ?_⟩, ?_⟩
  · rw [hcalls] at htrue
    cases htrue
  · rw [hcalls]
    rfl
  · rw [hcalls]
    simp [Json.asArr?, Chat.Callable]
  · rw [callIds, hcalls]
    rfl

theorem checkMessages_one {pending q : List String} {rest : List Json}
    (h : checkMessage pending message = .ok (message, q))
    (hrest : checkMessages q rest = .ok (rest, [])) :
    checkMessages pending (message :: rest) = .ok (message :: rest, []) := by
  rw [checkMessages, h, ok_bind, hrest, ok_bind]
  rfl

theorem checkMessages_results {pending : List String}
    (h : (results.map ToolResult.callId).Perm pending) :
    checkMessages pending
        (results.map fun result => toolMessage (.str result.callId) result.text) =
      .ok (results.map fun result => toolMessage (.str result.callId) result.text, []) := by
  induction results generalizing pending with
  | nil =>
    rw [h.symm.eq_nil]
    rfl
  | cons result rest ih =>
    have hmem : result.callId ∈ pending := h.mem_iff.mp (.head _)
    have hrole : isTool (toolMessage (.str result.callId) result.text) = true := by
      simp [isTool, field, toolMessage]
    have hid : field (toolMessage (.str result.callId) result.text) "tool_call_id" =
        .str result.callId := by
      simp [field, toolMessage]
    have hanswered : answered pending (toolMessage (.str result.callId) result.text) =
        pending.erase result.callId := by
      rw [answered, if_pos hrole, answerId, hid]
      rfl
    have hfree : (toolMessage (.str result.callId) result.text).get? "tool_calls" = none := by
      simp [toolMessage]
    obtain ⟨hcalls, hnone⟩ := callsOk_none (pending.erase result.callId) hfree
    have hone := checkMessage_as_it_is (headOk_tool result)
      (by simp [field, toolMessage, isText]) (Or.inl ⟨hrole, _, hmem, hid⟩)
      (by rw [hanswered]; exact hcalls)
    rw [hanswered, hnone, List.append_nil] at hone
    exact checkMessages_one hone (ih ((List.cons_perm_iff_perm_erase.mp h).2))

/-- **The replies pass**, when each call has what it needs and each result answers one. -/
theorem checkMessages_replies (protocol : Protocol) (text : String) {calls : List Json}
    (hcalls : Chat.Callable [] calls)
    (hresults : (results.map ToolResult.callId).Perm (calls.map idOf)) :
    checkMessages [] (replies protocol text calls results) =
      .ok (replies protocol text calls results, []) := by
  have hasked : ∀ content, isText content = true →
      checkMessage [] (callsMessage content calls) =
        .ok (callsMessage content calls, calls.map idOf) := by
    intro content hcontent
    have hrole : isTool (callsMessage content calls) = false := by
      simp [isTool, field, callsMessage]
    have hanswered : answered [] (callsMessage content calls) = [] := by
      rw [answered, hrole]
      rfl
    have hcallsOf : callsOf (callsMessage content calls) = .arr calls := by
      simp [callsOf, callsMessage]
    have hone := checkMessage_as_it_is (headOk_calls calls hcontent)
      (by simpa [field, callsMessage] using hcontent) (Or.inr ⟨hrole, rfl⟩)
      (by
        rw [hanswered]
        refine ⟨fun _ => ⟨by simp [field, callsMessage], by rw [hcallsOf]; rfl⟩, ?_, ?_⟩
        · rw [hcallsOf]
          rfl
        · rw [hcallsOf]
          exact hcalls)
    rw [hanswered, List.nil_append, callIds, hcallsOf] at hone
    exact hone
  have hends := checkMessages_results hresults
  cases protocol with
  | messages =>
    refine checkMessages_one (hasked _ ?_) hends
    split <;> rfl
  | responses =>
    have hrest := checkMessages_one (hasked .null rfl) hends
    unfold replies
    by_cases htext : text = ""
    · simp only [if_pos htext, List.nil_append, List.cons_append]
      exact hrest
    simp only [if_neg htext, List.cons_append, List.nil_append]
    obtain ⟨hnoCalls, hnone⟩ := callsOk_none []
      (Responses.chatMessage_callless (.str "assistant") (.str text))
    have hrole : isTool (chatMessage (.str "assistant") (.str text)) = false := by
      simp [isTool, field, chatMessage]
    have hanswered : answered [] (chatMessage (.str "assistant") (.str text)) = [] := by
      rw [answered, hrole]
      rfl
    have hone := checkMessage_as_it_is (headOk_text text)
      (by simp [field, chatMessage, isText]) (Or.inr ⟨hrole, rfl⟩)
      (by rw [hanswered]; exact hnoCalls)
    rw [hanswered, hnone, List.append_nil] at hone
    exact checkMessages_one hone hrest

end Check

/-! ### The request that goes on -/

variable {k : String} {fields : List (String × Json)}

theorem setField_assign (v w : Json) (h : k ∉ fields.map Prod.fst) :
    (Json.setField k v fields).map (fun f => if f.1 = k then (k, w) else f) =
      Json.setField k w fields := by
  induction fields with
  | nil => simp [Json.setField]
  | cons f rest ih =>
    have hne : ¬ f.1 = k := fun heq => h (heq ▸ (.head _))
    have hrest : k ∉ rest.map Prod.fst := fun hmem => h (.tail _ hmem)
    by_cases hlt : k < f.1
    · simp [Json.setField, hlt, hne, Chat.map_assign_absent w hrest]
    · simp [Json.setField, hlt, hne, ih hrest]

theorem object_assign (v w : Json) (h : k ∉ fields.map Prod.fst) :
    (Json.object ((k, v) :: fields)).assign k w = Json.object ((k, w) :: fields) := by
  have hkeys : k ∉ (Json.object fields).keys := by
    rwa [Json.mem_keys_object]
  exact congrArg Json.obj (setField_assign v w hkeys)

theorem fst_optional {j : String} {value : Option Json} (h : j ∈ (optional k value).map Prod.fst) :
    j = k := by
  cases value with
  | none => cases h
  | some v => simpa [optional] using h

variable {body : Json}

theorem fst_handedOn {j : String} (h : j ∈ (handedOn body).map Prod.fst) :
    j ∈ ["stream", "temperature", "top_p"] := by
  rw [handedOn, List.map_flatMap, List.mem_flatMap] at h
  obtain ⟨k, hk, hj⟩ := h
  exact fst_optional hj ▸ hk

/-- A field that the answer is put in, and what does not read it. -/
structure PutIn (k : String) (body next : Json) : Prop where
  isObj : next.isObj = true
  others : ∀ j, j ≠ k → next.get? j = body.get? j

theorem putIn (k : String) (v : Json) (fields : List (String × Json)) :
    PutIn k (.obj fields) (Chat.put (.obj fields) k v) := by
  refine ⟨Chat.isObj_put _ _ _, fun j hj => ?_⟩
  rw [Chat.get?_put rfl, if_neg hj]

theorem checkKeys_ok {more : List String} :
    checkKeys body more = .ok () ↔ ∀ k ∈ body.keys, k ∈ common ++ more := by
  unfold checkKeys
  rw [require_ok]

theorem PutIn.checkKeys {next : Json} (h : PutIn k body next) {more : List String}
    (hk : k ∈ common ++ more) (hkeys : checkKeys body more = .ok ()) :
    Api.checkKeys next more = .ok () := by
  rw [checkKeys_ok] at hkeys ⊢
  intro j hj
  by_cases hjk : j = k
  · exact hjk ▸ hk
  · obtain ⟨v, hv⟩ := Json.mem_keys_iff.mp hj
    rw [h.others j hjk] at hv
    exact hkeys j (Json.mem_keys_iff.mpr ⟨v, hv⟩)

theorem PutIn.handedOn {next : Json} (h : PutIn k body next)
    (hk : k ∉ ["stream", "temperature", "top_p"]) : Api.handedOn next = Api.handedOn body := by
  refine List.flatMap_congr fun j hj => ?_
  rw [h.others j fun heq => hk (heq ▸ hj)]

theorem PutIn.systemMessage {next : Json} (h : PutIn k body next) {j : String} (hj : j ≠ k) :
    Api.systemMessage next j = Api.systemMessage body j := by
  rw [Api.systemMessage, Api.systemMessage, h.others j hj]

variable {value : Json}

theorem Responses.request_extend (h : Responses.request p (.obj fields) = .ok value)
    (more : List Json) :
    ∃ before, value.isObj = true ∧ value.get? "messages" = some (.arr before) ∧
      ∀ after, more.foldlM (addItem p) before = .ok after →
        Responses.request p (Chat.put (.obj fields) "input"
            (.arr ((inputItems (.obj fields)).toOption.getD [] ++ more))) =
          .ok (value.assign "messages" (.arr after)) := by
  unfold Responses.request at h
  simp only [bind_ok, require_ok, exists_and_left, exists_const, pure_ok] at h
  obtain ⟨_, hkeys, ⟨hstore, hprevious⟩, before, hbefore, tools, htools, rfl⟩ := h
  have hfresh : "messages" ∉ (("max_tokens", ((Json.obj fields).get? "max_output_tokens").getD
      (.int 512)) :: (handedOn (.obj fields) ++ optional "tools" tools ++
        optional "tool_choice" (choice (.obj fields)))).map Prod.fst := by
    intro hmem
    rw [List.map_cons, List.mem_cons, List.map_append, List.map_append, List.mem_append,
      List.mem_append] at hmem
    obtain heq | (hmem | hmem) | hmem := hmem
    · exact absurd (show "messages" = "max_tokens" from heq) (by decide)
    · exact absurd (fst_handedOn hmem) (by decide)
    · exact absurd (fst_optional hmem) (by decide)
    · exact absurd (fst_optional hmem) (by decide)
  refine ⟨before, rfl, by simp, fun after hafter => ?_⟩
  generalize hnext : Chat.put (.obj fields) "input"
    (.arr ((inputItems (.obj fields)).toOption.getD [] ++ more)) = next
  have hput : PutIn "input" (.obj fields) next := hnext ▸ putIn _ _ _
  have hmessages : messages p next = .ok after := by
    unfold messages at hbefore ⊢
    simp only [bind_ok] at hbefore
    obtain ⟨system, hsystem, items, hitems, hfold⟩ := hbefore
    have hinput : inputItems next = .ok (items ++ more) := by
      unfold inputItems
      rw [← hnext, Chat.get?_put rfl, if_pos rfl, hitems]
      rfl
    rw [hput.systemMessage (by decide), hsystem, ok_bind, hinput, ok_bind, List.foldlM_append,
      hfold, ok_bind]
    exact hafter
  have htoolsNext : Responses.tools next = .ok tools := by
    rw [← htools, Responses.tools, Responses.tools, hput.others _ (by decide)]
  have hchoice : choice next = choice (.obj fields) := by
    rw [choice, choice, hput.others _ (by decide)]
  unfold Responses.request
  rw [hput.checkKeys (by decide) hkeys, ok_bind, hput.others _ (by decide),
    hput.others _ (by decide), require_of ⟨hstore, hprevious⟩, ok_bind, hmessages, ok_bind,
    htoolsNext, ok_bind, object_assign _ _ hfresh, hput.others _ (by decide),
    hput.handedOn (by decide), hchoice]
  rfl

theorem Messages.request_extend (h : Messages.request p (.obj fields) = .ok value)
    (more : List Json) :
    ∃ before, value.isObj = true ∧ value.get? "messages" = some (.arr before) ∧
      ∀ after, more.foldlM (addMessage p) before = .ok after →
        Messages.request p (Chat.put (.obj fields) "messages"
            (.arr (messageItems (.obj fields) ++ more))) =
          .ok (value.assign "messages" (.arr after)) := by
  unfold Messages.request at h
  simp only [bind_ok, pure_ok] at h
  obtain ⟨_, hkeys, tokens, htokens, before, hbefore, tools, htools, choice, hchoice, rfl⟩ := h
  have hfresh : "messages" ∉ (("max_tokens", tokens) :: (handedOn (.obj fields) ++
      optional "stop" ((Json.obj fields).get? "stop_sequences") ++ optional "tools" tools ++
        optional "tool_choice" choice)).map Prod.fst := by
    intro hmem
    rw [List.map_cons, List.mem_cons, List.map_append, List.map_append, List.map_append,
      List.mem_append, List.mem_append, List.mem_append] at hmem
    obtain heq | ((hmem | hmem) | hmem) | hmem := hmem
    · exact absurd (show "messages" = "max_tokens" from heq) (by decide)
    · exact absurd (fst_handedOn hmem) (by decide)
    · exact absurd (fst_optional hmem) (by decide)
    · exact absurd (fst_optional hmem) (by decide)
    · exact absurd (fst_optional hmem) (by decide)
  refine ⟨before, rfl, by simp, fun after hafter => ?_⟩
  generalize hnext : Chat.put (.obj fields) "messages"
    (.arr (messageItems (.obj fields) ++ more)) = next
  have hput : PutIn "messages" (.obj fields) next := hnext ▸ putIn _ _ _
  have hmessages : messages p next = .ok after := by
    unfold messages at hbefore ⊢
    simp only [bind_ok] at hbefore
    obtain ⟨system, hsystem, items, hitems, hfold⟩ := hbefore
    -- What is no list, and was gone through, has nothing in it that is a message.
    have hlisted : (messageItems (.obj fields)).foldlM (addMessage p) system = .ok before := by
      unfold messageItems
      cases hvalue : (Json.obj fields).get? "messages" with
      | none =>
        rw [hvalue] at hitems
        cases hitems
        exact hfold
      | some value =>
        rw [hvalue] at hitems
        cases value with
        | arr listed =>
          cases hitems
          exact hfold
        | obj entries =>
          cases hitems
          cases entries with
          | nil => exact hfold
          | cons entry entries => cases hfold
        | str text =>
          cases hitems
          cases htext : text.toList with
          | nil =>
            rw [htext] at hfold
            exact hfold
          | cons c rest =>
            rw [htext] at hfold
            cases hfold
        | _ => cases hitems
    have hget : next.get? "messages" = some (.arr (messageItems (.obj fields) ++ more)) := by
      rw [← hnext, Chat.get?_put rfl, if_pos rfl]
    rw [hput.systemMessage (by decide), hsystem, ok_bind, hget]
    show (messageItems (.obj fields) ++ more).foldlM (addMessage p) system = _
    rw [List.foldlM_append, hlisted, ok_bind]
    exact hafter
  have htokensNext : item next "max_tokens" = .ok tokens := by
    rw [← htokens, item, item, hput.others _ (by decide), hput.isObj]
    rfl
  have htoolsNext : Messages.tools next = .ok tools := by
    rw [← htools, Messages.tools, Messages.tools, hput.others _ (by decide)]
  have hchoiceNext : Messages.choice next = .ok choice := by
    rw [← hchoice, Messages.choice, Messages.choice, hput.others _ (by decide)]
  unfold Messages.request
  rw [hput.checkKeys (by decide) hkeys, ok_bind, htokensNext, ok_bind, hmessages, ok_bind,
    htoolsNext, ok_bind, hchoiceNext, ok_bind, object_assign _ _ hfresh,
    hput.handedOn (by decide), hput.others "stop_sequences" (by decide)]
  rfl

/-! ### The result -/

/-- A chat request with more messages. -/
def grown (chat : Json) (added : List Json) : Json :=
  match chat.get? "messages" with
  | some (.arr messages) => chat.assign "messages" (.arr (messages ++ added))
  | _ => chat

section Calls

variable (protocol : Protocol) {message : Message} {blocks : List Block}

theorem Block.call_perm (hblocks : blocks.Perm message.blocks) :
    (blocks.filterMap (Block.call p protocol)).Perm (message.calls.map fun call =>
      chatCall call.id (.str call.name) (.str (resent p protocol call.arguments))) := by
  have hperm := hblocks.filterMap (Block.call p protocol)
  have hmessage : message.blocks.filterMap (Block.call p protocol) = message.calls.map fun call =>
      chatCall call.id (.str call.name) (.str (resent p protocol call.arguments)) := by
    rw [Message.blocks, List.filterMap_append, List.filterMap_map, List.filterMap_map]
    simp [Function.comp_def, Block.call]
  rwa [hmessage] at hperm

theorem idOf_chatCall (id name arguments : Json) :
    Chat.idOf (chatCall id name arguments) = id.asStr?.getD "" := by
  simp [Chat.idOf, Chat.field, chatCall]

theorem Asks.callable (hasks : Asks p message) (hblocks : blocks.Perm message.blocks) :
    Chat.Callable [] (blocks.filterMap (Block.call p protocol)) := by
  have hperm := Block.call_perm (p := p) protocol hblocks
  refine ⟨fun call hcall => ?_, ?_, fun _ _ h => (by cases h)⟩
  · obtain ⟨own, hown, rfl⟩ := List.mem_map.mp (hperm.mem_iff.mp hcall)
    obtain ⟨⟨text, htext, hid⟩, hname, _⟩ := hasks.named own hown
    rw [hid]
    simp [Chat.callId, Chat.field, chatCall, Json.truthy, hname, Json.asStr?, htext]
  · refine (hperm.map Chat.idOf).nodup_iff.mpr ?_
    rw [List.map_map]
    refine List.Nodup.map_on ?_ (List.Nodup.of_map _ hasks.ids)
    intro x hx y hy hxy
    obtain ⟨⟨a, _, ha⟩, _⟩ := hasks.named x hx
    obtain ⟨⟨b, _, hb⟩, _⟩ := hasks.named y hy
    simp only [Function.comp, idOf_chatCall, ha, hb, Json.asStr?, Option.getD_some] at hxy
    exact List.inj_on_of_nodup_map hasks.ids hx hy (by rw [ha, hb, hxy])

theorem Asks.answers (hblocks : blocks.Perm message.blocks)
    (hresults : (results.map fun result => Json.str result.callId).Perm
      (message.calls.map Call.id)) :
    (results.map ToolResult.callId).Perm
      ((blocks.filterMap (Block.call p protocol)).map Chat.idOf) := by
  have hids := hresults.map fun id => id.asStr?.getD ""
  rw [List.map_map, List.map_map] at hids
  refine hids.trans ?_
  have hperm := (Block.call_perm (p := p) protocol hblocks).map Chat.idOf
  rw [List.map_map] at hperm
  refine List.Perm.trans (.of_eq ?_) hperm.symm
  refine List.map_congr_left fun call _ => ?_
  simp [idOf_chatCall]

theorem Asks.calls_ne_nil (hasks : Asks p message) (hblocks : blocks.Perm message.blocks) :
    blocks.filterMap (Block.call p protocol) ≠ [] := by
  intro hnil
  have hperm := Block.call_perm (p := p) protocol hblocks
  rw [hnil] at hperm
  exact hasks.asked (List.map_eq_nil_iff.mp hperm.nil_eq.symm)

theorem tools_after_text {rest : List Block} (hblocks : blocks.Perm message.blocks)
    (hrest : blocks = (textBlocks message).map Block.text ++ rest) :
    ∀ block ∈ rest, block.isTool = true := by
  rw [hrest, Message.blocks, List.perm_append_left_iff] at hblocks
  intro block hblock
  obtain ⟨call, _, rfl⟩ := List.mem_map.mp (hblocks.mem_iff.mp hblock)
  rfl

end Calls

variable {protocol : Protocol} {checkSchema : Json → Bool} {r : Json} {chat : Completion}
  {blocks : List Block} {output : List Json}

/-- What `normalize` makes of a conversation that goes on with an answer and its results. -/
theorem request_extend (hrequest : request p protocol (.obj fields) = .ok value)
    (hvalid : Chat.validateChat checkSchema value = .ok r) (hasks : Asks p chat.message)
    (hreturned : Returned p protocol chat blocks output)
    (hfirst : protocol = .responses → (textBlocks chat.message).map Block.text <+: blocks)
    (results : List (List ToolResult)) :
    ∃ before, value.isObj = true ∧ value.get? "messages" = some (.arr before) ∧
      request p protocol (extend protocol (.obj fields) output results) =
        .ok (value.assign "messages" (.arr (before ++ replies protocol chat.message.content
          (blocks.filterMap (Block.call p protocol)) results.flatten))) := by
  obtain ⟨hblocks, hreturned⟩ := hreturned
  have hnil := hasks.calls_ne_nil protocol hblocks
  cases protocol with
  | messages =>
    obtain ⟨_, content, hcontent, rfl⟩ := hreturned
    obtain ⟨before, hobj, hbefore, hgoes⟩ := Messages.request_extend hrequest _
    exact ⟨before, hobj, hbefore,
      hgoes _ (Messages.addMessages_answer hblocks hnil hcontent)⟩
  | responses =>
    obtain ⟨_, items, hitems, rfl⟩ := hreturned
    obtain ⟨before, hobj, hbefore, hgoes⟩ := Responses.request_extend hrequest _
    refine ⟨before, hobj, hbefore, hgoes _ ?_⟩
    obtain ⟨rest, hrest⟩ := hfirst rfl
    have hwords : ((textBlocks chat.message).map Block.text).filterMap
        (Block.call p .responses) = [] := by
      simp [Block.call]
    have hcalls : blocks.filterMap (Block.call p .responses) =
        rest.filterMap (Block.call p .responses) := by
      rw [← hrest, List.filterMap_append, hwords, List.nil_append]
    rw [hcalls] at hnil ⊢
    refine Responses.addItems_answer ?_ (fun h => hnil (by rw [h]; rfl))
      (tools_after_text hblocks hrest.symm) (hrest ▸ hitems)
    -- The calls of the last message would still wait for their results.
    intro last hlast first calls hcallsOf
    obtain ⟨messages', hchecked, _⟩ := Chat.validateChat_grows hobj hvalid hbefore
      (show Chat.checkMessages [] [] = .ok ([], []) from rfl)
    have hids := Chat.callIds_last hchecked hlast
    rw [Chat.callIds, Chat.callsOf, hcallsOf] at hids
    cases hids

/-- An answer that is sent back with its results is accepted unless it is too long. -/
theorem normalize_extend (haccepted : normalize p checkSchema protocol (.obj fields) = .ok r)
    (hasks : Asks p chat.message) (hreturned : Returned p protocol chat blocks output)
    (hfirst : protocol = .responses → (textBlocks chat.message).map Block.text <+: blocks)
    {results : List (List ToolResult)}
    (hresults : (results.flatten.map fun result => Json.str result.callId).Perm
      (chat.message.calls.map Call.id)) :
    normalize p checkSchema protocol (extend protocol (.obj fields) output results) = do
      require "chat exceeds 1 MiB" (Chat.dumpSize (grown r (replies protocol chat.message.content
        (blocks.filterMap (Block.call p protocol)) results.flatten)) ≤ 1024 * 1024)
      return grown r (replies protocol chat.message.content
        (blocks.filterMap (Block.call p protocol)) results.flatten) := by
  unfold normalize at haccepted ⊢
  rw [bind_ok] at haccepted
  obtain ⟨value, hrequest, hvalid⟩ := haccepted
  have hvalid : Chat.validateChat checkSchema value = .ok r := by
    cases hresult : Chat.validateChat checkSchema value with
    | error fault =>
      rw [hresult] at hvalid
      cases hvalid
    | ok body =>
      rw [hresult] at hvalid
      cases hvalid
      rfl
  obtain ⟨before, hobj, hbefore, hnext⟩ :=
    request_extend hrequest hvalid hasks hreturned hfirst results
  have hreplies := checkMessages_replies protocol chat.message.content
    (hasks.callable protocol hreturned.1)
    (Asks.answers (p := p) protocol hreturned.1 hresults)
  obtain ⟨messages', _, hmessages, hgrows⟩ :=
    Chat.validateChat_grows hobj hvalid hbefore hreplies
  unfold grown
  rw [hmessages, hnext, ok_bind, hgrows]
  unfold require
  split <;> rfl

/-- **An answer that is sent back with its results is accepted**, and nothing else of the chat
request changes. -/
theorem returned_accepted (p : Codec) (hp : p.Faithful) (checkSchema : Json → Bool)
    (protocol : Protocol) {fields : List (String × Json)} {r : Json}
    (haccepted : normalize p checkSchema protocol (.obj fields) = .ok r) {chat : Completion}
    (hasks : Asks p chat.message) {blocks : List Block} {output : List Json}
    (hreturned : Returned p protocol chat blocks output)
    (hfirst : protocol = .responses → (textBlocks chat.message).map Block.text <+: blocks)
    {results : List (List ToolResult)}
    (hresults : (results.flatten.map fun result => Json.str result.callId).Perm
      (chat.message.calls.map Call.id))
    (hsize : Chat.dumpSize (grown r (replies protocol chat.message.content
      (blocks.filterMap (Block.call p protocol)) results.flatten)) ≤ 1024 * 1024) :
    normalize p checkSchema protocol (extend protocol (.obj fields) output results) =
        .ok (grown r (replies protocol chat.message.content
          (blocks.filterMap (Block.call p protocol)) results.flatten)) ∧
      ∀ call ∈ chat.message.calls,
        p.loads (resent p protocol call.arguments) = p.loads call.arguments := by
  refine ⟨?_, fun call hcall => ?_⟩
  · rw [normalize_extend haccepted hasks hreturned hfirst hresults, require_of hsize]
    rfl
  · obtain ⟨_, _, value, hvalue⟩ := hasks.named call hcall
    cases protocol with
    | responses => rfl
    | messages => rw [resent, hvalue, Option.getD_some, hp _ _ hvalue]

/-! ### A round trip, and two that fail -/

/-- One JSON value is enough here. -/
def sampleCodec : Codec where
  str := sampleStr
  loads text := if text = "{}" then some (.obj []) else none
  dumps _ := "{}"

theorem sampleCodec_faithful : sampleCodec.Faithful := by
  intro text value h
  change (if text = "{}" then some (Json.obj []) else none) = some value at h
  split at h
  · rw [← h]
    rfl
  · cases h

def sampleChat (content : String) : Completion :=
  completion ⟨content, "", [⟨.str "call_a", "time", "{}"⟩]⟩ (.str "tool_calls") 7 9 0 "local/test"
    "r1"

theorem sampleChat_asks (content : String) : Asks sampleCodec (sampleChat content).message := by
  refine ⟨List.cons_ne_nil _ _, List.nodup_singleton _, fun call hcall => ?_⟩
  rw [List.mem_singleton.mp hcall]
  exact ⟨⟨"call_a", by decide, rfl⟩, by decide, [], rfl⟩

def sampleTool : Block := .tool (.str "call_a") (.str "time") "{}"

def sampleMessages : List (String × Json) :=
  [("max_tokens", .int 16),
    ("messages", .arr [chatMessage (.str "user") (.str "What time is it?")])]

/-- A call before its text, in Messages. -/
def sampleContent : List Content :=
  [.toolUse (.str "call_a") (.str "time") (.obj []), .text "Looking."]

theorem returned_accepted_sample : ∃ r,
    normalize sampleCodec (fun _ => true) .messages (.obj sampleMessages) = .ok r ∧
      normalize sampleCodec (fun _ => true) .messages (extend .messages (.obj sampleMessages)
        (sampleContent.map Content.json) [[⟨"call_a", "noon"⟩]]) =
          .ok (grown r (replies .messages "Looking."
            [chatCall (.str "call_a") (.str "time") (.str "{}")] [⟨"call_a", "noon"⟩])) := by
  have hsome : (normalize sampleCodec (fun _ => true) .messages (.obj sampleMessages)).toOption.any
      (fun r => Chat.dumpSize (grown r (replies .messages "Looking."
        [chatCall (.str "call_a") (.str "time") (.str "{}")] [⟨"call_a", "noon"⟩])) ≤
          1024 * 1024) = true := by decide +kernel
  obtain ⟨r, haccepted, hsize⟩ := toOption_any hsome
  have hreturned : Returned sampleCodec .messages (sampleChat "Looking.")
      [sampleTool, .text "Looking."] (sampleContent.map Content.json) :=
    ⟨.swap _ _ _, ⟨_, rfl⟩, sampleContent, rfl, rfl⟩
  have hreplies : replies .messages (sampleChat "Looking.").message.content
      ([sampleTool, .text "Looking."].filterMap (Block.call sampleCodec .messages))
        [[(⟨"call_a", "noon"⟩ : ToolResult)]].flatten =
      replies .messages "Looking." [chatCall (.str "call_a") (.str "time") (.str "{}")]
        [⟨"call_a", "noon"⟩] := rfl
  have hback := returned_accepted sampleCodec sampleCodec_faithful (fun _ => true) .messages
    haccepted (sampleChat_asks _) hreturned (fun h => (by cases h)) (.refl _)
    (by rw [hreplies]; exact of_decide_eq_true hsize)
  exact ⟨r, haccepted, hback.1⟩

def sampleInput : List (String × Json) := [("input", .str "What time is it?")]

/-- A text of `n` letters. -/
def longText (n : Nat) : String := String.ofList (List.replicate n 'a')

theorem size_longText (n : Nat) : Json.stringSize (longText n) = n + 2 := by
  have hletter : Json.charSize 'a' = 1 := by decide
  rw [Json.stringSize, longText, String.toList_ofList, List.map_replicate, List.sum_replicate,
    hletter]
  simp [Nat.add_comm]

theorem size_mem_items {items : List Json} {v : Json} (h : v ∈ items) :
    v.size ≤ Json.sizeItems items := by
  induction items with
  | nil => cases h
  | cons head rest ih =>
    obtain rfl | hrest := List.mem_cons.mp h
    · exact Nat.le_add_right _ _
    · exact Nat.le_trans (ih hrest) (Nat.le_add_left _ _)

theorem size_mem_fields {v : Json} (h : (k, v) ∈ fields) : v.size ≤ Json.sizeFields fields := by
  induction fields with
  | nil => cases h
  | cons head rest ih =>
    rw [Json.sizeFields]
    obtain rfl | hrest := List.mem_cons.mp h
    · rw [Json.sizeField]
      omega
    · exact Nat.le_trans (ih hrest) (Nat.le_add_left _ _)

theorem size_within {part : Json} (h : Json.Within part value) : part.size ≤ value.size := by
  induction h with
  | here => exact Nat.le_refl _
  | item hv _ ih =>
    have hitem := size_mem_items hv
    rw [Json.size]
    omega
  | field hv _ ih =>
    have hfield := size_mem_fields hv
    rw [Json.size]
    omega

theorem size_grown {r : Json} {old : List Json} (hold : r.get? "messages" = some (.arr old))
    {added : List Json} (hmem : message ∈ added) {text : String}
    (htext : message.get? "content" = some (.str text)) :
    Json.stringSize text ≤ Chat.dumpSize (grown r added) := by
  have hmessages : (grown r added).get? "messages" = some (.arr (old ++ added)) := by
    unfold grown
    rw [hold, Json.get?_assign, if_pos rfl, hold]
    rfl
  have hwithin : Json.Within (.str text) (grown r added) :=
    Json.within_get? hmessages (.item (List.mem_append_right _ hmem) (Json.within_get? htext .here))
  have hsize := size_within hwithin
  exact Nat.le_trans hsize (Nat.le_add_right _ _)

theorem long_refused {content : String} (hlong : 1024 * 1024 < Json.stringSize content) {r : Json}
    (haccepted : normalize sampleCodec (fun _ => true) .responses (.obj sampleInput) = .ok r)
    {old : List Json} (hold : r.get? "messages" = some (.arr old)) :
    ∃ blocks output, Returned sampleCodec .responses (sampleChat content) blocks output ∧
      normalize sampleCodec (fun _ => true) .responses (extend .responses (.obj sampleInput) output
        [[⟨"call_a", "noon"⟩]]) = .error "chat exceeds 1 MiB" := by
  have hsome : content ≠ "" := by
    intro h
    rw [h] at hlong
    exact absurd hlong (by decide)
  have htexts : textBlocks (sampleChat content).message = [content] := if_neg hsome
  have hblocks : (sampleChat content).message.blocks = [.text content, sampleTool] := by
    rw [Message.blocks, htexts]
    rfl
  have hreturned : Returned sampleCodec .responses (sampleChat content) [.text content, sampleTool]
      ([Item.message ("msg_" ++ (sampleChat content).id) "completed" (some content),
        .functionCall "fc_call_a" "completed" (.str "call_a") (.str "time") "{}"].map Item.json) :=
    ⟨.of_eq hblocks.symm, ⟨_, rfl⟩, _, rfl, rfl⟩
  have hresults : ([[⟨"call_a", "noon"⟩]].flatten.map fun result : ToolResult =>
      Json.str result.callId).Perm ((sampleChat content).message.calls.map Call.id) := .refl _
  have hback := normalize_extend haccepted (sampleChat_asks content) hreturned
    (fun _ => ⟨[sampleTool], by rw [htexts]; rfl⟩) hresults
  refine ⟨_, _, hreturned, ?_⟩
  rw [hback]
  have htext : chatMessage (.str "assistant") (.str content) ∈ replies .responses
      (sampleChat content).message.content ([.text content, sampleTool].filterMap
        (Block.call sampleCodec .responses)) [[(⟨"call_a", "noon"⟩ : ToolResult)]].flatten := by
    have hcontent : (sampleChat content).message.content = content := rfl
    unfold replies
    rw [hcontent, if_neg hsome]
    exact List.mem_append_left _ (List.mem_append_left _ (List.mem_singleton_self _))
  have hfield : (chatMessage (.str "assistant") (.str content)).get? "content" =
      some (.str content) := by
    simp [chatMessage]
  have hsize := size_grown hold htext hfield
  unfold require
  rw [if_neg (by omega)]
  rfl

/-- **Two answers that are refused when they are sent back**: one with a text of a mebibyte, which
is too long, and one of Responses whose call came before its text. -/
theorem returned_refused :
    (∃ r, normalize sampleCodec (fun _ => true) .responses (.obj sampleInput) = .ok r) ∧
    (∃ blocks output, Returned sampleCodec .responses (sampleChat (longText (1024 * 1024))) blocks
        output ∧
      normalize sampleCodec (fun _ => true) .responses (extend .responses (.obj sampleInput) output
        [[⟨"call_a", "noon"⟩]]) = .error "chat exceeds 1 MiB") ∧
    ∃ output, Returned sampleCodec .responses (sampleChat "Looking.") [sampleTool, .text "Looking."]
        output ∧
      normalize sampleCodec (fun _ => true) .responses (extend .responses (.obj sampleInput) output
        [[⟨"call_a", "noon"⟩]]) = .error "all tool results must precede the next message" := by
  have hsome : (normalize sampleCodec (fun _ => true) .responses
      (.obj sampleInput)).toOption.any (fun r => r.get? "messages" =
        some (.arr [chatMessage (.str "user") (.str "What time is it?")])) = true := by
    decide +kernel
  obtain ⟨r, haccepted, hmessages⟩ := toOption_any hsome
  refine ⟨⟨r, haccepted⟩, ?_, ?_⟩
  · refine long_refused ?_ haccepted (of_decide_eq_true hmessages)
    rw [size_longText]
    omega
  · refine ⟨[Item.functionCall "fc_call_a" "completed" (.str "call_a") (.str "time") "{}",
      .message "msg_chatcmpl-r1" "completed" (some "Looking.")].map Item.json,
      ⟨.swap _ _ _, ⟨_, rfl⟩, _, rfl, rfl⟩, ?_⟩
    decide +kernel

end Api
