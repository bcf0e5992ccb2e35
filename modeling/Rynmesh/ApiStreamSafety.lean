import Rynmesh.ApiStreamFinish

/-!
# A streamed answer and the whole answer

`stream_meets_iff`: a stream shows the answer that `convert_response` writes exactly when every
call keeps to its index, its identifier and its name.
-/

namespace Api

open Checked

variable {p : Platform}

/-! ### The whole answer by its blocks -/

/-- The content of a block that is complete. -/
def Block.content (p : Platform) : Block → Option Content
  | .text content => some (.text content)
  | .tool id name arguments => (p.loads arguments).map (.toolUse id name)

theorem map_some_mapM {α β : Type} {f : α → Except String β} {g : α → Option β}
    {items : List α} {results : List β} (h : items.mapM f = .ok results)
    (hread : ∀ a b, f a = .ok b → g a = some b) : results.map some = items.map g := by
  have hall := mapM_forall₂ h
  clear h
  induction hall with
  | nil => rfl
  | cons hab _ ih => rw [List.map_cons, List.map_cons, ih, hread _ _ hab]

theorem convertMessages_blocks {chat : Completion} {answer : MessagesAnswer}
    (h : convertMessages p chat = .ok answer) :
    answer.content.map some = chat.message.blocks.map (Block.content p) := by
  unfold convertMessages at h
  simp only [bind_ok, pure_ok] at h
  obtain ⟨calls, hcalls, rfl⟩ := h
  rw [Message.blocks, List.map_append, List.map_append, List.map_map, List.map_map, List.map_map]
  refine congrArg₂ _ rfl (map_some_mapM hcalls ?_)
  intro call content h
  simp only [bind_ok, demand_ok, pure_ok] at h
  obtain ⟨input, hinput, rfl⟩ := h
  simp [Block.content, hinput]

theorem convertResponses_blocks {chat : Completion} {answer : Response}
    (h : convertResponses chat = .ok answer) :
    answer.output.map some = chat.message.blocks.map (Block.item chat.id) := by
  unfold convertResponses at h
  simp only [bind_ok, pure_ok] at h
  obtain ⟨calls, hcalls, rfl⟩ := h
  rw [Message.blocks, List.map_append, List.map_append, List.map_map, List.map_map, List.map_map]
  refine congrArg₂ _ rfl (map_some_mapM hcalls ?_)
  intro call item h
  simp only [bind_ok, pure_ok] at h
  obtain ⟨id, hid, rfl⟩ := h
  simp [Block.item, hid, Except.toOption]

/-- The identifier and the name of a call. -/
def Content.tool : Content → Option (Json × Json)
  | .text _ => none
  | .toolUse id name _ => some (id, name)

def Item.tool : Item → Option (Json × Json)
  | .message _ _ _ => none
  | .functionCall _ _ id name _ => some (id, name)

theorem tools_of_read {α : Type} {read : Block → Option α} {tool : α → Option (Json × Json)}
    (hread : ∀ block a, read block = some a → tools [block] = (tool a).toList)
    {blocks : List Block} {answer : List α} (h : answer.map some = blocks.map read) :
    tools blocks = answer.filterMap tool := by
  induction blocks generalizing answer with
  | nil =>
    rw [List.map_nil, List.map_eq_nil_iff] at h
    subst h
    rfl
  | cons block rest ih =>
    cases answer with
    | nil => cases h
    | cons a answer =>
      rw [List.map_cons, List.map_cons, List.cons.injEq] at h
      have hsplit : tools (block :: rest) = tools [block] ++ tools rest := by
        rw [tools, tools, tools, ← List.filterMap_append, List.singleton_append]
      rw [hsplit, hread block a h.1.symm, ih h.2]
      cases htool : tool a <;> simp [htool]

theorem tools_of_content (block : Block) (content : Content) (h : block.content p = some content) :
    tools [block] = content.tool.toList := by
  cases block with
  | text text =>
    cases h
    rfl
  | tool id name arguments =>
    obtain ⟨input, _, rfl⟩ := Option.map_eq_some_iff.mp h
    rfl

theorem tools_of_item {chatId : String} (block : Block) (item : Item)
    (h : block.item chatId = some item) : tools [block] = item.tool.toList := by
  cases block with
  | text text =>
    cases h
    rfl
  | tool id name arguments =>
    obtain ⟨item', _, rfl⟩ := Option.map_eq_some_iff.mp h
    rfl

theorem tools_perm {α : Type} {read : Block → Option α} {tool : α → Option (Json × Json)}
    (hread : ∀ block a, read block = some a → tools [block] = (tool a).toList)
    {blocks whole : List Block} {answer : List α} (h : answer.map some = whole.map read)
    (hperm : (blocks.map read).Perm (answer.map some)) : (tools blocks).Perm (tools whole) := by
  obtain ⟨shown, hshown⟩ : ∃ shown : List α, shown.map some = blocks.map read := by
    have hsome : ∀ o ∈ blocks.map read, ∃ a, o = some a := by
      intro o ho
      obtain ⟨a, _, ha⟩ := List.mem_map.mp (hperm.mem_iff.mp ho)
      exact ⟨a, ha.symm⟩
    refine ⟨(blocks.map read).filterMap id, ?_⟩
    generalize blocks.map read = options at hsome
    induction options with
    | nil => rfl
    | cons o rest ih =>
      obtain ⟨a, rfl⟩ := hsome o (.head _)
      rw [List.filterMap_cons, id, List.map_cons,
        ih fun o ho => hsome o (.tail _ ho)]
  rw [tools_of_read hread h, tools_of_read hread hshown]
  refine List.Perm.filterMap tool ?_
  rw [← hshown] at hperm
  exact (List.map_perm_map_iff (Option.some_injective α)).mp hperm

/-! ### What a client is shown -/

/-- The blocks are those of the whole answer, and the final response has them in their order. -/
def Answered (p : Platform) (s : StreamFormat) (chat : Completion) (events : List Event)
    (blocks : List Block) : Prop :=
  match s.protocol with
  | .messages => ∃ answer, convertMessages p chat = .ok answer ∧
      (blocks.map (Block.content p)).Perm (answer.content.map some)
  | .responses => ∃ answer, convertResponses chat = .ok answer ∧
      (blocks.map (Block.item s.chatId)).Perm (answer.output.map some) ∧
      ∃ kind output, .response kind { answer with output } ∈ events ∧
        output.map some = blocks.map (Block.item s.chatId)

/-- What was sent is numbered, and opens, extends and closes the blocks of the answer. -/
structure Agrees (p : Platform) (s : StreamFormat) (chat : Completion) (all : List Sent) :
    Prop where
  numbered : Numbered s.protocol all
  shown : ∃ shown, readEvents s.chatId [] (all.map Sent.event) = some shown ∧
    (∀ x ∈ shown, x.closed = true) ∧
    Answered p s chat (all.map Sent.event) (shown.map Shown.block)

/-- The stream ends, and agrees with the whole answer. -/
def Meets (p : Platform) (s : StreamFormat) (sent : List Sent) (a : Accumulator)
    (inputTokens outputTokens created : Int) : Prop :=
  ∃ message, a.message = .ok message ∧
    ∃ s' last, s.finish p (completion message a.finishReason inputTokens outputTokens created
      s.model s.taskId) = .ok (s', last) ∧
    Agrees p s (completion message a.finishReason inputTokens outputTokens created s.model s.taskId)
      (sent ++ last)

section Result

variable {s start : StreamFormat} {pieces : List Piece} {sent : List Sent} {chat : Completion}

theorem blocks_shut (built : List Built) :
    (shut built).map Shown.block = built.map Built.block := by
  simp [shut]

/-- The events of `finish` close the blocks, when they are all that changes them. -/
theorem Following.closes (h : Following p start pieces s sent) {closed : List (List Event)}
    (hclosed : s.blocks.entries.mapM s.closeBlock = .ok closed) (last : List Event)
    (hlast : ∀ shown, readEvents s.chatId shown last = some shown) :
    Numbered s.protocol (sent ++ (s.send (closed.flatten ++ last)).2) ∧
      (sent ++ (s.send (closed.flatten ++ last)).2).map Sent.event =
        sent.map Sent.event ++ (closed.flatten ++ last) ∧
      readEvents s.chatId [] ((sent ++ (s.send (closed.flatten ++ last)).2).map Sent.event) =
        some (shut (assembled p pieces)) := by
  have hevents : (sent ++ (s.send (closed.flatten ++ last)).2).map Sent.event =
      sent.map Sent.event ++ (closed.flatten ++ last) := by
    rw [List.map_append, map_event_send]
  have hid : s.chatId = start.chatId := by
    rw [StreamFormat.chatId, StreamFormat.chatId, h.taskId]
  obtain ⟨closed', hclosed', hread⟩ := h.holds.close
  rw [hclosed, Except.ok.injEq] at hclosed'
  subst hclosed'
  refine ⟨?_, hevents, ?_⟩
  · have hnumbered := (h.sends.send (closed.flatten ++ last)).1
    obtain ⟨n, hsame⟩ := same_send s (closed.flatten ++ last)
    rw [hsame] at hnumbered
    exact hnumbered
  · rw [hevents, readEvents_append, hid, h.read, Option.bind_some, ← hid, readEvents_append, hread,
      Option.bind_some, hlast]

/-- **A stream that agrees is whole.** -/
theorem Following.whole (h : Following p start pieces s sent) (hp : p.Faithful)
    (hfits : ∀ part ∈ partsOf pieces, part.Fits) (hdistinct : Distinct (partsOf pieces))
    {a : Accumulator} (hjoined : a.joined = joinedOf pieces)
    {inputTokens outputTokens created : Int}
    (hmeets : Meets p s sent a inputTokens outputTokens created) : Whole p (partsOf pieces) := by
  obtain ⟨message, hmessage, s', last, hfinish, hagrees⟩ := hmeets
  have hsortable := (message_total hjoined).mp ⟨message, hmessage⟩
  obtain ⟨_, keys, hkeys, hcalls⟩ := message_ok hjoined hmessage
  obtain ⟨shown, hread, _, hanswered⟩ := hagrees.shown
  have hopens : ∀ first ∈ firsts (assembled p pieces),
      given first.fragment.id = true ∧ given first.fragment.name = true := by
    intro first hfirst
    obtain ⟨arguments, hcall⟩ := mem_firsts.mp hfirst
    exact ⟨(h.holds.opens first arguments hcall).1, (h.holds.opens first arguments hcall).2.1⟩
  have htools : (tools ((assembled p pieces).map Built.block)).Perm (tools message.blocks) := by
    unfold StreamFormat.finish at hfinish
    unfold Answered at hanswered
    cases hprotocol : s.protocol with
    | messages =>
      simp only [hprotocol, bind_ok, pure_ok] at hfinish hanswered
      obtain ⟨final, _, closed, hclosed, heq⟩ := hfinish
      obtain ⟨_, _, hshut⟩ := h.closes hclosed [.messageDelta final.stopReason
        final.inputTokens final.outputTokens, .messageStop] fun shown => rfl
      rw [heq, hread, Option.some.injEq] at hshut
      obtain ⟨answer, hanswer, hperm⟩ := hanswered
      rw [hshut, blocks_shut] at hperm
      exact tools_perm tools_of_content (convertMessages_blocks hanswer) hperm
    | responses =>
      simp only [hprotocol, bind_ok, pure_ok] at hfinish hanswered
      obtain ⟨final, _, closed, hclosed, output, _, heq⟩ := hfinish
      obtain ⟨_, _, hshut⟩ := h.closes hclosed
        [.response ("response." ++ final.status) { final with output }] fun shown => rfl
      rw [heq, hread, Option.some.injEq] at hshut
      obtain ⟨answer, hanswer, hperm, _⟩ := hanswered
      rw [hshut, blocks_shut] at hperm
      exact tools_perm tools_of_item (convertResponses_blocks hanswer) hperm
  rw [tools_built, tools_message, hcalls] at htools
  exact whole_of_tools hp hfits hopens hdistinct hsortable hkeys htools

theorem itemId_ok {id : Json} {item : String} (h : itemId id = .ok item) :
    ∃ text, id = .str text ∧ item = "fc_" ++ text := by
  unfold itemId at h
  simp only [bind_ok, demand_ok, pure_ok] at h
  obtain ⟨text, htext, rfl⟩ := h
  cases id with
  | str own =>
    rw [Json.asStr?, Option.some.injEq] at htext
    exact ⟨text, by rw [htext], rfl⟩
  | _ => cases htext

theorem Following.itemIds_nodup (h : Following p start pieces s sent)
    (hprotocol : s.protocol = .responses) (hdistinct : Distinct (partsOf pieces))
    (hwhole : Whole p (partsOf pieces)) :
    ((assembled p pieces).map fun b => b.block.itemId s.chatId).Nodup := by
  have hkeys := h.holds.nodup
  have hcall : ∀ first arguments, Built.call first arguments ∈ assembled p pieces →
      ∃ text, first.id = .str text ∧ given first.fragment.id = true ∧ first ∈ partsOf pieces ∧
        (Built.call first arguments).block.itemId s.chatId = some ("fc_" ++ text) := by
    intro first arguments hmem
    obtain ⟨hgiven, _, hitem⟩ := h.holds.opens first arguments hmem
    obtain ⟨item, hitem⟩ := hitem hprotocol
    obtain ⟨text, htext, hid⟩ := itemId_ok hitem
    refine ⟨text, htext, hgiven, firsts_mem (mem_firsts.mpr ⟨arguments, hmem⟩), ?_⟩
    simp [Built.block, Block.itemId, Block.item, hitem, Except.toOption, Item.id, hid]
  have hapart : ∀ a b : String, "msg_" ++ a ≠ "fc_" ++ b := by
    intro a b heq
    have hlist := congrArg (fun text => text.toList.head?) heq
    simp [String.toList_append] at hlist
  refine List.Nodup.map_on ?_ (List.Nodup.of_map _ hkeys)
  intro x hx y hy hxy
  refine List.inj_on_of_nodup_map hkeys hx hy ?_
  cases x with
  | text content =>
    cases y with
    | text other => rfl
    | call first arguments =>
      obtain ⟨text, _, _, _, hid⟩ := hcall first arguments hy
      rw [hid] at hxy
      exact absurd (Option.some.inj hxy) (hapart _ _)
  | call first arguments =>
    obtain ⟨text, htext, hgiven, hmem, hid⟩ := hcall first arguments hx
    rw [hid] at hxy
    cases y with
    | text content => exact absurd (Option.some.inj hxy).symm (hapart _ _)
    | call other more =>
      obtain ⟨text', htext', hgiven', hmem', hid'⟩ := hcall other more hy
      rw [hid', Option.some.injEq, String.append_right_inj] at hxy
      exact hwhole.spelling first hmem other hmem'
        (hdistinct first hmem other hmem' hgiven hgiven' (by rw [htext, htext', hxy]))

/-- **A whole stream agrees.** -/
theorem Following.meets (h : Following p start pieces s sent) (hp : p.Faithful)
    (hfits : ∀ part ∈ partsOf pieces, part.Fits) (hdistinct : Distinct (partsOf pieces))
    {a : Accumulator} (hjoined : a.joined = joinedOf pieces)
    (hjson : ∀ key call, a.calls.get? key = some call →
      ∃ fields, p.loads call.arguments = some (.obj fields))
    (hwhole : Whole p (partsOf pieces)) (inputTokens outputTokens created : Int) :
    Meets p s sent a inputTokens outputTokens created := by
  obtain ⟨message, hmessage⟩ := (message_total hjoined).mpr hwhole.sortable
  obtain ⟨hcontent, keys, hkeys, hcalls⟩ := message_ok hjoined hmessage
  have hopens : ∀ first ∈ firsts (assembled p pieces),
      given first.fragment.id = true ∧ given first.fragment.name = true := by
    intro first hfirst
    obtain ⟨arguments, hcall⟩ := mem_firsts.mp hfirst
    exact ⟨(h.holds.opens first arguments hcall).1, (h.holds.opens first arguments hcall).2.1⟩
  have hperm := blocks_perm hp hfits h.holds.nodup hopens hdistinct hwhole hcontent hkeys hcalls
  have hcallsEq : a.calls = (joinedOf pieces).calls := by rw [← hjoined]; rfl
  generalize hchat : completion message a.finishReason inputTokens outputTokens created s.model
    s.taskId = chat
  have hchatMessage : chat.message = message := by rw [← hchat]; rfl
  have hchatId : chat.id = s.chatId := by rw [← hchat]; rfl
  obtain ⟨closed, hclosed, _⟩ := h.holds.close
  refine ⟨message, hmessage, ?_⟩
  rw [hchat]
  unfold StreamFormat.finish
  cases hprotocol : s.protocol with
  | messages =>
    obtain ⟨calls, hread⟩ : ∃ calls, (chat.message.calls.mapM fun call => do
        let input ← demand "JSONDecodeError" (p.loads call.arguments)
        return Content.toolUse call.id (.str call.name) input) = .ok calls := by
      refine mapM_total fun call hcall => ?_
      rw [hchatMessage, hcalls] at hcall
      obtain ⟨key, _, hget⟩ := List.mem_filterMap.mp hcall
      obtain ⟨fields, hfields⟩ := hjson key call (hcallsEq ▸ hget)
      exact ⟨_, by rw [hfields]; rfl⟩
    obtain ⟨final, hfinal⟩ : ∃ final, convertMessages p chat = .ok final :=
      ⟨_, by unfold convertMessages; rw [hread]; rfl⟩
    obtain ⟨hnumbered, hevents, hshut⟩ := h.closes hclosed [.messageDelta
      final.stopReason final.inputTokens final.outputTokens, .messageStop] fun shown => rfl
    refine ⟨_, _, by rw [hfinal, hclosed]; rfl, ⟨hnumbered, _, hshut, by simp [shut], ?_⟩⟩
    unfold Answered
    rw [hprotocol]
    refine ⟨final, hfinal, ?_⟩
    rw [blocks_shut, convertMessages_blocks hfinal, hchatMessage]
    exact hperm.map _
  | responses =>
    have hid : ∀ call ∈ message.calls, ∃ item, itemId call.id = .ok item := by
      intro call hcall
      have hblock : Block.tool call.id (.str call.name) call.arguments ∈ message.blocks :=
        List.mem_append_right _ (List.mem_map.mpr ⟨call, hcall, rfl⟩)
      obtain ⟨b, hb, heq⟩ := List.mem_map.mp (hperm.mem_iff.mpr hblock)
      cases b with
      | text content => cases heq
      | call first arguments =>
        rw [Built.block, Block.tool.injEq] at heq
        rw [← heq.1]
        exact (h.holds.opens first arguments hb).2.2 hprotocol
    obtain ⟨calls, hread⟩ : ∃ calls, (chat.message.calls.mapM fun call => do
        return Item.functionCall (← itemId call.id) "completed" call.id (.str call.name)
          call.arguments) = .ok calls := by
      refine mapM_total fun call hcall => ?_
      rw [hchatMessage] at hcall
      obtain ⟨item, hitem⟩ := hid call hcall
      exact ⟨_, by rw [hitem]; rfl⟩
    obtain ⟨final, hfinal⟩ : ∃ final, convertResponses chat = .ok final :=
      ⟨_, by unfold convertResponses; rw [hread]; rfl⟩
    have hsame : ((assembled p pieces).map fun b => b.block.item s.chatId).Perm
        (final.output.map some) := by
      rw [convertResponses_blocks hfinal, hchatMessage, hchatId]
      have hmap := hperm.map (Block.item s.chatId)
      rwa [List.map_map] at hmap
    have hnodup : (final.output.map Item.id).Nodup := by
      have hids := hsame.map (Option.map Item.id)
      rw [List.map_map, List.map_map] at hids
      have hsome := hids.nodup_iff.mp (h.itemIds_nodup hprotocol hdistinct hwhole)
      have hfun : (Option.map Item.id ∘ some) = (some ∘ Item.id) := rfl
      rw [hfun, ← List.map_map] at hsome
      exact List.Nodup.of_map _ hsome
    obtain ⟨output, houtput, hitems⟩ := h.holds.reordered hprotocol hnodup hsame
    obtain ⟨hnumbered, hevents, hshut⟩ := h.closes hclosed
      [.response ("response." ++ final.status) { final with output }] fun shown => rfl
    refine ⟨_, _, by rw [hfinal, hclosed, ok_bind, ok_bind, houtput]; rfl,
      ⟨hnumbered, _, hshut, by simp [shut], ?_⟩⟩
    have hblocks : (assembled p pieces).map (fun b => b.block.item s.chatId) =
        ((shut (assembled p pieces)).map Shown.block).map (Block.item s.chatId) := by
      rw [blocks_shut, List.map_map]
      rfl
    rw [hblocks] at hsame hitems
    unfold Answered
    rw [hprotocol]
    refine ⟨final, hfinal, hsame, "response." ++ final.status, output, ?_, hitems⟩
    rw [hevents]
    simp

end Result

/-! ### The result -/

section Stream

variable {protocol : Protocol} {model taskId : String} {created : Int} {chunks : List Json}
  {a : Accumulator} {s : StreamFormat} {sent : List Sent}

/-- The formatter after the chunks that both readers take. -/
theorem follows_stream (hadd : chunks.foldlM Accumulator.add .empty = .ok a)
    (hdelta : (StreamFormat.new protocol model taskId created).start.1.deltas p chunks =
      .ok (s, sent)) :
    ∃ pieces, streamParts chunks = partsOf pieces ∧ a.joined = joinedOf pieces ∧
      (∀ part ∈ partsOf pieces, part.Fits) ∧
      Following p (.new protocol model taskId created) pieces s
        ((StreamFormat.new protocol model taskId created).start.2 ++ sent) := by
  have hstart := Following.start (p := p) protocol model taskId created
  obtain ⟨pieces, new, hpieces, hsent, hjoined, hfits, hfollowing⟩ :=
    hstart.run (a := .empty) rfl (by simp [partsOf]) hadd hdelta
  rw [List.nil_append] at hsent hjoined hfits hfollowing
  rw [← hsent] at hfollowing
  exact ⟨pieces, by rw [streamParts, hpieces], hjoined, hfits, hfollowing⟩

/-- A stream that shows the whole answer has calls that keep to themselves. -/
theorem whole_stream (hp : p.Faithful) (hadd : chunks.foldlM Accumulator.add .empty = .ok a)
    (hdelta : (StreamFormat.new protocol model taskId created).start.1.deltas p chunks =
      .ok (s, sent)) (hdistinct : Distinct (streamParts chunks))
    {inputTokens outputTokens createdAt : Int}
    (hmeets : Meets p s ((StreamFormat.new protocol model taskId created).start.2 ++ sent) a
      inputTokens outputTokens createdAt) : Whole p (streamParts chunks) := by
  obtain ⟨pieces, hparts, hjoined, hfits, hfollowing⟩ := follows_stream hadd hdelta
  rw [hparts] at hdistinct ⊢
  exact hfollowing.whole hp hfits hdistinct hjoined hmeets

end Stream

/-- **A stream shows the whole answer exactly when every call keeps to itself.** -/
theorem stream_meets_iff (p : Platform) (hp : p.Faithful) (protocol : Protocol)
    (model taskId : String) (created : Int) {chunks : List Json} {a : Accumulator}
    {s : StreamFormat} {sent : List Sent}
    (hadd : chunks.foldlM Accumulator.add .empty = .ok a)
    (hdelta : (StreamFormat.new protocol model taskId created).start.1.deltas p chunks =
      .ok (s, sent))
    (hjson : ∀ key call, a.calls.get? key = some call →
      ∃ fields, p.loads call.arguments = some (.obj fields))
    (hdistinct : Distinct (streamParts chunks)) (inputTokens outputTokens createdAt : Int) :
    Meets p s ((StreamFormat.new protocol model taskId created).start.2 ++ sent) a inputTokens
      outputTokens createdAt ↔ Whole p (streamParts chunks) := by
  constructor
  · intro hmeets
    exact whole_stream hp hadd hdelta hdistinct hmeets
  · intro hwhole
    obtain ⟨pieces, hparts, hjoined, hfits, hfollowing⟩ := follows_stream hadd hdelta
    rw [hparts] at hdistinct hwhole
    exact hfollowing.meets hp hfits hdistinct hjoined hjson hwhole inputTokens outputTokens
      createdAt

/-! ### Two streams -/

/-- Texts as they are, the first two indexes in digits, and every other value in code. -/
def sampleStr : Json → String
  | .str s => s
  | .int 0 => "0"
  | .int 1 => "1"
  | value => String.ofList value.encode

def samplePlatform : Platform where
  str := sampleStr
  loads text :=
    if text = "\x7b\"city\":\"Oslo\"\x7d" then some (.obj [("city", .str "Oslo")])
    else if text = "{}" then some (.obj []) else none

theorem samplePlatform_faithful : samplePlatform.Faithful := by
  have hcode : ∀ value key, hashKey value = some key → key.isNumber = true →
      value = .int 0 ∧ sampleStr value = "0" ∨ value = .int 1 ∧ sampleStr value = "1" ∨
        sampleStr value = String.ofList value.encode := by
    intro value key hkey hnumber
    unfold sampleStr
    split
    · cases hkey
      cases hnumber
    · exact Or.inl ⟨rfl, rfl⟩
    · exact Or.inr (Or.inl ⟨rfl, rfl⟩)
    · exact Or.inr (Or.inr rfl)
  have hapart : ∀ (value : Json) (text : String), text = "0" ∨ text = "1" →
      text ≠ String.ofList value.encode := by
    intro value text htext heq
    have hhead := congrArg (fun t => t.toList.head?) heq
    obtain rfl | rfl := htext <;> cases value <;> simp [Json.encode] at hhead
    all_goals split at hhead <;> simp at hhead
  refine ⟨fun _ => rfl, fun x y kx ky hx hy hxn hyn hstr => ?_⟩
  have hsame : x = y := by
    change sampleStr x = sampleStr y at hstr
    obtain ⟨rfl, hx'⟩ | ⟨rfl, hx'⟩ | hx' := hcode x kx hx hxn <;>
      obtain ⟨rfl, hy'⟩ | ⟨rfl, hy'⟩ | hy' := hcode y ky hy hyn <;>
      replace hstr := hx'.symm.trans (hstr.trans hy')
    · rfl
    · exact absurd hstr (by decide)
    · exact absurd hstr (hapart y _ (Or.inl rfl))
    · exact absurd hstr (by decide)
    · rfl
    · exact absurd hstr (hapart y _ (Or.inr rfl))
    · exact absurd hstr.symm (hapart x _ (Or.inl rfl))
    · exact absurd hstr.symm (hapart x _ (Or.inr rfl))
    · exact Json.encode_injective hstr
  rw [hsame, hy, Option.some.injEq] at hx
  exact hx.symm

def sampleFragment (index : Int) (head : List (String × Json))
    (function : List (String × Json)) : Json :=
  .obj ([("index", .int index)] ++ head ++ [("function", .obj function)])

def sampleChunk (delta : List (String × Json)) : Json :=
  .obj [("choices", .arr [.obj [("index", .int 0), ("delta", .obj delta)]])]

/-- Two calls whose fragments alternate, and a text between them. -/
def sampleChunks : List Json :=
  [sampleChunk [("tool_calls", .arr [sampleFragment 0 [("id", .str "call_a")]
      [("name", .str "weather"), ("arguments", .str "\x7b\"city\":")]])],
    sampleChunk [("content", .str "Looking."), ("tool_calls", .arr [sampleFragment 1
      [("id", .str "call_b")] [("name", .str "time"), ("arguments", .str "{}")]])],
    sampleChunk [("tool_calls", .arr [sampleFragment 0 [] [("arguments", .str "\"Oslo\"\x7d")]])]]

def samplePart (index : Int) (id name : Option String) (arguments : String) : Part where
  fragment := ⟨.int index, id.map .str, name.map .str, some (.str arguments)⟩
  key := .number index
  name := name.getD ""
  arguments := arguments

theorem sampleParts : streamParts sampleChunks =
    [samplePart 0 (some "call_a") (some "weather") "\x7b\"city\":",
      samplePart 1 (some "call_b") (some "time") "{}",
      samplePart 0 none none "\"Oslo\"\x7d"] := rfl

/-- The arguments of the calls can be loaded. -/
def loadable (p : Platform) (a : Accumulator) : Bool :=
  a.calls.entries.all fun e => ((p.loads e.2.arguments).map Json.isObj).getD false

theorem loadable_of {a : Accumulator} (h : loadable p a = true) {key : Key} {call : Call}
    (hcall : a.calls.get? key = some call) :
    ∃ fields, p.loads call.arguments = some (.obj fields) := by
  have hentry := List.all_eq_true.mp h _ (Dict.get?_eq_some_iff.mp hcall)
  cases hloads : p.loads call.arguments with
  | none =>
    rw [hloads] at hentry
    cases hentry
  | some value =>
    rw [hloads] at hentry
    cases value with
    | obj fields => exact ⟨fields, rfl⟩
    | _ => cases hentry

theorem stream_meets_iff_sample : ∃ a s sent,
    sampleChunks.foldlM Accumulator.add .empty = .ok a ∧
      (StreamFormat.new .responses "local/test" "r1" 0).start.1.deltas samplePlatform sampleChunks =
        .ok (s, sent) ∧
      Meets samplePlatform s ((StreamFormat.new .responses "local/test" "r1" 0).start.2 ++ sent) a
        7 9 0 := by
  have hsome : (sampleChunks.foldlM Accumulator.add .empty).toOption.any
      (loadable samplePlatform) = true := by decide +kernel
  obtain ⟨a, hadd, hload⟩ := toOption_any hsome
  have hsent : ((StreamFormat.new .responses "local/test" "r1" 0).start.1.deltas samplePlatform
      sampleChunks).toOption.isSome = true := by decide +kernel
  obtain ⟨⟨s, sent⟩, hdelta⟩ := toOption_isSome hsent
  refine ⟨a, s, sent, hadd, hdelta, (stream_meets_iff samplePlatform samplePlatform_faithful
    .responses "local/test" "r1" 0 hadd hdelta (fun _ _ => loadable_of hload) ?_ 7 9 0).mpr ?_⟩
  · rw [sampleParts]
    unfold Distinct
    decide +kernel
  · rw [sampleParts]
    refine ⟨Or.inl (by decide), by decide +kernel, fun key first rest h => ?_⟩
    by_cases hzero : key = .number (0 : Int)
    · subst hzero
      cases h
      exact ⟨rfl, by decide⟩
    by_cases hone : key = .number (1 : Int)
    · subst hone
      cases h
      exact ⟨rfl, by decide⟩
    have hempty : ofCall key [samplePart 0 (some "call_a") (some "weather") "\x7b\"city\":",
        samplePart 1 (some "call_b") (some "time") "{}",
        samplePart 0 none none "\"Oslo\"\x7d"] = [] := by
      simp only [ofCall, List.filter_cons, samplePart, Ne.symm hzero, Ne.symm hone]
      rfl
    rw [hempty] at h
    cases h

/-- A call whose name comes in two fragments. -/
def sampleNamed : List Json :=
  [sampleChunk [("tool_calls", .arr [sampleFragment 0 [("id", .str "call_a")]
      [("name", .str "get_"), ("arguments", .str "{}")]])],
    sampleChunk [("tool_calls", .arr [sampleFragment 0 [] [("name", .str "weather")]])]]

/-- **A name in two fragments is whole in the answer, and only begun in the events.** -/
theorem split_name_disagrees : ∃ a s sent,
    sampleNamed.foldlM Accumulator.add .empty = .ok a ∧
      (StreamFormat.new .messages "local/test" "r1" 0).start.1.deltas samplePlatform sampleNamed =
        .ok (s, sent) ∧
      loadable samplePlatform a = true ∧ Distinct (streamParts sampleNamed) ∧
      ¬ Meets samplePlatform s ((StreamFormat.new .messages "local/test" "r1" 0).start.2 ++ sent) a
        7 9 0 := by
  have hsome : (sampleNamed.foldlM Accumulator.add .empty).toOption.any
      (loadable samplePlatform) = true := by decide +kernel
  obtain ⟨a, hadd, hload⟩ := toOption_any hsome
  have hsent : ((StreamFormat.new .messages "local/test" "r1" 0).start.1.deltas samplePlatform
      sampleNamed).toOption.isSome = true := by decide +kernel
  obtain ⟨⟨s, sent⟩, hdelta⟩ := toOption_isSome hsent
  have hdistinct : Distinct (streamParts sampleNamed) := by
    unfold Distinct
    decide +kernel
  refine ⟨a, s, sent, hadd, hdelta, hload, hdistinct, fun hmeets => ?_⟩
  have hwhole := whole_stream samplePlatform_faithful hadd hdelta hdistinct hmeets
  have hname := (hwhole.kept (.number (0 : Int)) _ _ rfl).2 _ (.head _)
  exact absurd hname (by decide)

end Api
