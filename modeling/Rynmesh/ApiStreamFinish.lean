import Rynmesh.ApiStreamAgreement

/-!
# The end of a streamed answer

* `Following.run`: a formatter after any chunks, and what it sent;
* `Holds.close`: the events that close the blocks;
* `Holds.reordered`: the items of the final response.
-/

namespace Api

open Checked

variable {p : Platform}

/-! ### Sending -/

/-- What was sent is numbered, and the formatter goes on from there. -/
def Sends (s : StreamFormat) (all : List Sent) : Prop :=
  Numbered s.protocol all ∧ (s.protocol = .responses → s.sequence = all.length)

variable {s : StreamFormat}

theorem send_messages (h : s.protocol = .messages) (events : List Event) :
    s.send events = (s, events.map fun event => ⟨event, none⟩) := by
  rw [StreamFormat.send, h]

theorem send_responses (h : s.protocol = .responses) (events : List Event) :
    s.send events = ({ s with sequence := s.sequence + events.length },
      (events.zipIdx s.sequence).map fun (event, n) => ⟨event, some n⟩) := by
  rw [StreamFormat.send, h]

theorem map_event_send (s : StreamFormat) (events : List Event) :
    (s.send events).2.map Sent.event = events := by
  cases hprotocol : s.protocol with
  | messages =>
    rw [send_messages hprotocol, List.map_map]
    exact List.map_id _
  | responses =>
    rw [send_responses hprotocol, List.map_map]
    exact List.zipIdx_map_fst _ _

/-- Sending changes the next number only. -/
theorem same_send (s : StreamFormat) (events : List Event) :
    ∃ n, (s.send events).1 = { s with sequence := n } := by
  by_cases h : s.protocol = .messages
  · rw [send_messages h]
    exact ⟨s.sequence, rfl⟩
  have h : s.protocol = .responses := by
    cases hprotocol : s.protocol with
    | messages => exact absurd hprotocol h
    | responses => rfl
  rw [send_responses h]
  exact ⟨_, rfl⟩

theorem Sends.send {all : List Sent} (h : Sends s all) (events : List Event) :
    Sends (s.send events).1 (all ++ (s.send events).2) := by
  obtain ⟨hnumbered, hsequence⟩ := h
  cases hprotocol : s.protocol with
  | messages =>
    unfold Numbered at hnumbered
    rw [hprotocol] at hnumbered
    rw [send_messages hprotocol]
    unfold Sends Numbered
    rw [hprotocol]
    refine ⟨?_, fun h => (by cases h)⟩
    simp only [List.map_append, hnumbered, List.map_map, Function.comp_def, List.map_const',
      List.length_append, List.length_map, ← List.replicate_append_replicate]
  | responses =>
    unfold Numbered at hnumbered
    rw [hprotocol] at hnumbered
    have hnext := hsequence hprotocol
    rw [send_responses hprotocol]
    unfold Sends Numbered
    refine ⟨?_, fun _ => ?_⟩
    · have hsame : ({ s with sequence := s.sequence + events.length } : StreamFormat).protocol =
          .responses := hprotocol
      rw [hsame]
      have hnew : ((events.zipIdx all.length).map fun x : Event × Nat => some x.2) =
          (List.range' all.length events.length).map some := by
        rw [← List.zipIdx_map_snd all.length events, List.map_map]
        rfl
      simp only [List.map_append, hnumbered, List.map_map, Function.comp_def, List.length_append,
        List.length_map, List.length_zipIdx, hnext]
      rw [hnew, ← List.map_append, List.range'_eq_map_range, ← List.range_add]
    · simp [hnext]

/-! ### The chunks -/

theorem Holds.send {built : List Built} (h : Holds p s built) (events : List Event) :
    Holds p (s.send events).1 built := by
  obtain ⟨n, heq⟩ := same_send s events
  rw [heq]
  exact ⟨h.blocks, h.calls, h.text, h.silent, h.opens⟩

/-- The pieces of the chunks of a stream. -/
def streamPieces (chunks : List Json) : Except String (List Piece) :=
  (chunks.mapM chunkPieces).map List.flatten

/-- The parts of the calls of a stream. -/
def streamParts (chunks : List Json) : List Part :=
  match streamPieces chunks with
  | .ok pieces => partsOf pieces
  | .error _ => []

theorem partsOf_flatten (pieces : List (List Piece)) :
    partsOf pieces.flatten = (pieces.map partsOf).flatten := by
  induction pieces with
  | nil => rfl
  | cons first rest ih =>
    rw [List.flatten_cons, partsOf_append, ih, List.map_cons, List.flatten_cons]

variable {pieces : List Piece}

theorem choicePieces_fits {choice : Json} (h : choicePieces choice = .ok pieces) :
    ∀ part ∈ partsOf pieces, part.Fits := by
  unfold choicePieces at h
  simp only [bind_ok, require_ok, exists_and_left, exists_const, get, pure_ok] at h
  obtain ⟨_, _, _, text, _, items, _, parts, hparts, rfl⟩ := h
  intro part hpart
  have hmem : part ∈ parts := by
    simpa using mem_partsOf.mp hpart
  obtain ⟨item, _, hread⟩ := mapM_mem hparts hmem
  exact (readPart_ok hread).2

theorem chunkPieces_fits {chunk : Json} (h : chunkPieces chunk = .ok pieces) :
    ∀ part ∈ partsOf pieces, part.Fits := by
  unfold chunkPieces at h
  simp only [bind_ok, pure_ok] at h
  obtain ⟨_, _, choices, _, read, hread, rfl⟩ := h
  intro part hpart
  rw [partsOf_flatten, List.mem_flatten] at hpart
  obtain ⟨parts, hparts, hmem⟩ := hpart
  obtain ⟨pieces, hpieces, rfl⟩ := List.mem_map.mp hparts
  obtain ⟨choice, _, hchoice⟩ := mapM_mem hread hpieces
  exact choicePieces_fits hchoice part hmem

/-- A formatter that sent these pieces, and what it sent. -/
structure Following (p : Platform) (start : StreamFormat) (pieces : List Piece) (s : StreamFormat)
    (sent : List Sent) : Prop where
  holds : Holds p s (assembled p pieces)
  protocol : s.protocol = start.protocol
  taskId : s.taskId = start.taskId
  sends : Sends s sent
  read : readEvents start.chatId [] (sent.map Sent.event) = some (shows (assembled p pieces))

theorem Following.start (protocol : Protocol) (model taskId : String) (created : Int) :
    Following p (.new protocol model taskId created) []
      (StreamFormat.new protocol model taskId created).start.1
      (StreamFormat.new protocol model taskId created).start.2 := by
  cases protocol with
  | messages => exact ⟨⟨rfl, fun _ => rfl, by simp [assembled], fun _ => rfl, by simp [assembled]⟩,
      rfl, rfl, ⟨rfl, fun h => (by cases h)⟩, rfl⟩
  | responses => exact ⟨⟨rfl, fun _ => rfl, by simp [assembled], fun _ => rfl,
      by simp [assembled]⟩, rfl, rfl, ⟨rfl, fun _ => rfl⟩, rfl⟩

/-- **One chunk.** -/
theorem Following.delta {start s' : StreamFormat} {more : List Piece} {sent new : List Sent}
    {chunk : Json} (h : Following p start pieces s sent) (hpieces : chunkPieces chunk = .ok more)
    (hdelta : s.delta p chunk = .ok (s', new)) :
    Following p start (pieces ++ more) s' (sent ++ new) := by
  rw [StreamFormat.delta_pieces hpieces] at hdelta
  obtain ⟨⟨t, events⟩, hput, heq⟩ := map_ok.mp hdelta
  obtain ⟨more', hall, hholds, hsame, hread⟩ := h.holds.putAll (chunkPieces_fits hpieces) hput
  subst hall
  have hbuilt : assembled p (pieces ++ more) = more.foldl (place p) (assembled p pieces) :=
    List.foldl_append
  have hsends : Sends t sent := by
    obtain ⟨hnumbered, hsequence⟩ := h.sends
    unfold Sends
    rw [hsame.protocol, hsame.sequence]
    exact ⟨hnumbered, hsequence⟩
  obtain ⟨n, hsent⟩ := same_send t events
  have hnext := hsends.send events
  have hevents := map_event_send t events
  have hheld := hholds.send events
  simp only [heq] at hsent hnext hevents hheld
  refine ⟨hbuilt ▸ hheld, ?_, ?_, hnext, ?_⟩
  · rw [hsent, ← h.protocol]
    exact hsame.protocol
  · rw [hsent, ← h.taskId]
    exact hsame.taskId
  · have hid : s.chatId = start.chatId := by
      rw [StreamFormat.chatId, StreamFormat.chatId, h.taskId]
    rw [List.map_append, readEvents_append, h.read, Option.bind_some, hevents, hbuilt, ← hid]
    exact hread

/-- **Every run of chunks** that both readers take. -/
theorem Following.run {start s' : StreamFormat} {chunks : List Json} {a b : Accumulator}
    {sent earlier all : List Sent} (h : Following p start pieces s sent)
    (hjoined : a.joined = joinedOf pieces) (hfits : ∀ part ∈ partsOf pieces, part.Fits)
    (hadd : chunks.foldlM Accumulator.add a = .ok b)
    (hdelta : chunks.foldlM (fun state chunk => do
      let (s, sent) ← state.1.delta p chunk
      return (s, state.2 ++ sent)) (s, earlier) = .ok (s', all)) :
    ∃ more new, streamPieces chunks = .ok more ∧ all = earlier ++ new ∧
      b.joined = joinedOf (pieces ++ more) ∧ (∀ part ∈ partsOf (pieces ++ more), part.Fits) ∧
      Following p start (pieces ++ more) s' (sent ++ new) := by
  induction chunks generalizing a s pieces sent earlier with
  | nil =>
    rw [List.foldlM_nil, pure_ok] at hadd hdelta
    obtain ⟨rfl, rfl⟩ := hdelta
    subst hadd
    exact ⟨[], [], rfl, (List.append_nil _).symm, by rwa [List.append_nil],
      by rwa [List.append_nil], by rwa [List.append_nil, List.append_nil]⟩
  | cons chunk rest ih =>
    rw [List.foldlM_cons, bind_ok] at hadd hdelta
    obtain ⟨c, hc, haddrest⟩ := hadd
    obtain ⟨⟨t, sofar⟩, ht, hdeltarest⟩ := hdelta
    simp only [bind_ok, pure_ok] at ht
    obtain ⟨⟨t', new⟩, hchunk, heq⟩ := ht
    obtain ⟨rfl, rfl⟩ := heq
    obtain ⟨first, hfirst, hput⟩ := Accumulator.add_pieces hc
    have hjoined' : c.joined = joinedOf (pieces ++ first) := by
      rw [hput, hjoined, joinedOf, joinedOf, List.foldl_append]
    have hfits' : ∀ part ∈ partsOf (pieces ++ first), part.Fits := by
      intro part hpart
      rw [partsOf_append, List.mem_append] at hpart
      exact hpart.elim (hfits part) (chunkPieces_fits hfirst part)
    obtain ⟨more, later, hmore, hall, hb, hbfits, hfollowing⟩ :=
      ih (h.delta hfirst hchunk) hjoined' hfits' haddrest hdeltarest
    obtain ⟨lists, hlists, hflat⟩ := map_ok.mp hmore
    refine ⟨first ++ more, new ++ later, ?_, ?_, ?_, ?_, ?_⟩
    · rw [streamPieces, List.mapM_cons, hfirst, hlists, hflat.symm]
      rfl
    · rw [hall, List.append_assoc]
    · rw [← List.append_assoc]
      exact hb
    · rw [← List.append_assoc]
      exact hbfits
    · rw [← List.append_assoc, ← List.append_assoc]
      exact hfollowing

/-! ### The end -/

/-- The blocks when they are closed. -/
def shut (built : List Built) : List Shown := built.map fun b => ⟨b.block, true⟩

theorem alter_same {shown : List Shown} {n : Nat} {block : Block} {f : Block → Option Shown}
    (h : shown[n]? = some ⟨block, false⟩) (hf : f block = some ⟨block, false⟩) :
    alter shown n f = some shown := by
  rw [alter_of h hf]
  refine congrArg some (List.ext_getElem? fun m => ?_)
  rw [List.getElem?_set]
  by_cases hm : n = m
  · subst hm
    rw [if_pos rfl, if_pos (List.getElem?_eq_some_iff.mp h).1, h]
  · rw [if_neg hm]

section End

variable {s : StreamFormat} {built : List Built}

theorem Holds.closeBlock (h : Holds p s built) {n : Nat} {b : Built} (hb : built[n]? = some b) :
    ∃ events, s.closeBlock (b.key p, n) = .ok events ∧
      ∀ shown : List Shown, shown[n]? = some ⟨b.block, false⟩ →
        readEvents s.chatId shown events = some (shown.set n ⟨b.block, true⟩) := by
  unfold StreamFormat.closeBlock
  cases hprotocol : s.protocol with
  | messages =>
    refine ⟨[.contentBlockStop n], rfl, fun shown hshown => ?_⟩
    rw [readEvents_one]
    exact alter_of (f := fun block => some ⟨block, true⟩) hshown rfl
  | responses =>
    have hmem := List.mem_of_getElem? hb
    cases b with
    | text content =>
      have hitem : (Built.text content).block.item s.chatId =
          some (.message ("msg_" ++ s.chatId) "completed" (some content)) := rfl
      refine ⟨_, if_pos rfl, fun shown hshown => ?_⟩
      rw [h.text content hmem]
      have hdone : readEvent s.chatId shown (.outputTextDone ("msg_" ++ s.chatId) n content) =
          some shown := alter_same hshown (if_pos hitem)
      have hpart : readEvent s.chatId shown (.contentPartDone ("msg_" ++ s.chatId) n content) =
          some shown := alter_same hshown (if_pos hitem)
      rw [readEvents_cons hdone, readEvents_cons hpart, readEvents_one]
      exact alter_of (f := fun block => if block.item s.chatId = some (.message
        ("msg_" ++ s.chatId) "completed" (some content)) then some ⟨block, true⟩ else none)
        hshown (if_pos hitem)
    | call first arguments =>
      obtain ⟨id, hid⟩ := (h.opens first arguments hmem).2.2 hprotocol
      have hcall : s.calls.get? n = some ⟨first.fragment.id.getD .null,
          first.fragment.name.getD .null, arguments⟩ := by
        rw [h.calls, hb]
        rfl
      have hitem : (Built.call first arguments).block.item s.chatId =
          some (.functionCall id "completed" (first.fragment.id.getD .null)
            (first.fragment.name.getD .null) arguments) := by
        simp [Built.block, Block.item, hid, Except.toOption]
      have hkey : (Built.call first arguments).key p ≠ "text" := spelling_ne_text first
      simp only [if_neg hkey, hcall, demand_some, ok_bind, hid]
      refine ⟨_, rfl, fun shown hshown => ?_⟩
      have hdone : readEvent s.chatId shown (.argumentsDone id n arguments
          (first.fragment.name.getD .null)) = some shown :=
        alter_same hshown (if_pos ⟨by rw [hid]; rfl, rfl, rfl⟩)
      rw [readEvents_cons hdone, readEvents_one]
      exact alter_of (f := fun block => if block.item s.chatId = some (.functionCall id
        "completed" (first.fragment.id.getD .null) (first.fragment.name.getD .null)
          arguments) then some ⟨block, true⟩ else none) hshown (if_pos hitem)

theorem Holds.close_rest (h : Holds p s built) {rest : List Built} (done : List Built)
    (hbuilt : built = done ++ rest) :
    ∃ closed, ((rest.map (Built.key p)).zipIdx done.length).mapM s.closeBlock = .ok closed ∧
      readEvents s.chatId (shut done ++ shows rest) closed.flatten = some (shut built) := by
  induction rest generalizing done with
  | nil =>
    subst hbuilt
    refine ⟨[], rfl, ?_⟩
    simp [readEvents, shows]
  | cons b rest ih =>
    have hb : built[done.length]? = some b := by simp [hbuilt]
    obtain ⟨events, hevents, hread⟩ := h.closeBlock hb
    obtain ⟨closed, hclosed, hrest⟩ := ih (done ++ [b]) (by simp [hbuilt])
    have hlength : (shut done).length = done.length := by simp [shut]
    have hshown : (shut done ++ shows (b :: rest))[done.length]? = some ⟨b.block, false⟩ := by
      rw [← hlength]
      simp [shows]
    have hset : (shut done ++ shows (b :: rest)).set done.length ⟨b.block, true⟩ =
        shut (done ++ [b]) ++ shows rest := by
      simp [shut, shows]
    refine ⟨events :: closed, ?_, ?_⟩
    · rw [List.length_append] at hclosed
      rw [List.map_cons, List.zipIdx_cons, List.mapM_cons, hevents, ok_bind]
      exact congrArg (fun x => x >>= fun more => pure (events :: more)) hclosed
    · rw [List.flatten_cons, readEvents_append, hread _ hshown, hset]
      exact hrest

/-- **Every block closes.** -/
theorem Holds.close (h : Holds p s built) :
    ∃ closed, s.blocks.entries.mapM s.closeBlock = .ok closed ∧
      readEvents s.chatId (shows built) closed.flatten = some (shut built) := by
  rw [h.blocks]
  exact h.close_rest [] rfl

theorem Holds.blockId (h : Holds p s built) (hprotocol : s.protocol = .responses) {n : Nat}
    {b : Built} (hb : built[n]? = some b) :
    ∃ item, b.block.item s.chatId = some item ∧ s.blockId (b.key p, n) = .ok item.id := by
  cases b with
  | text content => exact ⟨_, rfl, rfl⟩
  | call first arguments =>
    obtain ⟨id, hid⟩ := (h.opens first arguments (List.mem_of_getElem? hb)).2.2 hprotocol
    have hcall : s.calls.get? n = some ⟨first.fragment.id.getD .null,
        first.fragment.name.getD .null, arguments⟩ := by
      rw [h.calls, hb]
      rfl
    have hkey : (Built.call first arguments).key p ≠ "text" := spelling_ne_text first
    refine ⟨.functionCall id "completed" (first.fragment.id.getD .null)
      (first.fragment.name.getD .null) arguments, ?_, ?_⟩
    · simp [Built.block, Block.item, hid, Except.toOption]
    · simp only [StreamFormat.blockId, if_neg hkey, hcall, demand_some, ok_bind]
      exact hid

theorem get?_byId {items : List Item} (hnodup : (items.map Item.id).Nodup) {item : Item}
    (h : item ∈ items) :
    (items.foldl (fun d item => d.set item.id item) (Dict.empty : Dict String Item)).get? item.id =
      some item := by
  induction items using List.reverseRecOn with
  | nil => cases h
  | append_singleton items last ih =>
    rw [List.map_append, List.nodup_append] at hnodup
    obtain ⟨hbefore, _, hdisjoint⟩ := hnodup
    rw [List.foldl_concat, Dict.get?_set]
    obtain hold | hlast := List.mem_append.mp h
    · have hne : item.id ≠ last.id := hdisjoint item.id (List.mem_map.mpr ⟨item, hold, rfl⟩)
        last.id (List.mem_singleton_self _)
      rw [if_neg hne]
      exact ih hbefore hold
    · rw [List.mem_singleton.mp hlast, if_pos rfl]

/-- **The final answer has the items of the blocks in their order.** -/
theorem Holds.reordered (h : Holds p s built) (hprotocol : s.protocol = .responses)
    {output : List Item} (hnodup : (output.map Item.id).Nodup)
    (hperm : (built.map fun b => b.block.item s.chatId).Perm (output.map some)) :
    ∃ items, s.reordered output = .ok items ∧
      items.map some = built.map fun b => b.block.item s.chatId := by
  have hone : ∀ entry ∈ (built.map (Built.key p)).zipIdx, ∃ item,
      (do let id ← s.blockId entry
          demand "KeyError" ((output.foldl (fun d item => d.set item.id item)
            (Dict.empty : Dict String Item)).get? id)) = Except.ok item ∧
        (built[entry.2]?).bind (fun b => b.block.item s.chatId) = some item := by
    intro hall hentry
    obtain ⟨key, n⟩ := hall
    rw [List.mem_zipIdx_iff_getElem?, List.getElem?_map, Option.map_eq_some_iff] at hentry
    obtain ⟨b, hb, rfl⟩ := hentry
    obtain ⟨item, hitem, hid⟩ := h.blockId hprotocol hb
    have hmem : item ∈ output := by
      have hin := hperm.mem_iff.mp (List.mem_map.mpr ⟨b, List.mem_of_getElem? hb, hitem⟩)
      simpa using hin
    refine ⟨item, ?_, by rw [hb]; exact hitem⟩
    rw [hid, ok_bind, get?_byId hnodup hmem]
    rfl
  obtain ⟨items, hitems⟩ := mapM_total fun entry hentry =>
    (hone entry hentry).imp fun item h => h.1
  have hall := mapM_forall₂ hitems
  have hlength : built.length = items.length := by
    rw [← hall.length_eq, List.length_zipIdx, List.length_map]
  refine ⟨items, ?_, ?_⟩
  · rw [StreamFormat.reordered, h.blocks]
    exact hitems
  · refine List.ext_getElem (by simp [hlength]) fun n hn hm => ?_
    rw [List.length_map] at hn hm
    have hlt : n < ((built.map (Built.key p)).zipIdx).length := by
      rw [List.length_zipIdx, List.length_map]
      exact hm
    have hthis := hall.get hlt hn
    obtain ⟨item, hok, hitem⟩ := hone _ (List.getElem_mem hlt)
    rw [List.get_eq_getElem, List.get_eq_getElem, hok, Except.ok.injEq] at hthis
    rw [List.getElem_map, List.getElem_map, ← hthis, ← hitem]
    simp [hm]

end End

end Api
