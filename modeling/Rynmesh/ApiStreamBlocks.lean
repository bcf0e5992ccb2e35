import Rynmesh.ApiStream

/-!
# The blocks of a streamed answer

A client folds the events of a stream to blocks (`readEvents`).  Both readers of the chunks see
the same pieces (`chunkPieces`): texts, and parts of tool calls.

* `Accumulator.add_pieces`, `StreamFormat.delta_pieces`: what each reader does with them;
* `assembled` joins the pieces to blocks, in the order of their first pieces;
* `Holds.piece`: the formatter holds these blocks and its events show them.
-/

namespace Api

open Checked

/-! ### A client -/

/-- A block as a client has it. -/
structure Shown where
  block : Block
  closed : Bool

def opened (shown : List Shown) (index : Nat) (block : Block) : Option (List Shown) :=
  if index = shown.length then some (shown ++ [⟨block, false⟩]) else none

/-- Change an open block. -/
def alter (shown : List Shown) (index : Nat) (f : Block → Option Shown) : Option (List Shown) :=
  match shown[index]? with
  | some ⟨block, false⟩ => (f block).map fun new => shown.set index new
  | _ => none

def Block.addText (text : String) : Block → Option Shown
  | .text old => some ⟨.text (old ++ text), false⟩
  | _ => none

def Block.addArguments (arguments : String) : Block → Option Shown
  | .tool id name old => some ⟨.tool id name (old ++ arguments), false⟩
  | _ => none

/-- The item of a block that is complete. -/
def Block.item (chatId : String) : Block → Option Item
  | .text content => some (.message ("msg_" ++ chatId) "completed" (some content))
  | .tool id name arguments =>
      (Api.itemId id).toOption.map fun item => .functionCall item "completed" id name arguments

def Block.itemId (chatId : String) (block : Block) : Option String :=
  (block.item chatId).map Item.id

/-- The block of an item that is added. -/
def Item.fresh (chatId : String) : Item → Option Block
  | .message id status part =>
      if id = "msg_" ++ chatId ∧ status = "in_progress" ∧ part = none then some (.text "") else none
  | .functionCall id status callId name arguments =>
      if (Api.itemId callId).toOption = some id ∧ status = "in_progress" ∧ arguments = "" then
        some (.tool callId name "")
      else none

/-- The events carry the numbers from zero on, in Responses. -/
def Numbered (protocol : Protocol) (sent : List Sent) : Prop :=
  sent.map Sent.sequence = match protocol with
    | .messages => List.replicate sent.length none
    | .responses => (List.range sent.length).map some

/-- A client that holds every event to the blocks that are open. -/
def readEvent (chatId : String) (shown : List Shown) : Event → Option (List Shown)
  | .contentBlockStart index block => opened shown index block
  | .textDelta index text => alter shown index (Block.addText text)
  | .inputJsonDelta index arguments => alter shown index (Block.addArguments arguments)
  | .contentBlockStop index => alter shown index fun block => some ⟨block, true⟩
  | .outputItemAdded index item => (item.fresh chatId).bind (opened shown index)
  | .contentPartAdded id index => alter shown index fun block =>
      match block with
      | .text _ => if block.itemId chatId = some id then some ⟨block, false⟩ else none
      | _ => none
  | .outputTextDelta id index text => alter shown index fun block =>
      if block.itemId chatId = some id then block.addText text else none
  | .argumentsDelta id index arguments => alter shown index fun block =>
      if block.itemId chatId = some id then block.addArguments arguments else none
  | .outputTextDone id index text | .contentPartDone id index text =>
      alter shown index fun block =>
        if block.item chatId = some (.message id "completed" (some text)) then some ⟨block, false⟩
        else none
  | .argumentsDone id index arguments name => alter shown index fun block =>
      match block with
      | .tool callId own held =>
          if (Api.itemId callId).toOption = some id ∧ own = name ∧ held = arguments then
            some ⟨block, false⟩
          else none
      | _ => none
  | .outputItemDone index item => alter shown index fun block =>
      if block.item chatId = some item then some ⟨block, true⟩ else none
  | _ => some shown

def readEvents (chatId : String) (shown : List Shown) (events : List Event) :
    Option (List Shown) :=
  events.foldlM (readEvent chatId) shown

variable {shown : List Shown} {events : List Event}

theorem readEvents_append {chatId : String} {more : List Event} :
    readEvents chatId shown (events ++ more) =
      (readEvents chatId shown events).bind fun next => readEvents chatId next more :=
  List.foldlM_append

theorem readEvents_cons {chatId : String} {next : List Shown} {event : Event}
    (h : readEvent chatId shown event = some next) :
    readEvents chatId shown (event :: events) = readEvents chatId next events := by
  rw [readEvents, List.foldlM_cons, h]
  rfl

theorem readEvents_one {chatId : String} {event : Event} :
    readEvents chatId shown [event] = readEvent chatId shown event := by
  rw [readEvents, List.foldlM_cons]
  cases readEvent chatId shown event <;> rfl

variable {n : Nat}

theorem opened_last {block : Block} (h : n = shown.length) :
    opened shown n block = some (shown ++ [⟨block, false⟩]) := by
  rw [opened, if_pos h]

theorem alter_last {block : Block} {f : Block → Option Shown} {new : Shown} (h : n = shown.length)
    (hf : f block = some new) : alter (shown ++ [⟨block, false⟩]) n f = some (shown ++ [new]) := by
  subst h
  simp [alter, hf]

theorem alter_of {index : Nat} {block : Block} {f : Block → Option Shown} {new : Shown}
    (h : shown[index]? = some ⟨block, false⟩) (hf : f block = some new) :
    alter shown index f = some (shown.set index new) := by
  simp [alter, h, hf]

/-! ### Pieces -/

/-- A fragment of a tool call whose index is hashed and whose texts are read. -/
structure Part where
  fragment : Fragment
  key : Key
  name : String
  arguments : String

/-- A piece of an answer. -/
inductive Piece
  | text (text : String)
  | call (part : Part)

def readPart (item : Json) : Except String Part := do
  let fragment ← readFragment item
  let key ← demand "TypeError" (hashKey fragment.index)
  let name ← textOf fragment.name
  let arguments ← textOf fragment.arguments
  return ⟨fragment, key, name, arguments⟩

def choicePieces (choice : Json) : Except String (List Piece) := do
  require "AttributeError" (choice.isObj = true)
  let delta := (choice.get? "delta").getD (.obj [])
  let text ← textOf (← get delta "content")
  let items ← iterate (orElse (delta.get? "tool_calls") (.arr []))
  let parts ← items.mapM readPart
  return .text text :: parts.map .call

def chunkPieces (chunk : Json) : Except String (List Piece) := do
  let choices ← iterate ((← get chunk "choices").getD (.arr []))
  return (← choices.mapM choicePieces).flatten

/-! ### What the accumulator does with them -/

structure Joined where
  text : String
  calls : Dict Key Call

def Accumulator.joined (a : Accumulator) : Joined := ⟨a.text, a.calls⟩

def Joined.put (j : Joined) : Piece → Joined
  | .text text => { j with text := j.text ++ text }
  | .call part =>
      let old := (j.calls.get? part.key).getD ⟨.str "", "", ""⟩
      let call : Call :=
        ⟨orElse part.fragment.id old.id, old.name ++ part.name, old.arguments ++ part.arguments⟩
      { j with calls := j.calls.set part.key call }

variable {a b : Accumulator}

theorem Accumulator.addCall_part {item : Json} (h : a.addCall item = .ok b) :
    ∃ part, readPart item = .ok part ∧ b.joined = a.joined.put (.call part) := by
  unfold addCall at h
  simp only [bind_ok, demand_ok, pure_ok] at h
  obtain ⟨fragment, hfragment, key, hkey, name, hname, arguments, harguments, rfl⟩ := h
  refine ⟨⟨fragment, key, name, arguments⟩, ?_, rfl⟩
  unfold readPart
  simp only [hfragment, hkey, hname, harguments, ok_bind, demand_some]
  rfl

theorem Accumulator.addCalls_parts {items : List Json} (h : items.foldlM addCall a = .ok b) :
    ∃ parts, items.mapM readPart = .ok parts ∧
      b.joined = (parts.map Piece.call).foldl Joined.put a.joined := by
  induction items generalizing a with
  | nil =>
    rw [List.foldlM_nil, pure_ok] at h
    subst h
    exact ⟨[], rfl, rfl⟩
  | cons item rest ih =>
    rw [List.foldlM_cons, bind_ok] at h
    obtain ⟨next, hnext, hrest⟩ := h
    obtain ⟨part, hpart, hjoined⟩ := addCall_part hnext
    obtain ⟨parts, hparts, hall⟩ := ih hrest
    refine ⟨part :: parts, ?_, ?_⟩
    · rw [List.mapM_cons, hpart, hparts]
      rfl
    · rw [hall, hjoined]
      rfl

theorem Accumulator.addChoice_pieces {choice : Json} (h : a.addChoice choice = .ok b) :
    ∃ pieces, choicePieces choice = .ok pieces ∧ b.joined = pieces.foldl Joined.put a.joined := by
  unfold addChoice at h
  simp only [bind_ok, require_ok, exists_and_left, exists_const, get, pure_ok] at h
  obtain ⟨_, ⟨hobj, _⟩, _, _, ⟨hdelta, rfl⟩, text, htext, reasoning, _, items, hitems, c, hc, hb⟩ :=
    h
  obtain ⟨parts, hparts, hjoined⟩ := addCalls_parts hc
  refine ⟨.text text :: parts.map .call, ?_, ?_⟩
  · unfold choicePieces
    simp only [require_of hobj, get, require_of hdelta, ok_bind, pure_bind, htext, hitems, hparts]
    rfl
  · have hsame : b.joined = c.joined := by
      subst hb
      split <;> rfl
    rw [hsame, hjoined]
    rfl

theorem Accumulator.addChoices_pieces {choices : List Json}
    (h : choices.foldlM addChoice a = .ok b) :
    ∃ pieces, choices.mapM choicePieces = .ok pieces ∧
      b.joined = pieces.flatten.foldl Joined.put a.joined := by
  induction choices generalizing a with
  | nil =>
    rw [List.foldlM_nil, pure_ok] at h
    subst h
    exact ⟨[], rfl, rfl⟩
  | cons choice rest ih =>
    rw [List.foldlM_cons, bind_ok] at h
    obtain ⟨next, hnext, hrest⟩ := h
    obtain ⟨pieces, hpieces, hjoined⟩ := addChoice_pieces hnext
    obtain ⟨more, hmore, hall⟩ := ih hrest
    refine ⟨pieces :: more, ?_, ?_⟩
    · rw [List.mapM_cons, hpieces, hmore]
      rfl
    · rw [hall, hjoined, List.flatten_cons, List.foldl_append]

theorem Accumulator.add_pieces {chunk : Json} (h : a.add chunk = .ok b) :
    ∃ pieces, chunkPieces chunk = .ok pieces ∧ b.joined = pieces.foldl Joined.put a.joined := by
  unfold add at h
  simp only [bind_ok, get, require_ok, exists_and_left, exists_const, pure_ok] at h
  obtain ⟨_, ⟨hobj, _⟩, choices, hchoices, hb⟩ := h
  obtain ⟨pieces, hpieces, hjoined⟩ := addChoices_pieces hb
  refine ⟨pieces.flatten, ?_, hjoined⟩
  unfold chunkPieces
  simp only [get, require_of hobj, ok_bind, pure_bind, hchoices, hpieces]
  rfl

/-! ### What the formatter does with them -/

/-- The index, the name and the arguments of a part are those of its fragment. -/
def Part.Fits (part : Part) : Prop :=
  hashKey part.fragment.index = some part.key ∧ textOf part.fragment.name = .ok part.name ∧
    textOf part.fragment.arguments = .ok part.arguments

variable {part : Part}

theorem readPart_ok {item : Json} (h : readPart item = .ok part) :
    readFragment item = .ok part.fragment ∧ part.Fits := by
  unfold readPart at h
  simp only [bind_ok, demand_ok, pure_ok] at h
  obtain ⟨fragment, hfragment, key, hkey, name, hname, arguments, harguments, rfl⟩ := h
  exact ⟨hfragment, hkey, hname, harguments⟩

variable {pieces : List Piece}

variable {s : StreamFormat}

section Formatter

variable (p : Platform)

def Part.spelling (part : Part) : String := "tool:" ++ p.str part.fragment.index

def StreamFormat.put (s : StreamFormat) : Piece → Except String (StreamFormat × List Event)
  | .text text => .ok (s.deltaText text)
  | .call part =>
      match s.blocks.get? (part.spelling p) with
      | some index => s.deltaArguments index part.fragment
      | none => do
          let (opened, event) ← s.openCall (part.spelling p) part.fragment
          let (s, events) ← opened.deltaArguments s.blocks.entries.length part.fragment
          return (s, event :: events)

/-- One piece more. -/
def StreamFormat.putMore (state : StreamFormat × List Event) (piece : Piece) :
    Except String (StreamFormat × List Event) := do
  let (s, events) ← state.1.put p piece
  return (s, state.2 ++ events)

variable {p}

theorem StreamFormat.deltaCall_part {item : Json} (h : readPart item = .ok part) :
    s.deltaCall p item = s.put p (.call part) := by
  rw [deltaCall, (readPart_ok h).1]
  rfl

variable {state : StreamFormat × List Event}

theorem StreamFormat.deltaCalls_parts {items : List Json} {parts : List Part}
    (h : items.mapM readPart = .ok parts) :
    items.foldlM (fun state item => do
      let (s, events) ← state.1.deltaCall p item
      return (s, state.2 ++ events)) state = (parts.map Piece.call).foldlM (putMore p) state := by
  induction items generalizing parts state with
  | nil =>
    rw [List.mapM_nil, pure_ok] at h
    subst h
    rfl
  | cons item rest ih =>
    rw [List.mapM_cons] at h
    simp only [bind_ok, pure_ok] at h
    obtain ⟨part, hpart, more, hmore, rfl⟩ := h
    rw [List.foldlM_cons, List.map_cons, List.foldlM_cons, deltaCall_part hpart]
    refine bind_congr rfl fun next _ => ?_
    exact ih hmore

theorem StreamFormat.deltaChoice_pieces {choice : Json} (h : choicePieces choice = .ok pieces) :
    deltaChoice p state choice = pieces.foldlM (putMore p) state := by
  unfold choicePieces at h
  simp only [bind_ok, require_ok, exists_and_left, exists_const, get, pure_ok] at h
  obtain ⟨hobj, _, ⟨hdelta, rfl⟩, text, htext, items, hitems, parts, hparts, rfl⟩ := h
  have hsame : orElse (choice.get? "delta") (.obj []) = (choice.get? "delta").getD (.obj []) := by
    cases hvalue : choice.get? "delta" with
    | none => rfl
    | some value =>
      rw [hvalue] at hdelta
      cases value with
      | obj fields => cases fields <;> rfl
      | _ => cases hdelta
  unfold deltaChoice
  simp only [get, require_of hobj, ok_bind, pure_bind, hsame, require_of hdelta, htext, hitems]
  rw [deltaCalls_parts hparts, List.foldlM_cons]
  rfl

theorem StreamFormat.deltaChoices_pieces {choices : List Json} {pieces : List (List Piece)}
    (h : choices.mapM choicePieces = .ok pieces) :
    choices.foldlM (deltaChoice p) state = pieces.flatten.foldlM (putMore p) state := by
  induction choices generalizing pieces state with
  | nil =>
    rw [List.mapM_nil, pure_ok] at h
    subst h
    rfl
  | cons choice rest ih =>
    rw [List.mapM_cons] at h
    simp only [bind_ok, pure_ok] at h
    obtain ⟨first, hfirst, more, hmore, rfl⟩ := h
    rw [List.foldlM_cons, deltaChoice_pieces hfirst, List.flatten_cons, List.foldlM_append]
    exact bind_congr rfl fun next _ => ih hmore

theorem StreamFormat.delta_pieces {chunk : Json} (h : chunkPieces chunk = .ok pieces) :
    s.delta p chunk = (pieces.foldlM (putMore p) (s, [])).map fun (s, events) => s.send events := by
  unfold chunkPieces at h
  simp only [bind_ok, get, require_ok, exists_and_left, exists_const, pure_ok] at h
  obtain ⟨_, ⟨hobj, rfl⟩, choices, hchoices, read, hread, rfl⟩ := h
  unfold delta
  simp only [get, require_of hobj, ok_bind, pure_bind, hchoices, deltaChoices_pieces hread]
  cases read.flatten.foldlM (putMore p) (s, []) <;> rfl

end Formatter

/-! ### The blocks of the pieces -/

/-- A block with the first part of its call. -/
inductive Built
  | text (content : String)
  | call (first : Part) (arguments : String)

def Built.block : Built → Block
  | .text content => .text content
  | .call first arguments =>
      .tool (first.fragment.id.getD .null) (first.fragment.name.getD .null) arguments

def Built.streamCall : Built → Option StreamCall
  | .text _ => none
  | .call first arguments =>
      some ⟨first.fragment.id.getD .null, first.fragment.name.getD .null, arguments⟩

/-- The block goes on with a piece. -/
def Built.extend : Built → Piece → Built
  | .text old, .text more => .text (old ++ more)
  | .call first old, .call part => .call first (old ++ part.arguments)
  | built, _ => built

def Piece.built : Piece → Built
  | .text content => .text content
  | .call part => .call part part.arguments

section Assembled

variable (p : Platform)

def Built.key : Built → String
  | .text _ => "text"
  | .call first _ => first.spelling p

def Piece.key : Piece → String
  | .text _ => "text"
  | .call part => part.spelling p

def Piece.blank : Piece → Bool
  | .text content => content = ""
  | .call _ => false

/-- A piece goes to its block, or opens one; an empty text does neither. -/
def place (built : List Built) (piece : Piece) : List Built :=
  if piece.blank then built
  else if piece.key p ∈ built.map (Built.key p) then
    built.map fun b => if b.key p = piece.key p then b.extend piece else b
  else built ++ [piece.built]

def assembled (pieces : List Piece) : List Built := pieces.foldl (place p) []

def shows (built : List Built) : List Shown := built.map fun b => ⟨b.block, false⟩

variable {p}

theorem spelling_ne_text (part : Part) : part.spelling p ≠ "text" := by
  intro h
  have hlist := congrArg (fun text => text.toList.drop 1) h
  simp [Part.spelling] at hlist

theorem Built.key_extend (b : Built) (piece : Piece) : (b.extend piece).key p = b.key p := by
  cases b <;> cases piece <;> rfl

variable {b : Built}

variable {piece : Piece}

theorem map_extend {built : List Built} (hnodup : (built.map (Built.key p)).Nodup)
    (hb : built[n]? = some b) (hkey : b.key p = piece.key p) :
    (built.map fun x => if x.key p = piece.key p then x.extend piece else x) =
      built.set n (b.extend piece) := by
  refine List.ext_getElem? fun m => ?_
  rw [List.getElem?_map, List.getElem?_set]
  by_cases hm : n = m
  · subst hm
    have hlt : n < built.length := (List.getElem?_eq_some_iff.mp hb).1
    rw [if_pos rfl, if_pos hlt, hb, Option.map_some, if_pos hkey]
  rw [if_neg hm]
  cases hx : built[m]? with
  | none => rfl
  | some x =>
    have hne : x.key p ≠ piece.key p := by
      intro h
      have hnm : (built.map (Built.key p))[n]? = (built.map (Built.key p))[m]? := by
        rw [List.getElem?_map, List.getElem?_map, hb, hx, Option.map_some, Option.map_some,
          hkey, h]
      refine hm ((List.getElem?_inj ?_ hnodup).mp hnm)
      rw [List.length_map]
      exact (List.getElem?_eq_some_iff.mp hb).1
    simp [hne]

theorem place_extend {built : List Built} (hnodup : (built.map (Built.key p)).Nodup)
    (hb : built[n]? = some b) (hblank : piece.blank = false) (hkey : b.key p = piece.key p) :
    place p built piece = built.set n (b.extend piece) := by
  have hmem : piece.key p ∈ built.map (Built.key p) :=
    List.mem_map.mpr ⟨b, List.mem_of_getElem? hb, hkey⟩
  rw [place, if_neg (by simp [hblank]), if_pos hmem, map_extend hnodup hb hkey]

theorem place_append {built : List Built} (hblank : piece.blank = false)
    (hnew : piece.key p ∉ built.map (Built.key p)) :
    place p built piece = built ++ [piece.built] := by
  rw [place, if_neg (by simp [hblank]), if_neg hnew]

theorem shows_append {built : List Built} :
    shows (built ++ [b]) = shows built ++ [⟨b.block, false⟩] := by
  simp [shows]

theorem length_shows {built : List Built} : (shows built).length = built.length := by
  simp [shows]

theorem shows_set {built : List Built} :
    shows (built.set n b) = (shows built).set n ⟨b.block, false⟩ := by
  simp [shows, List.map_set]

theorem getElem?_shows {built : List Built} (h : built[n]? = some b) :
    (shows built)[n]? = some ⟨b.block, false⟩ := by
  simp [shows, h]

/-! ### The formatter holds the blocks -/

/-- A call whose identifier is sent. -/
def Part.Opens (protocol : Protocol) (part : Part) : Prop :=
  given part.fragment.id = true ∧ given part.fragment.name = true ∧
    (protocol = .responses → ∃ item, itemId (part.fragment.id.getD .null) = .ok item)

structure Holds (p : Platform) (s : StreamFormat) (built : List Built) : Prop where
  blocks : s.blocks.entries = (built.map (Built.key p)).zipIdx
  calls : ∀ n, s.calls.get? n = built[n]?.bind Built.streamCall
  text : ∀ content, .text content ∈ built → s.text = content
  silent : (∀ content, .text content ∉ built) → s.text = ""
  opens : ∀ first arguments, .call first arguments ∈ built → first.Opens s.protocol

section Holds

variable {s : StreamFormat} {built : List Built}

theorem Holds.nodup (h : Holds p s built) : (built.map (Built.key p)).Nodup := by
  have hnodup := s.blocks.nodup
  rwa [h.blocks, List.zipIdx_map_fst] at hnodup

theorem Holds.length (h : Holds p s built) : s.blocks.entries.length = built.length := by
  rw [h.blocks, List.length_zipIdx, List.length_map]

theorem Holds.get?_blocks (h : Holds p s built) {key : String} :
    s.blocks.get? key = some n ↔ ∃ b, built[n]? = some b ∧ b.key p = key := by
  rw [Dict.get?_eq_some_iff, h.blocks, List.mem_zipIdx_iff_getElem?]
  simp

theorem Holds.get?_none (h : Holds p s built) {key : String} :
    s.blocks.get? key = none ↔ key ∉ built.map (Built.key p) := by
  rw [Dict.get?_eq_none_iff, Dict.keys, h.blocks, List.zipIdx_map_fst]

/-- What a piece leaves alone. -/
structure Same (s s' : StreamFormat) : Prop where
  protocol : s'.protocol = s.protocol
  model : s'.model = s.model
  taskId : s'.taskId = s.taskId
  created : s'.created = s.created
  sequence : s'.sequence = s.sequence

theorem Same.refl (s : StreamFormat) : Same s s := ⟨rfl, rfl, rfl, rfl, rfl⟩

variable {s' : StreamFormat}

theorem Same.trans {s'' : StreamFormat} (h : Same s s') (h' : Same s' s'') : Same s s'' :=
  ⟨h'.protocol.trans h.protocol, h'.model.trans h.model, h'.taskId.trans h.taskId,
    h'.created.trans h.created, h'.sequence.trans h.sequence⟩

theorem Same.chatId (h : Same s s') : s'.chatId = s.chatId := by
  rw [StreamFormat.chatId, StreamFormat.chatId, h.taskId]

/-- Assigning a key the value it has changes nothing. -/
theorem set_same {κ α : Type} [DecidableEq κ] {d : Dict κ α} {k : κ} {v : α}
    (h : d.get? k = some v) : (d.set k v).entries = d.entries := by
  show Dict.assign k v d.entries = d.entries
  have hlookup : Dict.lookup k d.entries = some v := h
  generalize d.entries = entries at hlookup
  induction entries with
  | nil => cases hlookup
  | cons e rest ih =>
    obtain ⟨k', v'⟩ := e
    by_cases hk : k' = k
    · simp only [Dict.lookup, hk, if_true, Option.some.injEq] at hlookup
      simp [Dict.assign, hk, hlookup]
    · simp only [Dict.lookup, hk, if_false] at hlookup
      simp [Dict.assign, hk, ih hlookup]

theorem Holds.blocks_append (h : Holds p s built) {key : String} (hkey : b.key p = key)
    (hnew : key ∉ built.map (Built.key p)) :
    (s.blocks.set key s.blocks.entries.length).entries =
      ((built ++ [b]).map (Built.key p)).zipIdx := by
  have hnot : key ∉ s.blocks.keys := by
    rw [Dict.keys, h.blocks, List.zipIdx_map_fst]
    exact hnew
  rw [Dict.entries_set_of_new _ hnot, h.blocks, List.map_append, List.zipIdx_append]
  simp [hkey]

theorem map_key_set (hb : built[n]? = some b) (piece : Piece) :
    (built.set n (b.extend piece)).map (Built.key p) = built.map (Built.key p) := by
  obtain ⟨hlt, rfl⟩ := List.getElem?_eq_some_iff.mp hb
  have hlt' : n < (built.map (Built.key p)).length := by
    rw [List.length_map]
    exact hlt
  rw [List.map_set, Built.key_extend, ← List.getElem_map (Built.key p) (h := hlt'),
    List.set_getElem_self]

theorem getElem?_of_mem_set {x : Built} (h : x ∈ built.set n b) :
    x = b ∨ ∃ m, m ≠ n ∧ built[m]? = some x := by
  obtain ⟨m, hm⟩ := List.getElem?_of_mem h
  rw [List.getElem?_set] at hm
  by_cases heq : n = m
  · rw [if_pos heq] at hm
    split at hm
    · rw [Option.some.injEq] at hm
      exact Or.inl hm.symm
    · cases hm
  · rw [if_neg heq] at hm
    exact Or.inr ⟨m, fun h => heq h.symm, hm⟩

theorem mem_set_self (h : n < built.length) {x : Built} (hx : x = b) : x ∈ built.set n b := by
  subst hx
  exact List.mem_set h x

theorem Holds.unique (h : Holds p s built) {m : Nat} {b' : Built} (hb : built[n]? = some b)
    (hb' : built[m]? = some b') (hkey : b.key p = b'.key p) : n = m := by
  have hlt : n < (built.map (Built.key p)).length := by
    rw [List.length_map]
    exact (List.getElem?_eq_some_iff.mp hb).1
  refine (List.getElem?_inj hlt h.nodup).mp ?_
  rw [List.getElem?_map, List.getElem?_map, hb, hb', Option.map_some, Option.map_some, hkey]

theorem Holds.extendText (h : Holds p s built) {old : String} (hb : built[n]? = some (.text old))
    (text : String) :
    Holds p { s with blocks := s.blocks.set "text" n, text := s.text ++ text }
      (built.set n (.text (old ++ text))) := by
  have hlt := (List.getElem?_eq_some_iff.mp hb).1
  have hfound : s.blocks.get? "text" = some n := h.get?_blocks.mpr ⟨_, hb, rfl⟩
  constructor
  · rw [set_same hfound, h.blocks]
    exact congrArg List.zipIdx (map_key_set hb (.text text)).symm
  · intro m
    rw [h.calls m, List.getElem?_set]
    by_cases hm : n = m
    · subst hm
      rw [if_pos rfl, if_pos hlt, hb]
      rfl
    · rw [if_neg hm]
  · intro content hcontent
    obtain hsame | ⟨m, hm, hother⟩ := getElem?_of_mem_set hcontent
    · rw [Built.text.injEq] at hsame
      rw [hsame, h.text old (List.mem_of_getElem? hb)]
    · exact absurd (h.unique hother hb rfl) hm
  · intro hno
    exact absurd (mem_set_self hlt rfl) (hno _)
  · intro first arguments hcall
    obtain hsame | ⟨m, _, hother⟩ := getElem?_of_mem_set hcall
    · cases hsame
    · exact h.opens first arguments (List.mem_of_getElem? hother)

theorem Holds.openText (h : Holds p s built) (text : String)
    (hnew : "text" ∉ built.map (Built.key p)) :
    Holds p { s with blocks := s.blocks.set "text" s.blocks.entries.length, text := s.text ++ text }
      (built ++ [.text text]) := by
  have hnone : ∀ content, Built.text content ∉ built := fun content hcontent =>
    hnew (List.mem_map.mpr ⟨_, hcontent, rfl⟩)
  constructor
  · exact h.blocks_append rfl hnew
  · intro m
    rw [h.calls m, List.getElem?_append]
    by_cases hm : m < built.length
    · rw [if_pos hm]
    · rw [if_neg hm, List.getElem?_eq_none (by omega)]
      cases m - built.length <;> rfl
  · intro content hcontent
    rw [List.mem_append, List.mem_singleton, Built.text.injEq] at hcontent
    obtain hold | rfl := hcontent
    · exact absurd hold (hnone content)
    · show s.text ++ content = content
      rw [h.silent hnone, String.empty_append]
  · intro hno
    exact absurd (List.mem_append_right _ (List.mem_singleton_self _)) (hno text)
  · intro first arguments hcall
    rw [List.mem_append, List.mem_singleton] at hcall
    obtain hold | hsame := hcall
    · exact h.opens first arguments hold
    · cases hsame

theorem Holds.deltaText (h : Holds p s built) (text : String) :
    Holds p (s.deltaText text).1 (place p built (.text text)) ∧ Same s (s.deltaText text).1 ∧
      readEvents s.chatId (shows built) (s.deltaText text).2 =
        some (shows (place p built (.text text))) := by
  by_cases hblank : text = ""
  · subst hblank
    exact ⟨h, Same.refl s, rfl⟩
  have hpiece : (Piece.text text).blank = false := by
    simpa [Piece.blank] using hblank
  unfold StreamFormat.deltaText
  rw [if_neg hblank]
  cases hfound : s.blocks.get? "text" with
  | some n =>
    obtain ⟨b, hb, hkey⟩ := h.get?_blocks.mp hfound
    cases b with
    | call first arguments => exact absurd hkey (spelling_ne_text first)
    | text old =>
      rw [place_extend h.nodup hb hpiece hkey]
      refine ⟨h.extendText hb text, ⟨rfl, rfl, rfl, rfl, rfl⟩, ?_⟩
      have hshown := getElem?_shows hb
      rw [shows_set]
      simp only [Option.isSome_some, if_true, List.nil_append, Option.getD_some,
        readEvents_one]
      have hadd : (Built.text old).block.addText text =
          some ⟨((Built.text old).extend (.text text)).block, false⟩ := rfl
      cases s.protocol with
      | messages => exact alter_of (f := Block.addText text) hshown hadd
      | responses =>
        have hid : (Built.text old).block.itemId s.chatId = some ("msg_" ++ s.chatId) := rfl
        refine alter_of (f := fun block => if block.itemId s.chatId =
          some ("msg_" ++ s.chatId) then block.addText text else none) hshown ?_
        rw [if_pos hid]
        exact hadd
  | none =>
    have hnew := h.get?_none.mp hfound
    rw [place_append hpiece hnew, shows_append]
    refine ⟨h.openText text hnew, ⟨rfl, rfl, rfl, rfl, rfl⟩, ?_⟩
    have hlast : s.blocks.entries.length = (shows built).length := by
      rw [h.length, length_shows]
    have hadd : (Block.text "").addText text = some ⟨.text text, false⟩ := by
      simp [Block.addText]
    simp only [Option.isSome_none, Bool.false_eq_true, if_false, Option.getD_none]
    cases s.protocol with
    | messages =>
      have hstart : readEvent s.chatId (shows built) (.contentBlockStart
          s.blocks.entries.length (.text "")) = some (shows built ++ [⟨.text "", false⟩]) :=
        opened_last hlast
      rw [List.singleton_append, readEvents_cons hstart, readEvents_one]
      exact alter_last hlast hadd
    | responses =>
      have hfresh : (Item.message ("msg_" ++ s.chatId) "in_progress" none).fresh s.chatId =
          some (.text "") := if_pos ⟨rfl, rfl, rfl⟩
      have hadded : readEvent s.chatId (shows built) (.outputItemAdded s.blocks.entries.length
          (.message ("msg_" ++ s.chatId) "in_progress" none)) =
            some (shows built ++ [⟨.text "", false⟩]) := by
        rw [readEvent, hfresh, Option.bind_some, opened_last hlast]
      have hid : (Block.text "").itemId s.chatId = some ("msg_" ++ s.chatId) := rfl
      have hpart : readEvent s.chatId (shows built ++ [⟨.text "", false⟩]) (.contentPartAdded
          ("msg_" ++ s.chatId) s.blocks.entries.length) =
            some (shows built ++ [⟨.text "", false⟩]) :=
        alter_last hlast (if_pos hid)
      rw [List.cons_append, List.singleton_append, readEvents_cons hadded,
        readEvents_cons hpart, readEvents_one]
      exact alter_last hlast ((if_pos hid).trans hadd)

theorem Holds.extendCall (h : Holds p s built) {first : Part} {old : String}
    (hb : built[n]? = some (.call first old)) (part : Part) :
    Holds p
      { s with calls := (s.calls.set n
          ⟨first.fragment.id.getD .null, first.fragment.name.getD .null, old ++ part.arguments⟩) }
      (built.set n (.call first (old ++ part.arguments))) := by
  have hlt := (List.getElem?_eq_some_iff.mp hb).1
  constructor
  · rw [h.blocks]
    exact congrArg List.zipIdx (map_key_set hb (.call part)).symm
  · intro m
    rw [Dict.get?_set, List.getElem?_set, h.calls m]
    by_cases hm : m = n
    · subst hm
      rw [if_pos rfl, if_pos rfl, if_pos hlt]
      rfl
    · rw [if_neg hm, if_neg fun h => hm h.symm]
  · intro content hcontent
    obtain hsame | ⟨m, _, hother⟩ := getElem?_of_mem_set hcontent
    · cases hsame
    · exact h.text content (List.mem_of_getElem? hother)
  · intro hno
    refine h.silent fun content hcontent => ?_
    obtain ⟨m, hm⟩ := List.getElem?_of_mem hcontent
    have hne : n ≠ m := by
      intro heq
      rw [heq, hm] at hb
      cases hb
    refine hno content (List.mem_of_getElem? (i := m) ?_)
    rw [List.getElem?_set, if_neg hne, hm]
  · intro other arguments hcall
    obtain hsame | ⟨m, _, hother⟩ := getElem?_of_mem_set hcall
    · rw [Built.call.injEq] at hsame
      rw [hsame.1]
      exact h.opens first old (List.mem_of_getElem? hb)
    · exact h.opens other arguments (List.mem_of_getElem? hother)

theorem Holds.deltaArguments (h : Holds p s built) {first : Part} {old : String}
    (hb : built[n]? = some (.call first old)) (hfits : part.Fits)
    (hput : s.deltaArguments n part.fragment = .ok (s', events)) :
    Holds p s' (built.set n (.call first (old ++ part.arguments))) ∧ Same s s' ∧
      readEvents s.chatId (shows built) events =
        some (shows (built.set n (.call first (old ++ part.arguments)))) := by
  have hcall : s.calls.get? n = some ⟨first.fragment.id.getD .null,
      first.fragment.name.getD .null, old⟩ := by
    rw [h.calls, hb]
    rfl
  unfold StreamFormat.deltaArguments at hput
  simp only [hfits.2.2, hcall, ok_bind, demand_some, bind_ok, pure_ok, Prod.mk.injEq] at hput
  obtain ⟨sent, hsent, rfl, rfl⟩ := hput
  refine ⟨h.extendCall hb part, ⟨rfl, rfl, rfl, rfl, rfl⟩, ?_⟩
  have hshown := getElem?_shows hb
  have hadd : (Built.call first old).block.addArguments part.arguments =
      some ⟨(Built.call first (old ++ part.arguments)).block, false⟩ := rfl
  rw [shows_set]
  unfold StreamFormat.argumentsSent at hsent
  split at hsent
  · rename_i hblank
    rw [Except.ok.injEq] at hsent
    subst hsent
    rw [hblank, String.append_empty]
    refine congrArg some (List.ext_getElem? fun m => ?_)
    rw [List.getElem?_set]
    by_cases hm : n = m
    · subst hm
      rw [if_pos rfl, if_pos (List.getElem?_eq_some_iff.mp hshown).1, hshown]
    · rw [if_neg hm]
  · cases hprotocol : s.protocol with
    | messages =>
      simp only [hprotocol, Except.ok.injEq] at hsent
      subst hsent
      rw [readEvents_one]
      exact alter_of (f := Block.addArguments part.arguments) hshown hadd
    | responses =>
      obtain ⟨item, hitem⟩ := (h.opens first old (List.mem_of_getElem? hb)).2.2 hprotocol
      simp only [hprotocol, hitem, Except.map, Except.ok.injEq] at hsent
      subst hsent
      rw [readEvents_one]
      have hid : (Built.call first old).block.itemId s.chatId = some item := by
        simp [Built.block, Block.itemId, Block.item, hitem, Item.id, Except.toOption]
      exact alter_of (f := fun block => if block.itemId s.chatId = some item then
        block.addArguments part.arguments else none) hshown ((if_pos hid).trans hadd)

theorem Holds.openCall (h : Holds p s built) (hnew : part.spelling p ∉ built.map (Built.key p))
    {opened : StreamFormat} {event : Event}
    (hopen : s.openCall (part.spelling p) part.fragment = .ok (opened, event)) :
    Holds p opened (built ++ [.call part ""]) ∧ Same s opened ∧
      readEvent s.chatId (shows built) event = some (shows (built ++ [.call part ""])) := by
  unfold StreamFormat.openCall at hopen
  simp only [bind_ok, require_ok, exists_and_left, exists_const, pure_ok, Prod.mk.injEq] at hopen
  obtain ⟨⟨hid, hname⟩, sent, hsent, rfl, rfl⟩ := hopen
  have hlast : s.blocks.entries.length = (shows built).length := by
    rw [h.length, length_shows]
  have hshown : readEvent s.chatId (shows built) sent = some (shows (built ++ [.call part ""])) ∧
      (s.protocol = .responses → ∃ item, itemId (part.fragment.id.getD .null) = .ok item) := by
    rw [shows_append]
    unfold StreamFormat.callOpened at hsent
    cases hprotocol : s.protocol with
    | messages =>
      simp only [hprotocol, Except.ok.injEq] at hsent
      subst hsent
      exact ⟨opened_last hlast, fun h => (by cases h)⟩
    | responses =>
      cases hitem : itemId (part.fragment.id.getD .null) with
      | error e =>
        simp only [hprotocol, hitem] at hsent
        cases hsent
      | ok item =>
        simp only [hprotocol, hitem, Except.map, Except.ok.injEq] at hsent
        subst hsent
        refine ⟨?_, fun _ => ⟨item, rfl⟩⟩
        have hfresh : (Item.functionCall item "in_progress" (part.fragment.id.getD .null)
            (part.fragment.name.getD .null) "").fresh s.chatId =
              some (.tool (part.fragment.id.getD .null) (part.fragment.name.getD .null) "") :=
          if_pos ⟨by rw [hitem]; rfl, rfl, rfl⟩
        rw [readEvent, hfresh, Option.bind_some, opened_last hlast]
        rfl
  refine ⟨?_, ⟨rfl, rfl, rfl, rfl, rfl⟩, hshown.1⟩
  constructor
  · exact h.blocks_append rfl hnew
  · intro m
    rw [Dict.get?_set, h.length, List.getElem?_append, h.calls m]
    by_cases hm : m = built.length
    · subst hm
      simp [Built.streamCall]
    · rw [if_neg hm]
      by_cases hlt : m < built.length
      · rw [if_pos hlt]
      · rw [if_neg hlt, List.getElem?_eq_none (by omega),
          List.getElem?_eq_none (by simp only [List.length_singleton]; omega)]
  · intro content hcontent
    rw [List.mem_append, List.mem_singleton] at hcontent
    obtain hold | hsame := hcontent
    · exact h.text content hold
    · cases hsame
  · intro hno
    exact h.silent fun content hcontent => hno content (List.mem_append_left _ hcontent)
  · intro first arguments hcall
    rw [List.mem_append, List.mem_singleton, Built.call.injEq] at hcall
    obtain hold | ⟨rfl, _⟩ := hcall
    · exact h.opens first arguments hold
    · exact ⟨hid, hname, hshown.2⟩

/-- **One piece.**  The formatter holds the blocks with the piece, and its events show them. -/
theorem Holds.put (h : Holds p s built) (hfits : ∀ part, piece = .call part → part.Fits)
    (hput : s.put p piece = .ok (s', events)) :
    Holds p s' (place p built piece) ∧ Same s s' ∧
      readEvents s.chatId (shows built) events = some (shows (place p built piece)) := by
  cases piece with
  | text text =>
    have hsent : s.deltaText text = (s', events) := Except.ok.inj hput
    have hstep := h.deltaText text
    rw [hsent] at hstep
    exact hstep
  | call part =>
    have hpart := hfits part rfl
    unfold StreamFormat.put at hput
    cases hfound : s.blocks.get? (part.spelling p) with
    | some n =>
      obtain ⟨b, hb, hkey⟩ := h.get?_blocks.mp hfound
      cases b with
      | text content => exact absurd hkey.symm (spelling_ne_text part)
      | call first old =>
        simp only [hfound] at hput
        have hplace : place p built (.call part) =
            built.set n (.call first (old ++ part.arguments)) :=
          place_extend h.nodup hb rfl hkey
        rw [hplace]
        exact h.deltaArguments hb hpart hput
    | none =>
      have hnew := h.get?_none.mp hfound
      simp only [hfound, bind_ok, pure_ok] at hput
      obtain ⟨⟨opened, event⟩, hopen, ⟨next, more⟩, hmore, heq⟩ := hput
      obtain ⟨rfl, rfl⟩ := heq
      obtain ⟨hholds, hsame, hread⟩ := h.openCall hnew hopen
      rw [h.length] at hmore
      have hb : (built ++ [Built.call part ""])[built.length]? = some (.call part "") := by
        simp
      obtain ⟨hholds', hsame', hread'⟩ := hholds.deltaArguments hb hpart hmore
      have hset : (built ++ [Built.call part ""]).set built.length
          (.call part ("" ++ part.arguments)) = place p built (.call part) := by
        have hplace : place p built (.call part) = built ++ [.call part part.arguments] :=
          place_append rfl hnew
        rw [hplace, String.empty_append]
        simp
      rw [hset] at hholds' hread'
      refine ⟨hholds', hsame.trans hsame', ?_⟩
      rw [readEvents_cons hread, ← hsame.chatId]
      exact hread'

/-- The parts of the calls. -/
def partsOf (pieces : List Piece) : List Part :=
  pieces.filterMap fun piece => match piece with
    | .call part => some part
    | .text _ => none

theorem mem_partsOf : part ∈ partsOf pieces ↔ .call part ∈ pieces := by
  simp only [partsOf, List.mem_filterMap]
  constructor
  · rintro ⟨piece, hpiece, hpart⟩
    cases piece with
    | text text => cases hpart
    | call other =>
      rw [Option.some.injEq] at hpart
      exact hpart ▸ hpiece
  · intro h
    exact ⟨_, h, rfl⟩

/-- **The pieces of a chunk.** -/
theorem Holds.putAll (hfits : ∀ part ∈ partsOf pieces, part.Fits) (h : Holds p s built)
    {all : List Event} (hput : pieces.foldlM (StreamFormat.putMore p) (s, events) = .ok (s', all)) :
    ∃ more, all = events ++ more ∧ Holds p s' (pieces.foldl (place p) built) ∧ Same s s' ∧
      readEvents s.chatId (shows built) more = some (shows (pieces.foldl (place p) built)) := by
  induction pieces generalizing s built events with
  | nil =>
    rw [List.foldlM_nil, pure_ok, Prod.mk.injEq] at hput
    obtain ⟨rfl, rfl⟩ := hput
    exact ⟨[], (List.append_nil _).symm, h, Same.refl s, rfl⟩
  | cons piece rest ih =>
    rw [List.foldlM_cons, bind_ok] at hput
    obtain ⟨⟨next, sent⟩, hnext, hrest⟩ := hput
    unfold StreamFormat.putMore at hnext
    simp only [bind_ok, pure_ok] at hnext
    obtain ⟨⟨state, more⟩, hstep, heq⟩ := hnext
    obtain ⟨rfl, rfl⟩ := heq
    have hpiece : ∀ part, piece = .call part → part.Fits := fun part hpart =>
      hfits part (mem_partsOf.mpr (hpart ▸ (.head _)))
    obtain ⟨hholds, hsame, hread⟩ := h.put hpiece hstep
    have hothers : ∀ part ∈ partsOf rest, part.Fits := fun part hpart =>
      hfits part (mem_partsOf.mpr (.tail _ (mem_partsOf.mp hpart)))
    obtain ⟨later, hall, hholds', hsame', hread'⟩ := ih hothers hholds hrest
    refine ⟨more ++ later, ?_, hholds', hsame.trans hsame', ?_⟩
    · rw [hall, List.append_assoc]
    · rw [readEvents_append, hread, Option.bind_some, ← hsame.chatId]
      exact hread'

end Holds

end Assembled

end Api
