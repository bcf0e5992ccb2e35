import Rynmesh.ChatRequestIdempotent

/-!
# What a chat request check promises

* `Paired`: an accepted conversation answers each tool call right after the
  message that makes it, and nothing else;
* `Sound`: what an accepted request satisfies;
* `Regular`: no check runs into a value of a type it cannot handle.  A role or id
  that is a list or an object, a `tool_calls` that is null, false or zero, an
  integer no float can hold and a `tool_choice` without an object or a name are
  not refused but raise something else, and only these
  (`validateChat_meets_iff`).
-/

namespace Chat

open Checked

def Fault.IsValueError (fault : Fault) : Prop := ∃ message, fault = .valueError message

/-! ### Calls and answers -/

def isTool (message : Json) : Bool := field message "role" = .str "tool"

/-- The call that a tool message answers. -/
def answerId (message : Json) : String := (field message "tool_call_id").asStr?.getD ""

def idOf (call : Json) : String := (field call "id").asStr?.getD ""

/-- The ids of the calls that a message makes. -/
def callIds (message : Json) : List String :=
  ((callsOf message).asArr?.getD []).map idOf

/-- A conversation in which each call of an assistant message is answered by one of the tool
messages that follow it, and each tool message answers such a call. -/
inductive Paired : List Json → Prop
  | nil : Paired []
  | plain {message : Json} {rest : List Json} (hrole : isTool message = false)
      (hcalls : callIds message = []) (hrest : Paired rest) : Paired (message :: rest)
  | asked {message : Json} {results rest : List Json}
      (hrole : field message "role" = .str "assistant") (hids : (callIds message).Nodup)
      (hresults : ∀ result ∈ results, isTool result = true)
      (hanswers : (results.map answerId).Perm (callIds message)) (hrest : Paired rest) :
      Paired (message :: (results ++ rest))

/-- The calls that wait once a message was read as an answer. -/
def answered (pending : List String) (message : Json) : List String :=
  if isTool message then pending.erase (answerId message) else pending

/-- A message comes in turn: a tool message for a call that waits, another one when none does. -/
def InTurn (pending : List String) (message : Json) : Prop :=
  (isTool message = true ∧ ∃ id ∈ pending, field message "tool_call_id" = .str id) ∨
    (isTool message = false ∧ pending = [])

variable {names : List String}

theorem isIn_ok {value : Json} : isIn names value = .ok true ↔ ∃ s ∈ names, value = .str s := by
  cases value <;> simp [isIn]

variable {pending q : List String} {message : Json}

theorem checkAnswer_ok : checkAnswer pending message = .ok q ↔
      InTurn pending message ∧ q = answered pending message := by
  unfold checkAnswer InTurn answered isTool
  by_cases hrole : field message "role" = .str "tool"
  · simp only [hrole, if_true, bind_ok, require_ok, pure_ok, decide_true, true_and,
      Bool.true_eq_false, false_and, or_false]
    constructor
    · intro h
      obtain ⟨known, hknown, _, rfl, rfl⟩ := h
      obtain ⟨id, hid, hfield⟩ := isIn_ok.mp hknown
      exact ⟨⟨id, hid, hfield⟩, rfl⟩
    · intro h
      obtain ⟨hin, rfl⟩ := h
      exact ⟨true, isIn_ok.mpr hin, ⟨⟩, rfl, rfl⟩
  · simp only [hrole, if_false, bind_ok, require_ok, pure_ok, decide_false, Bool.false_eq_true,
      false_and, true_and, false_or]
    constructor
    · intro h
      obtain ⟨_, hnone, rfl⟩ := h
      exact ⟨hnone, rfl⟩
    · intro h
      obtain ⟨hnone, rfl⟩ := h
      exact ⟨⟨⟩, hnone, rfl⟩

theorem callId_some {call : Json} {id : String} (h : callId call = some id) : id = idOf call := by
  simp only [callId] at h
  split at h
  · have hid := (Option.filter_eq_some_iff.mp h).1
    rw [idOf, hid]
    rfl
  · cases h

/-- Calls that can be made while others wait: each has what it needs and an id of its own. -/
def Callable (pending : List String) (calls : List Json) : Prop :=
  (∀ call ∈ calls, (callId call).isSome = true) ∧ (calls.map idOf).Nodup ∧
    ∀ call ∈ calls, idOf call ∉ pending

theorem addCall_ok {call : Json} : addCall pending call = .ok q ↔
    (callId call).isSome = true ∧ idOf call ∉ pending ∧ q = pending ++ [idOf call] := by
  simp only [addCall, bind_ok, demand_ok, require_ok, pure_ok]
  constructor
  · intro h
    obtain ⟨id, hid, _, hnew, rfl⟩ := h
    rw [callId_some hid] at hnew ⊢
    exact ⟨hid ▸ rfl, hnew, rfl⟩
  · intro h
    obtain ⟨hsome, hnew, rfl⟩ := h
    obtain ⟨id, hid⟩ := Option.isSome_iff_exists.mp hsome
    exact ⟨id, hid, ⟨⟩, callId_some hid ▸ hnew, by rw [callId_some hid]⟩

theorem addCalls_ok {calls : List Json} : calls.foldlM addCall pending = .ok q ↔
      Callable pending calls ∧ q = pending ++ calls.map idOf := by
  induction calls generalizing pending with
  | nil =>
    simp only [List.foldlM_nil, pure_ok, Callable, List.not_mem_nil, false_imp_iff, implies_true,
      List.map_nil, List.nodup_nil, and_self, true_and, List.append_nil]
    exact eq_comm
  | cons call rest ih =>
    simp only [List.foldlM_cons, bind_ok, addCall_ok, ih, Callable, List.forall_mem_cons,
      List.map_cons, List.nodup_cons]
    constructor
    · intro h
      obtain ⟨next, ⟨hsome, hnew, rfl⟩, ⟨hrest, hnodup, hfresh⟩, rfl⟩ := h
      refine ⟨⟨⟨hsome, hrest⟩, ⟨?_, hnodup⟩, hnew, ?_⟩, by simp⟩
      · intro hmem
        obtain ⟨other, hother, heq⟩ := List.mem_map.mp hmem
        exact hfresh other hother (List.mem_append_right _ (List.mem_singleton.mpr heq))
      · exact fun other hother hmem => hfresh other hother (List.mem_append_left _ hmem)
    · intro h
      obtain ⟨⟨⟨hsome, hrest⟩, ⟨hown, hnodup⟩, hnew, hfresh⟩, rfl⟩ := h
      refine ⟨_, ⟨hsome, hnew, rfl⟩, ⟨hrest, hnodup, ?_⟩, by simp⟩
      intro other hother hmem
      rcases List.mem_append.mp hmem with hmem | hmem
      · exact hfresh other hother hmem
      · exact hown (List.mem_singleton.mp hmem ▸ List.mem_map_of_mem hother)

/-- What Python can iterate, among the values that are not true. -/
def iterable : Json → Bool
  | .arr _ | .str _ | .obj _ => true
  | _ => false

/-- The calls of a message are a list of an assistant message, or nothing. -/
structure CallsOk (pending : List String) (message : Json) : Prop where
  asked : (callsOf message).truthy = true →
    field message "role" = .str "assistant" ∧ (callsOf message).asArr?.isSome = true
  iterable : iterable (callsOf message) = true
  callable : Callable pending ((callsOf message).asArr?.getD [])

theorem checkCalls_ok : checkCalls pending message = .ok q ↔
      CallsOk pending message ∧ q = pending ++ callIds message := by
  simp only [checkCalls, bind_ok, require_ok, callIds]
  constructor
  · intro h
    obtain ⟨_, hasked, h⟩ := h
    cases hcalls : callsOf message with
    | arr calls =>
      rw [hcalls] at h
      obtain ⟨hcallable, rfl⟩ := addCalls_ok.mp h
      exact ⟨⟨hcalls ▸ hasked, by rw [hcalls]; rfl, hcalls ▸ hcallable⟩, rfl⟩
    | str text | obj fields =>
      rw [hcalls] at h
      obtain rfl := Except.ok.inj h
      exact ⟨⟨hcalls ▸ hasked, by rw [hcalls]; rfl, by simp [hcalls, Json.asArr?, Callable]⟩,
        by simp [Json.asArr?]⟩
    | _ =>
      rw [hcalls] at h
      cases h
  · intro h
    obtain ⟨⟨hasked, hiter, hcallable⟩, rfl⟩ := h
    refine ⟨⟨⟩, hasked, ?_⟩
    cases hcalls : callsOf message with
    | arr calls =>
      rw [hcalls] at hcallable
      exact addCalls_ok.mpr ⟨hcallable, rfl⟩
    | str text | obj fields => simp [Json.asArr?]
    | _ =>
      rw [hcalls] at hiter
      cases hiter

/-! ### Conversations -/

/-- A content that is a text or a list of text parts. -/
def contentOk (message : Json) : Bool :=
  match field message "content" with
  | .arr parts => parts.all fun part => (partText part).isSome
  | content => isText content

/-- The checks of a message that no other message matters to. -/
structure HeadOk (message : Json) : Prop where
  isObj : message.isObj = true
  role : ∃ s ∈ roles, field message "role" = .str s
  keys : ∀ k ∈ message.keys, k ∈ messageFields
  reasoning : reasoningOk message = true
  content : contentOk message = true

/-- Messages that pass while some calls wait, and the calls that wait after them. -/
inductive Leaves : List String → List Json → List String → Prop
  | nil (pending : List String) : Leaves pending [] pending
  | cons {pending q : List String} {message : Json} {rest : List Json} (hhead : HeadOk message)
      (hturn : InTurn pending message) (hcalls : CallsOk (answered pending message) message)
      (hrest : Leaves (answered pending message ++ callIds message) rest q) :
      Leaves pending (message :: rest) q

theorem checkRole_ok : checkRole message = .ok () ↔
    message.isObj = true ∧ ∃ s ∈ roles, field message "role" = .str s := by
  unfold checkRole
  by_cases hobj : message.isObj = true
  · simp only [hobj, if_true, bind_ok, require_ok, true_and]
    constructor
    · intro h
      obtain ⟨known, hknown, rfl⟩ := h
      exact isIn_ok.mp hknown
    · exact fun h => ⟨true, isIn_ok.mpr h, rfl⟩
  · simp [hobj, refuse]

theorem mapM_isSome {f : Json → Option String} {items : List Json} :
    (items.mapM f).isSome = items.all fun item => (f item).isSome := by
  induction items with
  | nil => rfl
  | cons item rest ih =>
    rw [List.mapM_cons, List.all_cons, ← ih]
    cases f item <;> cases rest.mapM f <;> rfl

theorem checkContent_isOk :
    (∃ message', checkContent message = .ok message') ↔ contentOk message = true := by
  unfold checkContent contentOk
  cases field message "content" with
  | arr parts =>
    dsimp only
    rw [← mapM_isSome]
    cases parts.mapM partText with
    | none => simp [refuse]
    | some texts => simp
  | _ => simp [isText, refuse]

theorem checkMessage_iff {message' : Json} : checkMessage pending message = .ok (message', q) ↔
      HeadOk message ∧ checkContent message = .ok message' ∧ InTurn pending message ∧
        CallsOk (answered pending message) message ∧
        q = answered pending message ++ callIds message := by
  have hsame : checkContent message = .ok message' →
      checkAnswer pending message' = checkAnswer pending message ∧
      ∀ a, checkCalls a message' = checkCalls a message := by
    intro hcontent
    obtain ⟨-, -, -, hget, -⟩ := checkContent_ok hcontent
    have hrole := field_eq (hget "role" (by decide))
    have hid := field_eq (hget "tool_call_id" (by decide))
    have hcalls : callsOf message' = callsOf message := by
      rw [callsOf, callsOf, hget "tool_calls" (by decide)]
    refine ⟨by rw [checkAnswer, checkAnswer, hrole, hid], fun a => ?_⟩
    rw [checkCalls, checkCalls, hrole, hcalls]
  rw [checkMessage_ok, checkRole_ok]
  constructor
  · intro h
    obtain ⟨⟨hobj, hrole⟩, hkeys, hreasoning, hcontent, a, hanswer, hcalls⟩ := h
    obtain ⟨hsameAnswer, hsameCalls⟩ := hsame hcontent
    rw [hsameAnswer] at hanswer
    rw [hsameCalls] at hcalls
    obtain ⟨hturn, rfl⟩ := checkAnswer_ok.mp hanswer
    obtain ⟨hcallsOk, rfl⟩ := checkCalls_ok.mp hcalls
    exact ⟨⟨hobj, hrole, hkeys, hreasoning, checkContent_isOk.mp ⟨_, hcontent⟩⟩, hcontent, hturn,
      hcallsOk, rfl⟩
  · intro h
    obtain ⟨hhead, hcontent, hturn, hcallsOk, rfl⟩ := h
    obtain ⟨hsameAnswer, hsameCalls⟩ := hsame hcontent
    refine ⟨⟨hhead.isObj, hhead.role⟩, hhead.keys, hhead.reasoning, hcontent,
      answered pending message, ?_, ?_⟩
    · rw [hsameAnswer]
      exact checkAnswer_ok.mpr ⟨hturn, rfl⟩
    · rw [hsameCalls]
      exact checkCalls_ok.mpr ⟨hcallsOk, rfl⟩

theorem checkMessages_leaves {messages : List Json} :
    (∃ messages', checkMessages pending messages = .ok (messages', q)) ↔
      Leaves pending messages q := by
  induction messages generalizing pending with
  | nil =>
    constructor
    · intro h
      obtain ⟨messages', h⟩ := h
      obtain ⟨-, rfl⟩ := Prod.mk.inj (Except.ok.inj h)
      exact .nil _
    · intro h
      cases h
      exact ⟨[], rfl⟩
  | cons message rest ih =>
    constructor
    · intro h
      obtain ⟨messages', h⟩ := h
      simp only [checkMessages, bind_ok, pure_ok] at h
      obtain ⟨⟨message', next⟩, hchecked, ⟨others, left⟩, hothers, heq⟩ := h
      obtain ⟨-, rfl⟩ := Prod.mk.inj heq
      obtain ⟨hhead, -, hturn, hcalls, rfl⟩ := checkMessage_iff.mp hchecked
      exact .cons hhead hturn hcalls (ih.mp ⟨others, hothers⟩)
    · intro h
      cases h with
      | cons hhead hturn hcalls hrest =>
        obtain ⟨message', hcontent⟩ := checkContent_isOk.mpr hhead.content
        obtain ⟨others, hothers⟩ := ih.mpr hrest
        refine ⟨message' :: others, ?_⟩
        rw [checkMessages, checkMessage_iff.mpr ⟨hhead, hcontent, hturn, hcalls, rfl⟩, ok_bind,
          hothers, ok_bind]
        rfl

/-- While calls wait, tool messages come first, one for each call. -/
theorem Leaves.paired {messages : List Json} (h : Leaves pending messages [])
    (hpending : pending.Nodup) :
    ∃ results rest, messages = results ++ rest ∧ (∀ result ∈ results, isTool result = true) ∧
      (results.map answerId).Perm pending ∧ Paired rest := by
  generalize hq : ([] : List String) = q at h
  induction h with
  | nil pending => exact ⟨[], [], rfl, by simp, hq ▸ .refl _, .nil⟩
  | @cons pending q message rest hhead hturn hcalls hrest ih =>
    have hquiet : field message "role" ≠ .str "assistant" → callIds message = [] := by
      intro hrole
      have hfalse : ¬ (callsOf message).truthy = true := fun htrue => hrole (hcalls.asked htrue).1
      cases hvalue : callsOf message with
      | arr calls =>
        rw [hvalue] at hfalse
        simp only [Json.truthy, Bool.not_eq_true', Bool.not_eq_false, List.isEmpty_iff] at hfalse
        simp [callIds, hvalue, hfalse, Json.asArr?]
      | _ => simp [callIds, hvalue, Json.asArr?]
    rcases hturn with ⟨htool, id, hid, hfield⟩ | ⟨htool, rfl⟩
    · have hidOf : answerId message = id := by rw [answerId, hfield]; rfl
      have hanswered : answered pending message = pending.erase id := by
        rw [answered, if_pos htool, hidOf]
      have hnone : callIds message = [] := by
        refine hquiet fun hrole => ?_
        rw [isTool, hrole] at htool
        exact absurd htool (by decide)
      rw [hanswered, hnone, List.append_nil] at ih
      obtain ⟨results, others, rfl, hresults, hperm, hpaired⟩ := ih (hpending.erase id) hq
      refine ⟨message :: results, others, rfl, ?_, ?_, hpaired⟩
      · exact List.forall_mem_cons.mpr ⟨htool, hresults⟩
      · rw [List.map_cons, hidOf]
        exact (hperm.cons id).trans (List.perm_cons_erase hid).symm
    · have hanswered : answered [] message = [] := by
        rw [answered, if_neg (by rw [htool]; exact Bool.false_ne_true)]
      rw [hanswered, List.nil_append] at ih
      have hnodup : (callIds message).Nodup := hcalls.callable.2.1
      obtain ⟨results, others, rfl, hresults, hperm, hpaired⟩ := ih hnodup hq
      refine ⟨[], _, rfl, by simp, .refl _, ?_⟩
      by_cases hrole : field message "role" = .str "assistant"
      · exact .asked hrole hnodup hresults hperm hpaired
      · have hnone := hquiet hrole
        rw [hnone] at hperm
        obtain rfl : results = [] := List.map_eq_nil_iff.mp hperm.eq_nil
        exact .plain htool hnone hpaired

/-! ### What is accepted -/

theorem checkMessages_texts {messages messages' : List Json}
    (h : checkMessages pending messages = .ok (messages', q)) :
    ∀ message ∈ messages', isText (field message "content") = true := by
  induction messages generalizing pending messages' with
  | nil =>
    obtain ⟨rfl, -⟩ := Prod.mk.inj (Except.ok.inj h)
    simp
  | cons message rest ih =>
    simp only [checkMessages, bind_ok, pure_ok] at h
    obtain ⟨⟨message', next⟩, hchecked, ⟨others, left⟩, hothers, heq⟩ := h
    obtain ⟨rfl, rfl⟩ := Prod.mk.inj heq
    obtain ⟨-, hcontent, -⟩ := checkMessage_iff.mp hchecked
    exact List.forall_mem_cons.mpr ⟨(checkContent_ok hcontent).1, ih hothers⟩

/-- The name that a tool is offered under. -/
def toolName (tool : Json) : Option String := (toolFunction tool).map Prod.snd

variable {checkSchema : Json → Bool}

theorem checkTool_ok {tool : Json} (h : checkTool checkSchema names tool = .ok q) :
    ∃ name, toolName tool = some name ∧ name ∉ names ∧ q = names ++ [name] := by
  simp only [checkTool, bind_ok, demand_ok, require_ok, pure_ok] at h
  obtain ⟨function, hfunction, _, hname, _, -, _, -, _, -, rfl⟩ := h
  exact ⟨function.2, by rw [toolName, hfunction]; rfl, hname.2, rfl⟩

theorem checkTools_names {tools : List Json}
    (h : tools.foldlM (checkTool checkSchema) [] = .ok names) :
    tools.map toolName = names.map some ∧ names.Nodup := by
  refine foldlM_ok_induction (fun done names => done.map toolName = names.map some ∧ names.Nodup)
    ?_ tools [] [] names ⟨rfl, List.nodup_nil⟩ h
  intro done tool before after hdone hstep
  obtain ⟨name, hname, hnew, rfl⟩ := checkTool_ok hstep
  refine ⟨by simp [hdone.1, hname], ?_⟩
  exact List.nodup_append.mpr ⟨hdone.2, List.pairwise_singleton _ _, fun a ha b hb heq =>
    hnew (List.mem_singleton.mp hb ▸ heq ▸ ha)⟩

/-- What an accepted request satisfies. -/
structure Sound (body : Json) : Prop where
  conversation : ∃ messages, messagesOf body = some messages ∧ Paired messages ∧
    ∀ message ∈ messages, isText (field message "content") = true
  tools : ∃ (tools : List Json) (names : List String), toolsOf body = some tools ∧
    tools.map toolName = names.map some ∧
    names.Nodup ∧ (choiceOf body = .str "required" → tools ≠ []) ∧
    ((choiceOf body).isObj = true →
      ∃ name ∈ names, field (field (choiceOf body) "function") "name" = .str name)
  size : dumpSize body ≤ 1024 * 1024

theorem checkChoice_named {choice : Json} (h : checkChoice names choice = .ok ())
    (hobj : choice.isObj = true) :
    ∃ name ∈ names, field (field choice "function") "name" = .str name := by
  cases choice with
  | obj fields =>
    simp only [checkChoice, bind_ok, require_ok] at h
    obtain ⟨_, -, h⟩ := h
    cases hfunction : (Json.obj fields).get? "function" with
    | none =>
      rw [hfunction] at h
      simp only [Option.getD_none, bind_ok, require_ok] at h
      obtain ⟨known, hknown, rfl⟩ := h
      obtain ⟨name, -, hname⟩ := isIn_ok.mp hknown
      cases hname
    | some function =>
      rw [hfunction] at h
      cases function with
      | obj inner =>
        simp only [Option.getD_some, bind_ok, require_ok] at h
        obtain ⟨known, hknown, rfl⟩ := h
        have hsame : field (.obj fields) "function" = .obj inner := by
          rw [field, hfunction]
          rfl
        rw [hsame]
        exact isIn_ok.mp hknown
      | _ => cases h
  | _ => cases hobj

theorem validateChat_sound {value body : Json} (hobj : value.isObj = true)
    (h : validateChat checkSchema value = .ok body) : Sound body := by
  obtain ⟨opened, conversed, hopened, hconversed, hbody, htools, hsize⟩ := validateChat_ok.mp h
  constructor
  case conversation =>
    obtain ⟨messages, messages', hmessages, hchecked, rfl⟩ := checkConversation_ok.mp hconversed
    obtain ⟨-, -, -, -, -, hput⟩ := checkLimits_ok.mp hbody
    have hopen := openRequest_opened hobj hopened
    obtain ⟨hfound, hne⟩ := messagesOf_some.mp hmessages
    refine ⟨messages', messagesOf_some.mpr ⟨?_, fun hnil => hne ?_⟩, ?_, ?_⟩
    · rw [hput, get?_put (by rw [Json.isObj_assign, hopen.isObj]), if_neg (by decide),
        Json.get?_assign, if_pos rfl, hfound]
      rfl
    · have hlength := checkMessages_length hchecked
      rw [hnil, List.length_nil] at hlength
      exact List.length_eq_zero_iff.mp hlength.symm
    · -- The returned messages pass as well, so the pairing is theirs.
      have hleaves := checkMessages_leaves.mp ⟨messages', checkMessages_again hchecked⟩
      obtain ⟨results, rest, heq, -, hperm, hpaired⟩ := hleaves.paired List.nodup_nil
      obtain rfl : results = [] := List.map_eq_nil_iff.mp hperm.eq_nil
      rw [heq, List.nil_append]
      exact hpaired
    · exact checkMessages_texts hchecked
  case tools =>
    simp only [checkTools, bind_ok, demand_ok, require_ok] at htools
    obtain ⟨tools, hlisted, names, hnames, _, hchoice, hneeded⟩ := htools
    obtain ⟨hmap, hnodup⟩ := checkTools_names hnames
    refine ⟨tools, names, hlisted, hmap, hnodup, fun hrequired => ?_, checkChoice_named hchoice⟩
    rw [hrequired] at hneeded
    exact hneeded (by decide) (by decide)
  case size => exact hsize

end Chat
