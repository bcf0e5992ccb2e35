import Rynmesh.ChatRequestSafety

/-!
# Requests that crash the check

`Regular` lists the values that a check of `validateChat` reaches and cannot
handle.  Where none of them is reached the check returns or raises `ValueError`,
and `validateChat_meets_iff` says that this is exact: what the check promises of a
request holds if and only if the request is regular.
-/

namespace Chat

open Checked

/-! ### One message -/

@[simp] theorem isValueError_valueError (message : String) :
    (Fault.valueError message).IsValueError := ⟨message, rfl⟩

theorem onlyFails_refuse {α : Type} (message : String) :
    OnlyFails Fault.IsValueError (refuse message : Except Fault α) := by
  simp [refuse]

variable {value : Json}

theorem onlyFails_isIn {names : List String} :
    OnlyFails Fault.IsValueError (isIn names value) ↔ hashable value = true := by
  cases value <;> simp [isIn, hashable, Fault.IsValueError]

theorem onlyFails_checkRole {message : Json} :
    OnlyFails Fault.IsValueError (checkRole message) ↔
      (message.isObj = true → hashable (field message "role") = true) := by
  unfold checkRole
  by_cases hobj : message.isObj = true
  · simp [hobj, onlyFails_isIn]
  · simp [hobj, onlyFails_refuse]

theorem onlyFails_checkContent (message : Json) :
    OnlyFails Fault.IsValueError (checkContent message) := by
  unfold checkContent
  cases field message "content" with
  | arr parts =>
    cases h : parts.mapM partText with
    | none => simp [h, onlyFails_refuse]
    | some texts => simp [h]
  | _ => simp [onlyFails_refuse]

variable {pending : List String}

theorem onlyFails_checkAnswer {message : Json} :
    OnlyFails Fault.IsValueError (checkAnswer pending message) ↔
      (isTool message = true → hashable (field message "tool_call_id") = true) := by
  unfold checkAnswer isTool
  by_cases hrole : field message "role" = .str "tool"
  · simp [hrole, onlyFails_isIn]
  · simp [hrole]

theorem onlyFails_addCall (pending : List String) (call : Json) :
    OnlyFails Fault.IsValueError (addCall pending call) := by
  simp [addCall]

theorem onlyFails_checkCalls {message : Json} :
    OnlyFails Fault.IsValueError (checkCalls pending message) ↔
      (callsOf message).truthy = true ∨ iterable (callsOf message) = true := by
  simp only [checkCalls, onlyFails_bind, onlyFails_require, isValueError_valueError, implies_true,
    true_and, require_ok]
  cases hcalls : callsOf message with
  | arr calls => simp [iterable, onlyFails_foldlM onlyFails_addCall]
  | str text | obj fields => simp [iterable]
  | _ =>
    simp only [iterable, Bool.false_eq_true, or_false, Json.asArr?, Option.isSome_none, and_false,
      onlyFails_error]
    constructor
    · intro h
      by_contra hfalse
      obtain ⟨message, hmessage⟩ := h PUnit.unit fun htrue => absurd htrue hfalse
      cases hmessage
    · exact fun htrue _ hnone => (hnone htrue).elim

/-- A message whose checks, as far as they are reached, can handle its values. -/
structure MessageRegular (pending : List String) (message : Json) : Prop where
  role : message.isObj = true → hashable (field message "role") = true
  callId : HeadOk message → isTool message = true →
    hashable (field message "tool_call_id") = true
  calls : HeadOk message → InTurn pending message →
    (callsOf message).truthy = true ∨ iterable (callsOf message) = true

theorem onlyFails_checkMessage {message : Json} :
    OnlyFails Fault.IsValueError (checkMessage pending message) ↔
      MessageRegular pending message := by
  simp only [checkMessage, onlyFails_bind, onlyFails_require, isValueError_valueError, implies_true,
    true_and, require_ok, onlyFails_checkRole, onlyFails_checkContent, onlyFails_checkAnswer,
    onlyFails_checkCalls, onlyFails_pure, and_true]
  have hsame : ∀ message', checkContent message = .ok message' →
      isTool message' = isTool message ∧
      field message' "tool_call_id" = field message "tool_call_id" ∧
      callsOf message' = callsOf message ∧
      checkAnswer pending message' = checkAnswer pending message := by
    intro message' hcontent
    obtain ⟨-, -, -, hget, -⟩ := checkContent_ok hcontent
    have hrole := field_eq (hget "role" (by decide))
    have hid := field_eq (hget "tool_call_id" (by decide))
    refine ⟨by rw [isTool, isTool, hrole], hid, ?_, by rw [checkAnswer, checkAnswer, hrole, hid]⟩
    rw [callsOf, callsOf, hget "tool_calls" (by decide)]
  constructor
  · intro h
    obtain ⟨hrole, hrest⟩ := h
    have hreach : HeadOk message →
        (isTool message = true → hashable (field message "tool_call_id") = true) ∧
        ∀ a, checkAnswer pending message = .ok a →
          (callsOf message).truthy = true ∨ iterable (callsOf message) = true := by
      intro hhead
      obtain ⟨message', hcontent⟩ := checkContent_isOk.mpr hhead.content
      obtain ⟨htool, hid, hcalls, hanswer⟩ := hsame message' hcontent
      have hparts := hrest () (checkRole_ok.mpr ⟨hhead.isObj, hhead.role⟩) ⟨⟩ hhead.keys ⟨⟩
        hhead.reasoning message' hcontent
      rw [htool, hid, hcalls, hanswer] at hparts
      exact hparts
    refine ⟨hrole, fun hhead => (hreach hhead).1, fun hhead hturn => ?_⟩
    exact (hreach hhead).2 _ (checkAnswer_ok.mpr ⟨hturn, rfl⟩)
  · intro h
    refine ⟨h.role, fun _ hrole _ hkeys _ hreasoning message' hcontent => ?_⟩
    obtain ⟨htool, hid, hcalls, hanswer⟩ := hsame message' hcontent
    obtain ⟨hobj, hknown⟩ := checkRole_ok.mp hrole
    have hhead : HeadOk message :=
      ⟨hobj, hknown, hkeys, hreasoning, checkContent_isOk.mp ⟨message', hcontent⟩⟩
    rw [htool, hid, hcalls, hanswer]
    exact ⟨h.callId hhead, fun a ha => h.calls hhead (checkAnswer_ok.mp ha).1⟩

/-- Each message that is reached is regular, with the calls that wait there. -/
def MessagesRegular (pending : List String) (messages : List Json) : Prop :=
  ∀ pre message post, messages = pre ++ message :: post →
    ∀ q, Leaves pending pre q → MessageRegular q message

theorem onlyFails_checkMessages {messages : List Json} :
    OnlyFails Fault.IsValueError (checkMessages pending messages) ↔
      MessagesRegular pending messages := by
  induction messages generalizing pending with
  | nil =>
    refine iff_of_true onlyFails_ok fun pre message post heq => ?_
    exact absurd heq (by simp)
  | cons message rest ih =>
    simp only [checkMessages, onlyFails_bind, onlyFails_checkMessage, ih, onlyFails_pure,
      implies_true, and_true]
    constructor
    · intro h
      obtain ⟨hhead, hrest⟩ := h
      intro pre m post heq q hleaves
      cases hleaves with
      | nil =>
        obtain ⟨rfl, -⟩ := List.cons.inj heq
        exact hhead
      | @cons _ _ first others hfirst hturn hcalls hothers =>
        obtain ⟨rfl, hsplit⟩ := List.cons.inj heq
        obtain ⟨message', hcontent⟩ := checkContent_isOk.mpr hfirst.content
        exact hrest (message', _)
          (checkMessage_iff.mpr ⟨hfirst, hcontent, hturn, hcalls, rfl⟩) others m post hsplit q
          hothers
    · intro h
      refine ⟨h [] message rest rfl pending (.nil pending), fun checked hchecked => ?_⟩
      obtain ⟨message', next⟩ := checked
      obtain ⟨hhead, -, hturn, hcalls, rfl⟩ := checkMessage_iff.mp hchecked
      intro pre m post heq q hleaves
      exact h (message :: pre) m post (by rw [heq]; rfl) q (.cons hhead hturn hcalls hleaves)

/-! ### The rest of a request -/

/-- An integer that a float can hold, where there is an integer. -/
def representable : Option Json → Bool
  | some (.int n) => n.natAbs < floatOverflow
  | _ => true

theorem onlyFails_checkSampling {body : Json} {key : String} {limit : Rat} :
    OnlyFails Fault.IsValueError (checkSampling body key limit) ↔
      representable (body.get? key) = true := by
  unfold checkSampling
  cases body.get? key with
  | none => simp [representable]
  | some value =>
    cases value with
    | int n =>
      by_cases hlarge : floatOverflow ≤ n.natAbs
      · simp [representable, hlarge, Fault.IsValueError]
      · simp [representable, hlarge, not_le.mp hlarge]
    | _ => simp [representable, onlyFails_refuse]

theorem onlyFails_schemaParts (value : Json) (depth : Nat) :
    OnlyFails Fault.IsValueError (schemaParts value depth) := by
  cases value <;> simp [schemaParts]

theorem onlyFails_searchSchema (nodes : Nat) (pending : List (Json × Nat)) :
    OnlyFails Fault.IsValueError (searchSchema nodes pending) := by
  induction nodes generalizing pending with
  | zero =>
    cases pending with
    | nil => simp [searchSchema]
    | cons => simp [searchSchema, onlyFails_refuse]
  | succ nodes ih =>
    cases pending with
    | nil => simp [searchSchema]
    | cons part rest => simp [searchSchema, onlyFails_schemaParts, ih]

theorem onlyFails_checkTool (checkSchema : Json → Bool) (names : List String) (tool : Json) :
    OnlyFails Fault.IsValueError (checkTool checkSchema names tool) := by
  simp [checkTool, validateToolSchema, onlyFails_searchSchema]

/-- A choice of a function names one by something that can be looked up. -/
def ChoiceRegular (choice : Json) : Prop :=
  choice.isObj = true → field choice "type" = .str "function" →
    ((choice.get? "function").getD (.obj [])).isObj = true ∧
      hashable (field ((choice.get? "function").getD (.obj [])) "name") = true

theorem onlyFails_checkChoice {names : List String} {choice : Json} :
    OnlyFails Fault.IsValueError (checkChoice names choice) ↔ ChoiceRegular choice := by
  unfold checkChoice ChoiceRegular
  cases choice with
  | obj fields =>
    simp only [onlyFails_bind, onlyFails_require, isValueError_valueError, implies_true, true_and,
      require_ok, Json.isObj, true_imp_iff]
    cases ((Json.obj fields).get? "function").getD (.obj []) with
    | obj inner =>
      simp [onlyFails_isIn]
    | _ => simp [Fault.IsValueError]
  | _ => simp [Json.isObj, onlyFails_refuse]

theorem onlyFails_mergeOptions (body : Json) :
    OnlyFails Fault.IsValueError (mergeOptions body) := by
  unfold mergeOptions
  cases body.get? "chat_template_kwargs" with
  | none => exact onlyFails_ok
  | some options =>
    simp only [onlyFails_bind, onlyFails_require, isValueError_valueError, implies_true, true_and]
    intro _ _
    cases options.get? "enable_thinking" with
    | none => exact onlyFails_pure
    | some thinking => simp

theorem onlyFails_openRequest (value : Json) :
    OnlyFails Fault.IsValueError (openRequest value) := by
  simp [openRequest, onlyFails_mergeOptions]

/-! ### Regular requests -/

/-- The first checks and those of the conversation pass. -/
def Conversed (value : Json) : Prop :=
  (∃ opened, openRequest value = .ok opened) ∧
    ∃ messages, messagesOf value = some messages ∧ Leaves [] messages []

/-- The checks of the two fields before the sampling parameters pass. -/
def Bounded (value : Json) : Prop :=
  (tokensOf value).asInt?.any (fun n => 1 ≤ n && n ≤ 131072) = true ∧
    ((value.get? "stream").getD (.bool false)).asBool?.isSome = true

/-- No check that is reached meets a value it cannot handle. -/
structure Regular (checkSchema : Json → Bool) (value : Json) : Prop where
  messages : (∃ opened, openRequest value = .ok opened) →
    ∀ messages, messagesOf value = some messages → MessagesRegular [] messages
  temperature : Conversed value → Bounded value → representable (value.get? "temperature") = true
  topP : Conversed value → Bounded value → checkSampling value "temperature" 2 = .ok () →
    representable (value.get? "top_p") = true
  choice : Conversed value → Bounded value → checkSampling value "temperature" 2 = .ok () →
    checkSampling value "top_p" 1 = .ok () → stopOk ((value.get? "stop").getD .null) = true →
    ∀ tools names, toolsOf value = some tools →
      tools.foldlM (checkTool checkSchema) [] = .ok names → ChoiceRegular (choiceOf value)

/-- The fields that the first checks change. -/
def optionFields : List String := ["chat_template_kwargs", "enable_thinking"]

theorem openRequest_get? {opened : Json} (hobj : value.isObj = true)
    (h : openRequest value = .ok opened) :
    opened.isObj = true ∧ ∀ k, k ∉ optionFields → opened.get? k = value.get? k := by
  simp only [openRequest, bind_ok, require_ok, pure_ok] at h
  obtain ⟨_, -, merged, hmerged, _, -, rfl⟩ := h
  obtain ⟨hisObj, -, hget, -⟩ := mergeOptions_ok hobj hmerged
  refine ⟨hisObj, fun k hk => hget k ?_ ?_⟩
  · exact fun heq => hk (heq ▸ by decide)
  · exact fun heq => hk (heq ▸ by decide)

theorem messagesOf_congr {value' : Json} (h : value'.get? "messages" = value.get? "messages") :
    messagesOf value' = messagesOf value := by
  rw [messagesOf, messagesOf, h]

theorem onlyFails_checkConversation {body : Json} :
    OnlyFails Fault.IsValueError (checkConversation body) ↔
      ∀ messages, messagesOf body = some messages → MessagesRegular [] messages := by
  simp only [checkConversation, onlyFails_bind, onlyFails_demand, isValueError_valueError,
    implies_true, true_and, demand_ok, onlyFails_checkMessages, onlyFails_require, onlyFails_pure,
    and_true]

theorem onlyFails_checkLimits {body : Json} : OnlyFails Fault.IsValueError (checkLimits body) ↔
    (Bounded body → representable (body.get? "temperature") = true ∧
      (checkSampling body "temperature" 2 = .ok () →
        representable (body.get? "top_p") = true)) := by
  simp only [checkLimits, onlyFails_bind, onlyFails_require, isValueError_valueError, implies_true,
    true_and, require_ok, onlyFails_checkSampling, onlyFails_pure, and_true, Bounded]
  constructor
  · intro h hbounded
    obtain ⟨htemperature, hrest⟩ := h ⟨⟩ hbounded.1 ⟨⟩ hbounded.2
    exact ⟨htemperature, hrest ()⟩
  · intro h _ htokens _ hstream
    obtain ⟨htemperature, hrest⟩ := h ⟨htokens, hstream⟩
    exact ⟨htemperature, fun _ => hrest⟩

theorem onlyFails_checkTools {checkSchema : Json → Bool} {body : Json} :
    OnlyFails Fault.IsValueError (checkTools checkSchema body) ↔
      ∀ tools names, toolsOf body = some tools →
        tools.foldlM (checkTool checkSchema) [] = .ok names → ChoiceRegular (choiceOf body) := by
  simp only [checkTools, onlyFails_bind, onlyFails_demand, isValueError_valueError, implies_true,
    true_and, demand_ok, onlyFails_foldlM (onlyFails_checkTool checkSchema), onlyFails_checkChoice,
    onlyFails_require, and_true]
  exact ⟨fun h tools names htools hnames => h tools htools names hnames,
    fun h tools htools names hnames => h tools names htools hnames⟩

theorem conversed_iff (hobj : value.isObj = true) : Conversed value ↔
    ∃ opened conversed, openRequest value = .ok opened ∧
      checkConversation opened = .ok conversed := by
  constructor
  · intro h
    obtain ⟨⟨opened, hopened⟩, messages, hmessages, hleaves⟩ := h
    obtain ⟨messages', hchecked⟩ := checkMessages_leaves.mpr hleaves
    have hsame := (openRequest_get? hobj hopened).2 "messages" (by decide)
    exact ⟨opened, _, hopened, checkConversation_ok.mpr
      ⟨messages, messages', messagesOf_congr hsame ▸ hmessages, hchecked, rfl⟩⟩
  · intro h
    obtain ⟨opened, conversed, hopened, hconversed⟩ := h
    obtain ⟨messages, messages', hmessages, hchecked, -⟩ := checkConversation_ok.mp hconversed
    have hsame := (openRequest_get? hobj hopened).2 "messages" (by decide)
    exact ⟨⟨opened, hopened⟩, messages, messagesOf_congr hsame ▸ hmessages,
      checkMessages_leaves.mp ⟨messages', hchecked⟩⟩

/-- The fields that the checks before the tools read of the request as it came. -/
def readFields : List String := ["max_tokens", "stream", "temperature", "top_p", "stop", "tools",
  "tool_choice"]

theorem conversed_get? {opened conversed : Json} (hobj : value.isObj = true)
    (hopened : openRequest value = .ok opened)
    (hconversed : checkConversation opened = .ok conversed) :
    conversed.isObj = true ∧ ∀ k ∈ readFields, conversed.get? k = value.get? k := by
  obtain ⟨_, messages', -, -, rfl⟩ := checkConversation_ok.mp hconversed
  obtain ⟨hisObj, hget⟩ := openRequest_get? hobj hopened
  refine ⟨by rw [Json.isObj_assign, hisObj], fun k hk => ?_⟩
  have hplain : k ∉ optionFields ∧ k ≠ "messages" := by
    revert k
    decide
  rw [Json.get?_assign, if_neg hplain.2, hget k hplain.1]

/-- The check runs into nothing it cannot handle exactly on regular requests. -/
theorem onlyFails_validateChat {checkSchema : Json → Bool} (hobj : value.isObj = true) :
    OnlyFails Fault.IsValueError (validateChat checkSchema value) ↔ Regular checkSchema value := by
  simp only [validateChat, onlyFails_bind, onlyFails_openRequest, true_and,
    onlyFails_checkConversation, onlyFails_checkLimits, onlyFails_checkTools, onlyFails_require,
    isValueError_valueError, implies_true, onlyFails_pure, and_true]
  have hread : ∀ opened conversed, openRequest value = .ok opened →
      checkConversation opened = .ok conversed →
      (Bounded conversed ↔ Bounded value) ∧
      conversed.get? "temperature" = value.get? "temperature" ∧
      conversed.get? "top_p" = value.get? "top_p" ∧
      conversed.get? "stop" = value.get? "stop" := by
    intro opened conversed hopened hconversed
    obtain ⟨-, hget⟩ := conversed_get? hobj hopened hconversed
    refine ⟨?_, hget _ (by decide), hget _ (by decide), hget _ (by decide)⟩
    rw [Bounded, Bounded, tokensOf, tokensOf, hget "max_tokens" (by decide),
      hget "stream" (by decide)]
  have htools : ∀ opened conversed body, openRequest value = .ok opened →
      checkConversation opened = .ok conversed → checkLimits conversed = .ok body →
      toolsOf body = toolsOf value ∧ choiceOf body = choiceOf value := by
    intro opened conversed body hopened hconversed hbody
    obtain ⟨hisObj, hget⟩ := conversed_get? hobj hopened hconversed
    obtain ⟨-, -, -, -, -, rfl⟩ := checkLimits_ok.mp hbody
    rw [toolsOf, toolsOf, choiceOf, choiceOf, get?_put hisObj, if_neg (by decide), get?_put hisObj,
      if_neg (by decide), hget "tools" (by decide), hget "tool_choice" (by decide)]
    exact ⟨rfl, rfl⟩
  constructor
  · intro h
    constructor
    case messages =>
      intro hopens messages hmessages
      obtain ⟨opened, hopened⟩ := hopens
      have hsame := (openRequest_get? hobj hopened).2 "messages" (by decide)
      exact (h opened hopened).1 messages (messagesOf_congr hsame ▸ hmessages)
    case temperature =>
      intro hconverses hbounded
      obtain ⟨opened, conversed, hopened, hconversed⟩ := (conversed_iff hobj).mp hconverses
      obtain ⟨hsame, htemperature, -, -⟩ := hread opened conversed hopened hconversed
      rw [← htemperature]
      exact (((h opened hopened).2 conversed hconversed).1 (hsame.mpr hbounded)).1
    case topP =>
      intro hconverses hbounded hsampled
      obtain ⟨opened, conversed, hopened, hconversed⟩ := (conversed_iff hobj).mp hconverses
      obtain ⟨hsame, htemperature, htop, -⟩ := hread opened conversed hopened hconversed
      rw [← checkSampling_congr 2 htemperature] at hsampled
      rw [← htop]
      exact (((h opened hopened).2 conversed hconversed).1 (hsame.mpr hbounded)).2 hsampled
    case choice =>
      intro hconverses hbounded hsampled hsampled' hstop tools names hlisted hnames
      obtain ⟨opened, conversed, hopened, hconversed⟩ := (conversed_iff hobj).mp hconverses
      obtain ⟨hsame, htemperature, htop, hstopSame⟩ := hread opened conversed hopened hconversed
      have hbounds := hsame.mpr hbounded
      have hbody : checkLimits conversed = .ok (put conversed "max_tokens" (tokensOf conversed)) :=
        checkLimits_ok.mpr
          ⟨hbounds.1, hbounds.2, (checkSampling_congr 2 htemperature).trans hsampled,
          (checkSampling_congr 1 htop).trans hsampled', by rw [hstopSame]; exact hstop, rfl⟩
      obtain ⟨htoolsSame, hchoiceSame⟩ := htools opened conversed _ hopened hconversed hbody
      rw [← hchoiceSame]
      exact ((h opened hopened).2 conversed hconversed).2 _ hbody tools names
        (htoolsSame.trans hlisted) hnames
  · intro h opened hopened
    have hsame := (openRequest_get? hobj hopened).2 "messages" (by decide)
    refine ⟨fun messages hmessages => h.messages ⟨opened, hopened⟩ messages
      (messagesOf_congr hsame ▸ hmessages), fun conversed hconversed => ?_⟩
    have hconverses : Conversed value := (conversed_iff hobj).mpr ⟨opened, conversed, hopened,
      hconversed⟩
    obtain ⟨hbounded, htemperature, htop, hstop⟩ := hread opened conversed hopened hconversed
    refine ⟨fun hbounds => ⟨?_, fun hsampled => ?_⟩, fun body hbody => ?_⟩
    · rw [htemperature]
      exact h.temperature hconverses (hbounded.mp hbounds)
    · rw [checkSampling_congr 2 htemperature] at hsampled
      rw [htop]
      exact h.topP hconverses (hbounded.mp hbounds) hsampled
    · intro tools names hlisted hnames
      obtain ⟨htoolsSame, hchoiceSame⟩ := htools opened conversed body hopened hconversed hbody
      obtain ⟨htokens, hstream, hsampled, hsampled', hstopOk, -⟩ := checkLimits_ok.mp hbody
      rw [checkSampling_congr 2 htemperature] at hsampled
      rw [checkSampling_congr 1 htop] at hsampled'
      rw [hstop] at hstopOk
      rw [hchoiceSame]
      exact h.choice hconverses (hbounded.mp ⟨htokens, hstream⟩) hsampled hsampled' hstopOk tools
        names (htoolsSame.symm.trans hlisted) hnames

/-- What is promised of the check of a request: it returns or raises `ValueError`, and what it
returns is accepted again unchanged and is sound. -/
def Meets (checkSchema : Json → Bool) (value : Json) : Prop :=
  OnlyFails Fault.IsValueError (validateChat checkSchema value) ∧
    ∀ body, validateChat checkSchema value = .ok body →
      validateChat checkSchema body = .ok body ∧ Sound body

/-- **Chat request validation.**  The check meets its promise on an object if and only if no
check that is reached meets a value it cannot handle. -/
theorem validateChat_meets_iff (checkSchema : Json → Bool) (fields : List (String × Json)) :
    Meets checkSchema (.obj fields) ↔ Regular checkSchema (.obj fields) := by
  constructor
  · exact fun h => (onlyFails_validateChat rfl).mp h.1
  · intro h
    refine ⟨(onlyFails_validateChat rfl).mpr h, fun body hbody => ?_⟩
    exact ⟨validateChat_idempotent rfl hbody, validateChat_sound rfl hbody⟩

/-- An assistant message whose `tool_calls` is null, as some clients send it. -/
def nullCalls : Json :=
  .obj [("messages", .arr [.obj [("content", .str "hi"), ("role", .str "assistant"),
    ("tool_calls", .null)]])]

/-- **A null crashes the check.** -/
theorem null_tool_calls_crash : ¬ Meets (fun _ => true) nullCalls := by
  intro h
  have hcrash : validateChat (fun _ => true) nullCalls = .error .typeError := by decide
  obtain ⟨message, hmessage⟩ := h.1 .typeError hcrash
  cases hmessage

end Chat
