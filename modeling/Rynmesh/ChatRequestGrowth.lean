import Rynmesh.ChatRequestSafety

/-!
# A conversation that goes on

A request that passed the check passes with more messages, when these pass after its own and
the whole is not too long (`validateChat_grows`): nothing but the loop over the messages and
the size reads them.
-/

namespace Chat

open Checked

/-! ### Messages -/

theorem checkMessages_append {pending : List String} {messages more : List Json} :
    checkMessages pending (messages ++ more) = do
      let first ← checkMessages pending messages
      let others ← checkMessages first.2 more
      return (first.1 ++ others.1, others.2) := by
  induction messages generalizing pending with
  | nil =>
    rw [List.nil_append, checkMessages, ok_bind]
    cases checkMessages pending more <;> rfl
  | cons message rest ih =>
    rw [List.cons_append, checkMessages, checkMessages]
    cases checkMessage pending message with
    | error e => rfl
    | ok checked =>
      rw [ok_bind, ok_bind, ih]
      cases checkMessages checked.2 rest with
      | error e => rfl
      | ok first =>
        show (checkMessages first.2 more >>= _) >>= _ = checkMessages first.2 more >>= _
        cases checkMessages first.2 more <;> rfl

/-- Messages that leave no call waiting end with one that makes none. -/
theorem callIds_last {pending : List String} {messages messages' : List Json}
    (h : checkMessages pending messages = .ok (messages', [])) {last : Json}
    (hlast : messages.getLast? = some last) : callIds last = [] := by
  obtain ⟨before, rfl⟩ := List.getLast?_eq_some_iff.mp hlast
  rw [checkMessages_append] at h
  simp only [bind_ok, pure_ok, checkMessages, Prod.mk.injEq] at h
  obtain ⟨first, _, others, ⟨checked, hchecked, ends, hends, hothers⟩, _, hq⟩ := h
  rw [Except.ok.injEq] at hends
  obtain ⟨_, _, _, _, hasked⟩ := checkMessage_iff.mp hchecked
  have hnone : answered first.2 last ++ callIds last = [] := by
    rw [← hasked, ← hq, ← hothers, ← hends]
  exact (List.append_eq_nil_iff.mp hnone).2

theorem checkMessage_as_it_is {pending : List String} {message : Json} (hhead : HeadOk message)
    (htext : isText (field message "content") = true) (hturn : InTurn pending message)
    (hcalls : CallsOk (answered pending message) message) :
    checkMessage pending message =
      .ok (message, answered pending message ++ callIds message) := by
  refine checkMessage_iff.mpr ⟨hhead, ?_, hturn, hcalls, rfl⟩
  unfold checkContent
  cases hcontent : field message "content" with
  | null | str => rfl
  | _ =>
    rw [hcontent] at htext
    cases htext

/-! ### Requests -/

/-- The last assignment counts. -/
theorem assign_over (k : String) (v w value : Json) :
    (value.assign k v).assign k w = value.assign k w := by
  cases value with
  | obj fields =>
    simp only [Json.assign, Json.obj.injEq, List.map_map, List.map_inj_left, Function.comp]
    intro f _
    by_cases hk : f.1 = k <;> simp [hk]
  | _ => rfl

theorem mergeOptions_assign (v value : Json) :
    mergeOptions (value.assign "messages" v) =
      (mergeOptions value).map fun body => body.assign "messages" v := by
  have hoptions : (value.assign "messages" v).get? "chat_template_kwargs" =
      value.get? "chat_template_kwargs" := by
    rw [Json.get?_assign, if_neg (by decide)]
  have hthinking : (value.assign "messages" v).get? "enable_thinking" =
      value.get? "enable_thinking" := by
    rw [Json.get?_assign, if_neg (by decide)]
  have hne : "messages" ≠ "chat_template_kwargs" := by decide
  unfold mergeOptions
  rw [hoptions]
  cases value.get? "chat_template_kwargs" with
  | none => rfl
  | some options =>
    simp only [hthinking, Json.assign_without hne]
    unfold require
    split
    · rw [ok_bind, ok_bind]
      cases options.get? "enable_thinking" with
      | none => rfl
      | some thinking =>
        simp only
        split
        · rw [ok_bind, ok_bind, ← assign_put (by decide)]
          rfl
        · rfl
    · rfl

theorem openRequest_assign {value opened : Json} (v : Json) (h : openRequest value = .ok opened) :
    openRequest (value.assign "messages" v) = .ok (opened.assign "messages" v) := by
  simp only [openRequest, bind_ok, require_ok, pure_ok] at h ⊢
  obtain ⟨_, hkeys, merged, hmerged, _, hthinking, rfl⟩ := h
  refine ⟨⟨⟩, by rwa [keys_assign], merged.assign "messages" v, ?_, ⟨⟩, ?_, rfl⟩
  · rw [mergeOptions_assign, hmerged]
    rfl
  · rwa [Json.get?_assign, if_neg (by decide)]

theorem checkLimits_assign {body limited : Json} (v : Json) (h : checkLimits body = .ok limited) :
    checkLimits (body.assign "messages" v) = .ok (limited.assign "messages" v) := by
  have hget : ∀ k, k ≠ "messages" → (body.assign "messages" v).get? k = body.get? k := by
    intro k hk
    rw [Json.get?_assign, if_neg hk]
  have htokensOf : tokensOf (body.assign "messages" v) = tokensOf body := by
    rw [tokensOf, tokensOf, hget _ (by decide)]
  obtain ⟨htokens, hstream, htemperature, htop, hstop, rfl⟩ := checkLimits_ok.mp h
  refine checkLimits_ok.mpr ⟨by rwa [htokensOf], ?_, ?_, ?_, ?_, ?_⟩
  · rwa [hget _ (by decide)]
  · rwa [checkSampling_congr 2 (hget _ (by decide))]
  · rwa [checkSampling_congr 1 (hget _ (by decide))]
  · rwa [hget _ (by decide)]
  · rw [htokensOf, assign_put (by decide)]

theorem checkTools_assign {checkSchema : Json → Bool} (body v : Json) :
    checkTools checkSchema (body.assign "messages" v) = checkTools checkSchema body := by
  have hget : ∀ k, k ≠ "messages" → (body.assign "messages" v).get? k = body.get? k := by
    intro k hk
    rw [Json.get?_assign, if_neg hk]
  rw [checkTools, checkTools, toolsOf, toolsOf, choiceOf, choiceOf, hget _ (by decide),
    hget _ (by decide)]

/-- **More messages.**  They are accepted unless the whole is too long. -/
theorem validateChat_grows {checkSchema : Json → Bool} {value body : Json}
    (hobj : value.isObj = true) (h : validateChat checkSchema value = .ok body)
    {messages more more' : List Json} (hmessages : value.get? "messages" = some (.arr messages))
    (hmore : checkMessages [] more = .ok (more', [])) :
    ∃ messages', checkMessages [] messages = .ok (messages', []) ∧
      body.get? "messages" = some (.arr messages') ∧
      validateChat checkSchema (value.assign "messages" (.arr (messages ++ more))) = do
        require (.valueError "chat exceeds 1 MiB")
          (dumpSize (body.assign "messages" (.arr (messages' ++ more'))) ≤ 1024 * 1024)
        return body.assign "messages" (.arr (messages' ++ more')) := by
  obtain ⟨opened, conversed, hopened, hconversed, hbody, htools, hsize⟩ := validateChat_ok.mp h
  have hopen := openRequest_opened hobj hopened
  obtain ⟨found, messages', hfound, hchecked, rfl⟩ := checkConversation_ok.mp hconversed
  obtain ⟨hlisted, hne⟩ := messagesOf_some.mp hfound
  have hsame : opened.get? "messages" = value.get? "messages" := by
    simp only [openRequest, bind_ok, require_ok, pure_ok] at hopened
    obtain ⟨_, _, merged, hmerged, _, _, rfl⟩ := hopened
    exact (mergeOptions_ok hobj hmerged).2.2.1 _ (by decide) (by decide)
  rw [hsame, hmessages, Option.some.injEq, Json.arr.injEq] at hlisted
  subst hlisted
  have hassigned : (opened.assign "messages" (.arr messages')).isObj = true := by
    rw [Json.isObj_assign, hopen.isObj]
  have hbodyMessages : body.get? "messages" = some (.arr messages') := by
    obtain ⟨_, _, _, _, _, rfl⟩ := checkLimits_ok.mp hbody
    rw [get?_put hassigned, if_neg (by decide), Json.get?_assign, if_pos rfl, hsame, hmessages]
    rfl
  have hconversation : checkConversation (opened.assign "messages" (.arr (messages ++ more))) =
      .ok (opened.assign "messages" (.arr (messages' ++ more'))) := by
    refine checkConversation_ok.mpr ⟨messages ++ more, messages' ++ more', ?_, ?_, ?_⟩
    · refine messagesOf_some.mpr ⟨?_, fun hnil => hne (List.append_eq_nil_iff.mp hnil).1⟩
      rw [Json.get?_assign, if_pos rfl, hsame, hmessages]
      rfl
    · rw [checkMessages_append, hchecked, ok_bind, hmore]
      rfl
    · rw [assign_over]
  have hlimits := checkLimits_assign (.arr (messages' ++ more')) hbody
  rw [assign_over] at hlimits
  refine ⟨messages', hchecked, hbodyMessages, ?_⟩
  rw [validateChat, openRequest_assign _ hopened, ok_bind, hconversation, ok_bind, hlimits, ok_bind,
    checkTools_assign, htools, ok_bind]

end Chat
