import Rynmesh.ChatRequest

/-!
# A chat request is checked once

What `validateChat` returns passes every check again and is returned unchanged
(`validateChat_idempotent`): each part of the check reads fields that the parts
after it leave alone.
-/

namespace Chat

open Checked

/-! ### Assigning fields -/

variable {value : Json}

theorem get?_put (hobj : value.isObj = true) (k j : String) (v : Json) :
    (put value k v).get? j = if j = k then some v else value.get? j := by
  simp only [put]
  by_cases hsome : (value.get? k).isSome = true
  · rw [if_pos hsome, Json.get?_assign]
    by_cases hj : j = k
    · obtain ⟨w, hw⟩ := Option.isSome_iff_exists.mp hsome
      rw [if_pos hj, if_pos hj, hj, hw]
      rfl
    · rw [if_neg hj, if_neg hj]
  · rw [if_neg hsome]
    cases value with
    | obj fields => simp [Json.withField, Json.get?, Json.lookup_setField]
    | _ => cases hobj

theorem isObj_put (value : Json) (k : String) (v : Json) :
    (put value k v).isObj = value.isObj := by
  simp only [put]
  split
  · exact Json.isObj_assign k v value
  · cases value <;> rfl

theorem setField_map {k j : String} (hne : k ≠ j) (v w : Json) (fields : List (String × Json)) :
    (Json.setField k v fields).map (fun f => if f.1 = j then (j, w) else f) =
      Json.setField k v (fields.map fun f => if f.1 = j then (j, w) else f) := by
  induction fields with
  | nil => simp [Json.setField, hne]
  | cons f rest ih =>
    obtain ⟨key, x⟩ := f
    have hkey : (if key = j then (j, w) else (key, x)).1 = key := by
      by_cases h : key = j
      · rw [if_pos h, h]
      · rw [if_neg h]
    obtain ⟨y, hy⟩ : ∃ y, (if key = j then (j, w) else (key, x)) = (key, y) :=
      ⟨_, Prod.ext hkey rfl⟩
    by_cases hlt : k < key
    · simp only [Json.setField, hlt, if_true, List.map_cons, hy, hne, if_false]
    · by_cases heq : key = k
      · have hirrefl : ¬ k < k := heq ▸ hlt
        simp only [Json.setField, heq, hirrefl, if_true, if_false, List.map_cons, hne]
      · simp only [Json.setField, hlt, heq, if_false, List.map_cons, hy, ih]

/-- Assigning one field and putting another commute. -/
theorem assign_put {k j : String} (hne : k ≠ j) (v w value : Json) :
    (put value k v).assign j w = put (value.assign j w) k v := by
  have hsome : ((value.assign j w).get? k).isSome = (value.get? k).isSome := by
    rw [Json.get?_assign, if_neg hne]
  simp only [put, hsome]
  split
  · exact Json.assign_comm hne v w value
  · cases value with
    | obj fields =>
      simp only [Json.withField, Json.assign, setField_map hne]
    | _ => rfl

theorem map_assign_absent {k : String} (v : Json) {fields : List (String × Json)}
    (h : k ∉ fields.map Prod.fst) :
    (fields.map fun f => if f.1 = k then (k, v) else f) = fields := by
  conv_rhs => rw [← List.map_id fields]
  refine List.map_congr_left fun f hf => if_neg fun heq => ?_
  exact h (heq ▸ List.mem_map_of_mem hf)

theorem assign_put_self (value : Json) (k : String) (v : Json) :
    (put value k v).assign k v = put value k v := by
  simp only [put]
  split
  · exact Json.assign_assign k v value
  next hnone =>
    cases value with
    | obj fields =>
      have habsent : k ∉ fields.map Prod.fst := by
        rw [← Dict.lookup_eq_none_iff]
        simpa [Json.get?] using hnone
      simp only [Json.withField, Json.assign, Json.obj.injEq]
      clear hnone
      induction fields with
      | nil => simp [Json.setField]
      | cons f rest ih =>
        have hrest : k ∉ rest.map Prod.fst := fun h => habsent (.tail _ h)
        have hne : ¬ f.1 = k := fun h => habsent (h ▸ (.head _))
        by_cases hlt : k < f.1
        · simp [Json.setField, hlt, hne, map_assign_absent v hrest]
        · simp [Json.setField, hlt, hne, ih hrest]
    | _ => rfl

theorem put_again (hobj : value.isObj = true) (k : String) (v : Json) :
    put (put value k v) k v = put value k v := by
  have hsome : ((put value k v).get? k).isSome = true := by
    rw [get?_put hobj, if_pos rfl]
    rfl
  conv_lhs => rw [put, if_pos hsome]
  exact assign_put_self value k v

/-! ### Options -/

variable {body : Json}

/-- The request after `mergeOptions` has nothing left to merge. -/
theorem mergeOptions_ok (hobj : value.isObj = true) (h : mergeOptions value = .ok body) :
    body.isObj = true ∧
      body.get? "chat_template_kwargs" = none ∧
      (∀ k, k ≠ "chat_template_kwargs" → k ≠ "enable_thinking" → body.get? k = value.get? k) ∧
      ((∀ k ∈ value.keys, k ∈ allowed) → ∀ k ∈ body.keys, k ∈ allowed) := by
  have hallowed : "enable_thinking" ∈ allowed := by decide
  have hne : "chat_template_kwargs" ≠ "enable_thinking" := by decide
  unfold mergeOptions at h
  split at h
  next hnone =>
    obtain rfl := Except.ok.inj h
    exact ⟨hobj, hnone, fun _ _ _ => rfl, id⟩
  next options hoptions =>
    have hwithout : (value.without "chat_template_kwargs").isObj = true := by
      rw [Json.isObj_without, hobj]
    rw [bind_ok] at h
    obtain ⟨_, -, h⟩ := h
    split at h
    · obtain rfl := Except.ok.inj h
      refine ⟨hwithout, ?_, fun k hk _ => ?_, fun hkeys k hk => ?_⟩
      · rw [Json.get?_without, if_pos rfl]
      · rw [Json.get?_without, if_neg hk]
      · obtain ⟨v, hv⟩ := Json.mem_keys_iff.mp hk
        rw [Json.get?_without] at hv
        split at hv
        · cases hv
        · exact hkeys k (Json.mem_keys_iff.mpr ⟨v, hv⟩)
    next thinking hthinking =>
      rw [bind_ok] at h
      obtain ⟨_, -, h⟩ := h
      obtain rfl := Except.ok.inj h
      refine ⟨by rw [isObj_put, hwithout], ?_, fun k hk hk' => ?_, fun hkeys k hk => ?_⟩
      · rw [get?_put hwithout, if_neg hne, Json.get?_without, if_pos rfl]
      · rw [get?_put hwithout, if_neg hk', Json.get?_without, if_neg hk]
      · obtain ⟨v, hv⟩ := Json.mem_keys_iff.mp hk
        rw [get?_put hwithout] at hv
        split at hv
        next heq => exact heq ▸ hallowed
        next =>
          rw [Json.get?_without] at hv
          split at hv
          · cases hv
          · exact hkeys k (Json.mem_keys_iff.mpr ⟨v, hv⟩)

/-- What holds of a request that was opened. -/
structure Opened (body : Json) : Prop where
  isObj : body.isObj = true
  merged : body.get? "chat_template_kwargs" = none
  keys : ∀ k ∈ body.keys, k ∈ allowed
  thinking : ∀ v, body.get? "enable_thinking" = some v → v.asBool?.isSome = true

theorem openRequest_opened (hobj : value.isObj = true) (h : openRequest value = .ok body) :
    Opened body := by
  simp only [openRequest, bind_ok, require_ok, pure_ok] at h
  obtain ⟨_, hkeys, merged, hmerged, _, hthinking, rfl⟩ := h
  obtain ⟨hisObj, hnone, -, hallowed⟩ := mergeOptions_ok hobj hmerged
  exact ⟨hisObj, hnone, hallowed hkeys, hthinking⟩

theorem Opened.openRequest (h : Opened body) : openRequest body = .ok body := by
  have hmerge : mergeOptions body = .ok body := by
    unfold mergeOptions
    rw [h.merged]
  unfold Chat.openRequest
  rw [require_of h.keys, ok_bind, hmerge, ok_bind, require_of h.thinking, ok_bind]
  rfl

variable {body' : Json}

/-- A field that is none of the options does not matter. -/
theorem Opened.of_same (h : Opened body) (hobj : body'.isObj = true)
    (hkeys : ∀ k ∈ body'.keys, k ∈ allowed)
    (hmerged : body'.get? "chat_template_kwargs" = body.get? "chat_template_kwargs")
    (hthinking : body'.get? "enable_thinking" = body.get? "enable_thinking") : Opened body' :=
  ⟨hobj, hmerged ▸ h.merged, hkeys, fun v hv => h.thinking v (hthinking ▸ hv)⟩

/-! ### Messages -/

theorem keys_assign (k : String) (v value : Json) : (value.assign k v).keys = value.keys := by
  cases value with
  | obj fields =>
    simp only [Json.assign, Json.keys, List.map_map]
    refine List.map_congr_left fun f _ => ?_
    by_cases h : f.1 = k
    · simp [h]
    · simp [h]
  | _ => rfl

theorem field_eq {value' : Json} {k : String} (h : value'.get? k = value.get? k) :
    field value' k = field value k := by
  rw [field, field, h]

variable {message message' : Json}

theorem checkContent_ok (h : checkContent message = .ok message') :
    isText (field message' "content") = true ∧ message'.isObj = message.isObj ∧
      message'.keys = message.keys ∧
      (∀ k, k ≠ "content" → message'.get? k = message.get? k) ∧
      checkContent message' = .ok message' := by
  unfold checkContent at h
  split at h
  next parts hparts =>
    split at h
    next texts htexts =>
      obtain rfl := Except.ok.inj h
      have hcontent : field (message.assign "content" (.str (String.join texts))) "content" =
          .str (String.join texts) := by
        rw [field, Json.get?_assign, if_pos rfl]
        cases hget : message.get? "content" with
        | none =>
          rw [field, hget] at hparts
          cases hparts
        | some _ => rfl
      refine ⟨by rw [hcontent]; rfl, Json.isObj_assign _ _ _, keys_assign _ _ _, ?_, ?_⟩
      · exact fun k hk => by rw [Json.get?_assign, if_neg hk]
      · rw [checkContent, hcontent]
    next => cases h
  next hnull =>
    obtain rfl := Except.ok.inj h
    exact ⟨by rw [hnull]; rfl, rfl, rfl, fun _ _ => rfl, by rw [checkContent, hnull]⟩
  next text htext =>
    obtain rfl := Except.ok.inj h
    exact ⟨by rw [htext]; rfl, rfl, rfl, fun _ _ => rfl, by rw [checkContent, htext]⟩
  next => cases h

variable {pending : List String}

variable {q : List String}

/-- What one round does, part by part. -/
theorem checkMessage_ok :
    checkMessage pending message = .ok (message', q) ↔
      checkRole message = .ok () ∧ (∀ k ∈ message.keys, k ∈ messageFields) ∧
      reasoningOk message = true ∧ checkContent message = .ok message' ∧
      ∃ answered, checkAnswer pending message' = .ok answered ∧
        checkCalls answered message' = .ok q := by
  simp only [checkMessage, bind_ok, require_ok, pure_ok, Prod.mk.injEq]
  constructor
  · intro h
    obtain ⟨_, hrole, _, hkeys, _, hreasoning, m, hcontent, answered, hanswer, asked, hcalls,
      rfl, rfl⟩ := h
    exact ⟨hrole, hkeys, hreasoning, hcontent, answered, hanswer, hcalls⟩
  · rintro ⟨hrole, hkeys, hreasoning, hcontent, answered, hanswer, hcalls⟩
    exact ⟨(), hrole, ⟨⟩, hkeys, ⟨⟩, hreasoning, message', hcontent, answered, hanswer, q, hcalls,
      rfl, rfl⟩

theorem checkMessage_again (h : checkMessage pending message = .ok (message', q)) :
    checkMessage pending message' = .ok (message', q) := by
  obtain ⟨hrole, hkeys, hreasoning, hcontent, answered, hanswer, hcalls⟩ := checkMessage_ok.mp h
  obtain ⟨-, hobj, hsameKeys, hget, hagain⟩ := checkContent_ok hcontent
  have hfield : field message' "role" = field message "role" :=
    field_eq (hget "role" (by decide))
  refine checkMessage_ok.mpr ⟨?_, hsameKeys ▸ hkeys, ?_, hagain, answered, hanswer, hcalls⟩
  · rw [checkRole, hobj, hfield]
    exact hrole
  · rw [reasoningOk, hget "reasoning_content" (by decide), hfield]
    exact hreasoning

variable {messages : List Json}

theorem checkMessages_again {messages' : List Json}
    (h : checkMessages pending messages = .ok (messages', q)) :
    checkMessages pending messages' = .ok (messages', q) := by
  induction messages generalizing pending messages' with
  | nil =>
    obtain ⟨rfl, rfl⟩ := Prod.mk.inj (Except.ok.inj h)
    rfl
  | cons message rest ih =>
    simp only [checkMessages, bind_ok, pure_ok] at h
    obtain ⟨checked, hchecked, ⟨others, left⟩, hothers, heq⟩ := h
    obtain ⟨rfl, rfl⟩ := Prod.mk.inj heq
    rw [checkMessages, checkMessage_again hchecked, ok_bind, ih hothers, ok_bind]
    rfl

theorem checkMessages_length {messages' : List Json}
    (h : checkMessages pending messages = .ok (messages', q)) :
    messages'.length = messages.length := by
  induction messages generalizing pending messages' with
  | nil =>
    obtain ⟨rfl, -⟩ := Prod.mk.inj (Except.ok.inj h)
    rfl
  | cons message rest ih =>
    simp only [checkMessages, bind_ok, pure_ok] at h
    obtain ⟨checked, -, ⟨others, left⟩, hothers, heq⟩ := h
    obtain ⟨rfl, rfl⟩ := Prod.mk.inj heq
    rw [List.length_cons, ih hothers, List.length_cons]

theorem messagesOf_some :
    messagesOf body = some messages ↔
      body.get? "messages" = some (.arr messages) ∧ messages ≠ [] := by
  unfold messagesOf
  split
  next items hitems =>
    rw [hitems]
    by_cases hnil : items = []
    · rw [if_pos hnil]
      simp only [reduceCtorEq, Option.some.injEq, Json.arr.injEq, false_iff, not_and, not_not]
      exact fun h => h ▸ hnil
    · rw [if_neg hnil]
      simp only [Option.some.injEq, Json.arr.injEq]
      exact ⟨fun h => ⟨h, h ▸ hnil⟩, fun h => h.1⟩
  next hother =>
    simp only [reduceCtorEq, false_iff, not_and]
    exact fun h => absurd h (hother messages)

theorem checkConversation_ok :
    checkConversation body = .ok body' ↔ ∃ messages messages', messagesOf body = some messages ∧
      checkMessages [] messages = .ok (messages', []) ∧
        body' = body.assign "messages" (.arr messages') := by
  simp only [checkConversation, bind_ok, demand_ok, require_ok, pure_ok]
  constructor
  · rintro ⟨messages, hmessages, checked, hchecked, _, hnone, rfl⟩
    exact ⟨messages, checked.1, hmessages, hnone ▸ hchecked, rfl⟩
  · rintro ⟨messages, messages', hmessages, hchecked, rfl⟩
    exact ⟨messages, hmessages, (messages', []), hchecked, ⟨⟩, rfl, rfl⟩

/-! ### Limits -/

theorem checkSampling_congr {key : String} (limit : Rat) (h : body'.get? key = body.get? key) :
    checkSampling body' key limit = checkSampling body key limit := by
  rw [checkSampling, checkSampling, h]

theorem checkLimits_ok : checkLimits body = .ok body' ↔
    (tokensOf body).asInt?.any (fun n => 1 ≤ n && n ≤ 131072) = true ∧
      ((body.get? "stream").getD (.bool false)).asBool?.isSome = true ∧
      checkSampling body "temperature" 2 = .ok () ∧ checkSampling body "top_p" 1 = .ok () ∧
      stopOk ((body.get? "stop").getD .null) = true ∧
      body' = put body "max_tokens" (tokensOf body) := by
  simp only [checkLimits, bind_ok, require_ok, pure_ok]
  constructor
  · rintro ⟨_, htokens, _, hstream, _, htemperature, _, htop, _, hstop, rfl⟩
    exact ⟨htokens, hstream, htemperature, htop, hstop, rfl⟩
  · rintro ⟨htokens, hstream, htemperature, htop, hstop, rfl⟩
    exact ⟨⟨⟩, htokens, ⟨⟩, hstream, ⟨⟩, htemperature, ⟨⟩, htop, ⟨⟩, hstop, rfl⟩

/-! ### The whole request -/

theorem validateChat_ok {checkSchema : Json → Bool} :
    validateChat checkSchema value = .ok body ↔ ∃ opened conversed,
      openRequest value = .ok opened ∧ checkConversation opened = .ok conversed ∧
        checkLimits conversed = .ok body ∧ checkTools checkSchema body = .ok () ∧
          dumpSize body ≤ 1024 * 1024 := by
  simp only [validateChat, bind_ok, require_ok, pure_ok]
  constructor
  · rintro ⟨opened, hopened, conversed, hconversed, body', hbody, _, htools, _, hsize, rfl⟩
    exact ⟨opened, conversed, hopened, hconversed, hbody, htools, hsize⟩
  · rintro ⟨opened, conversed, hopened, hconversed, hbody, htools, hsize⟩
    exact ⟨opened, hopened, conversed, hconversed, body, hbody, (), htools, ⟨⟩, hsize, rfl⟩

/-- **Checked once.**  What the check returns it accepts and returns unchanged. -/
theorem validateChat_idempotent {checkSchema : Json → Bool} (hobj : value.isObj = true)
    (h : validateChat checkSchema value = .ok body) : validateChat checkSchema body = .ok body := by
  obtain ⟨opened, conversed, hopened, hconversed, hbody, htools, hsize⟩ := validateChat_ok.mp h
  have hopen := openRequest_opened hobj hopened
  obtain ⟨messages, messages', hmessages, hchecked, rfl⟩ := checkConversation_ok.mp hconversed
  obtain ⟨htokens, hstream, htemperature, htop, hstop, rfl⟩ := checkLimits_ok.mp hbody
  have hassigned : (opened.assign "messages" (.arr messages')).isObj = true := by
    rw [Json.isObj_assign, hopen.isObj]
  have hget := get?_put hassigned "max_tokens"
  generalize hbody' : put (opened.assign "messages" (.arr messages')) "max_tokens"
    (tokensOf (opened.assign "messages" (.arr messages'))) = body at *
  have hgetBody : ∀ k, k ≠ "max_tokens" →
      body.get? k = (opened.assign "messages" (.arr messages')).get? k := fun k hk => by
    rw [← hbody', hget, if_neg hk]
  have hgetOpened : ∀ k, k ≠ "max_tokens" → k ≠ "messages" → body.get? k = opened.get? k :=
    fun k hk hk' => by rw [hgetBody k hk, Json.get?_assign, if_neg hk']
  have hlisted : messagesOf body = some messages' := by
    obtain ⟨hfound, hne⟩ := messagesOf_some.mp hmessages
    refine messagesOf_some.mpr ⟨?_, fun hnil => hne (List.length_eq_zero_iff.mp ?_)⟩
    · rw [hgetBody _ (by decide), Json.get?_assign, if_pos rfl, hfound]
      rfl
    · rw [← checkMessages_length hchecked, hnil, List.length_nil]
  have htokensBody : body.get? "max_tokens" =
      some (tokensOf (opened.assign "messages" (.arr messages'))) := by
    rw [← hbody', hget, if_pos rfl]
  have hopenBody : Opened body := by
    refine hopen.of_same ?_ ?_ (hgetOpened _ (by decide) (by decide))
      (hgetOpened _ (by decide) (by decide))
    · rw [← hbody', isObj_put, hassigned]
    · intro k hk
      obtain ⟨v, hv⟩ := Json.mem_keys_iff.mp hk
      by_cases htok : k = "max_tokens"
      · rw [htok]
        decide
      · rw [hgetBody k htok] at hv
        have hkey := Json.mem_keys_iff.mpr ⟨v, hv⟩
        rw [keys_assign] at hkey
        exact hopen.keys k hkey
  have hmessagesAgain : body.assign "messages" (.arr messages') = body := by
    rw [← hbody', assign_put (by decide), Json.assign_assign]
  refine validateChat_ok.mpr ⟨body, body, hopenBody.openRequest, ?_, ?_, htools, hsize⟩
  · exact checkConversation_ok.mpr
      ⟨messages', messages', hlisted, checkMessages_again hchecked, hmessagesAgain.symm⟩
  · have htokensOf : tokensOf body = tokensOf (opened.assign "messages" (.arr messages')) := by
      rw [tokensOf, htokensBody]
      rfl
    refine checkLimits_ok.mpr ⟨htokensOf ▸ htokens, ?_, ?_, ?_, ?_, ?_⟩
    · rw [hgetBody _ (by decide)]
      exact hstream
    · rw [checkSampling_congr 2 (hgetBody _ (by decide))]
      exact htemperature
    · rw [checkSampling_congr 1 (hgetBody _ (by decide))]
      exact htop
    · rw [hgetBody _ (by decide)]
      exact hstop
    · rw [htokensOf, ← hbody', put_again hassigned]

end Chat
