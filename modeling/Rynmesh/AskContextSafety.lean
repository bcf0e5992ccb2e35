import Rynmesh.AskContext

/-!
# The asked prompt fits and is understood

* `trimHistory_spec`: the kept history is the longest suffix that fits;
* `trimMaterial_cut`: what is left of an article is a prefix of it;
* `Shown` is what a preview promises;
* `decode_chat`: a provider reads back the messages of a chat prompt, unless one of them
  is empty;
* `preview_meets_iff`: a preview is refused or shown as promised and understood, unless the
  history holds an empty answer that is sent, or the manifest's capabilities are no container.
-/

namespace Ask.Context

open Checked

/-! ### The loops -/

section Loops

variable {fits : List Turn → Bool} {history kept : List Turn}

/-- The oldest turns go first. -/
theorem trimHistory_suffix (fits : List Turn → Bool) (history : List Turn) :
    (trimHistory fits history).1 <:+ history := by
  induction history with
  | nil => exact List.suffix_refl _
  | cons turn rest ih =>
    rw [trimHistory]
    split
    · exact List.suffix_refl _
    · exact ih.trans (List.suffix_cons turn rest)

theorem trimHistory_omitted (fits : List Turn → Bool) (history : List Turn) :
    (trimHistory fits history).2 + (trimHistory fits history).1.length = history.length := by
  induction history with
  | nil => rfl
  | cons turn rest ih =>
    rw [trimHistory]
    split
    · exact Nat.zero_add _
    · rw [List.length_cons, ← ih]
      exact Nat.add_right_comm _ 1 _

theorem trimHistory_fits (fits : List Turn → Bool) (history : List Turn) :
    (trimHistory fits history).1 = [] ∨ fits (trimHistory fits history).1 = true := by
  induction history with
  | nil => exact Or.inl rfl
  | cons turn rest ih =>
    rw [trimHistory]
    split
    · rename_i hfits
      exact Or.inr hfits
    · exact ih

/-- No more turns are left out than must be. -/
theorem trimHistory_longest (hkept : kept <:+ history) (hfits : fits kept = true) :
    kept <:+ (trimHistory fits history).1 := by
  induction history with
  | nil => exact hkept
  | cons turn rest ih =>
    rw [trimHistory]
    split
    · exact hkept
    · rename_i hnot
      refine ih ((List.suffix_cons_iff.mp hkept).resolve_left fun heq => ?_)
      exact hnot (heq ▸ hfits)

end Loops

theorem clipChars_prefix (limit : Nat) (cs : List Char) : clipChars limit cs <+: cs := by
  induction cs generalizing limit with
  | nil => exact List.prefix_refl _
  | cons c cs ih =>
    rw [clipChars]
    split
    · exact (List.prefix_cons_inj c).mpr (ih _)
    · exact List.nil_prefix

theorem clip_prefix (text : String) (limit : Nat) : (clip text limit).toList <+: text.toList := by
  unfold clip
  rw [String.toList_ofList]
  exact clipChars_prefix limit text.toList

/-- An excerpt with less of its text. -/
structure Shorter (whole cut : Excerpt) : Prop where
  source : cut.source = whole.source
  title : cut.title = whole.title
  sourceUrl : cut.sourceUrl = whole.sourceUrl
  text : cut.untrustedText.toList <+: whole.untrustedText.toList

theorem Shorter.refl (excerpt : Excerpt) : Shorter excerpt excerpt :=
  ⟨rfl, rfl, rfl, List.prefix_refl _⟩

theorem Shorter.trans {whole cut last : Excerpt} (h : Shorter whole cut)
    (hlast : Shorter cut last) :
    Shorter whole last :=
  ⟨hlast.source.trans h.source, hlast.title.trans h.title, hlast.sourceUrl.trans h.sourceUrl,
    hlast.text.trans h.text⟩

theorem shorter_refl (material : List Excerpt) : List.Forall₂ Shorter material material :=
  List.forall₂_same.mpr fun excerpt _ => Shorter.refl excerpt

variable {whole : List Excerpt}

theorem shorter_trans {cut last : List Excerpt} (h : List.Forall₂ Shorter whole cut)
    (hlast : List.Forall₂ Shorter cut last) : List.Forall₂ Shorter whole last := by
  induction h generalizing last with
  | nil => exact hlast
  | cons hhead _ ih =>
    cases hlast with
    | cons hhead' htail' => exact .cons (hhead.trans hhead') (ih htail')

theorem cutFirst_shorter (excess largest : Nat) (material : List Excerpt) :
    List.Forall₂ Shorter material (cutLargest.cutFirst excess largest material) := by
  induction material with
  | nil => exact .nil
  | cons excerpt rest ih =>
    rw [cutLargest.cutFirst]
    split
    · exact .cons ⟨rfl, rfl, rfl, clip_prefix _ _⟩ (shorter_refl rest)
    · exact .cons (Shorter.refl excerpt) ih

/-- The excerpts are only cut at their ends. -/
theorem trimMaterial_cut (budget : Nat) (size : List Excerpt → Nat) (material : List Excerpt) :
    List.Forall₂ Shorter material (trimMaterial budget size material) := by
  induction material using trimMaterial.induct budget size with
  | case1 material hle =>
    rw [trimMaterial, if_pos hle]
    exact shorter_refl material
  | case2 material hle hnone =>
    rw [trimMaterial, if_neg hle]
    split
    · exact shorter_refl material
    · rename_i hsome
      rw [hnone] at hsome
      cases hsome
  | case3 material hle cut hcut ih =>
    rw [trimMaterial, if_neg hle]
    split
    · rename_i hnone
      rw [hcut] at hnone
      cases hnone
    rename_i other hother
    rw [hcut] at hother
    cases hother
    unfold cutLargest at hcut
    simp only at hcut
    split at hcut
    · cases hcut
    · cases hcut
      exact shorter_trans (cutFirst_shorter _ _ _) ih

theorem trimMaterial_of_fits {budget : Nat} {size : List Excerpt → Nat} {material : List Excerpt}
    (h : size material ≤ budget) : trimMaterial budget size material = material := by
  rw [trimMaterial, if_pos h]

/-- An excerpt of an article. -/
structure Excerpted (article : Article) (excerpt : Excerpt) : Prop where
  title : excerpt.title = article.title
  sourceUrl : excerpt.sourceUrl = article.sourceUrl
  text : excerpt.untrustedText.toList <+: article.text.toList

theorem excerpted_mapIdx (limit : Nat) (articles : List Article) (first : Nat) :
    List.Forall₂ Excerpted articles (articles.mapIdx fun index article =>
      ⟨first + index, article.title, article.sourceUrl, clip article.text limit⟩) := by
  induction articles generalizing first with
  | nil => exact .nil
  | cons article rest ih =>
    rw [List.mapIdx_cons]
    refine .cons ⟨rfl, rfl, clip_prefix _ _⟩ ?_
    have hrest := ih (first + 1)
    simpa only [Nat.add_assoc, Nat.add_comm 1] using hrest

/-- An excerpt begins its article. -/
theorem excerpts_excerpted (budget : Nat) (articles : List Article) :
    List.Forall₂ Excerpted articles (excerpts budget articles) := by
  have h := excerpted_mapIdx (budget / max 2 (articles.length * 2)) articles 1
  simpa only [excerpts, Nat.add_comm 1] using h

theorem excerpts_numbered (budget : Nat) (articles : List Article) :
    (excerpts budget articles).map Excerpt.source = List.range' 1 articles.length := by
  refine List.ext_getElem (by simp [excerpts]) fun i _ _ => ?_
  simp [excerpts, Nat.add_comm]

theorem excerpted_cut {articles : List Article} {cut : List Excerpt}
    (h : List.Forall₂ Excerpted articles whole) (hcut : List.Forall₂ Shorter whole cut) :
    List.Forall₂ Excerpted articles cut := by
  induction h generalizing cut with
  | nil =>
    cases hcut
    exact .nil
  | cons hhead _ ih =>
    cases hcut with
    | cons hshorter hrest =>
      exact .cons ⟨hshorter.title.trans hhead.title, hshorter.sourceUrl.trans hhead.sourceUrl,
        hshorter.text.trans hhead.text⟩ (ih hrest)

theorem shorter_source {cut : List Excerpt} (h : List.Forall₂ Shorter whole cut) :
    cut.map Excerpt.source = whole.map Excerpt.source := by
  induction h with
  | nil => rfl
  | cons hhead _ ih => rw [List.map_cons, List.map_cons, hhead.source, ih]

/-! ### Reading a chat prompt -/

section Chat

variable {p : Platform}

theorem Turn.written (turn : Turn) : turn.json.Written p.float := by
  have hkeys : (["role", "content"] : List String).Nodup := by decide
  exact ⟨hkeys, trivial, trivial, trivial⟩

theorem turns_written (turns : List Turn) :
    Json.WrittenItems p.float (turns.map Turn.json) := by
  induction turns with
  | nil => trivial
  | cons turn rest ih => exact ⟨turn.written, ih⟩

/-- A reader of the prompt gets the turns back. -/
theorem parse_turns (turns : List Turn) :
    Json.parse p.float (encoded (.arr (turns.map Turn.json))).toList =
      some (.arr (turns.map Turn.json)) := by
  rw [encoded, String.toList_ofList]
  exact Json.parse_text p.float (turns_written turns)

theorem Turn.get?_role (turn : Turn) : turn.json.get? "role" = some (.str turn.role) := rfl

theorem Turn.get?_content (turn : Turn) : turn.json.get? "content" = some (.str turn.content) := rfl

theorem Turn.hasKeys (turn : Turn) : turn.json.HasKeys ["role", "content"] :=
  ⟨rfl, fun _ h => h, fun _ h => h⟩

theorem checkTurn_json {index : Nat} {turn : Turn}
    (hrole : turn.role ∈ ["system", "user", "assistant"])
    (hsystem : turn.role = "system" → index = 0) (hcontent : turn.content ≠ "") :
    checkTurn index turn.json = .ok turn := by
  unfold checkTurn
  simp only [turn.get?_role, turn.get?_content, Option.bind_some, Json.asStr?, demand_some, ok_bind,
    require_of turn.hasKeys, require_of (And.intro hrole hsystem), require_of hcontent]
  rfl

theorem checkTurn_content {index : Nat} {turn checked : Turn}
    (h : checkTurn index turn.json = .ok checked) : turn.content ≠ "" := by
  unfold checkTurn at h
  simp only [turn.get?_content, Option.bind_some, Json.asStr?, demand_some, ok_bind, bind_ok,
    require_ok] at h
  obtain ⟨-, -, role, -, -, -, -, hcontent, -⟩ := h
  exact hcontent

/-- Turns with a role and a content pass the checks. -/
theorem checkTurns_json {turns : List Turn} {index : Nat}
    (h : ∀ turn ∈ turns, turn.role ∈ ["user", "assistant"] ∧ turn.content ≠ "") :
    checkTurns index (turns.map Turn.json) = .ok turns := by
  induction turns generalizing index with
  | nil => rfl
  | cons turn rest ih =>
    obtain ⟨hrole, hcontent⟩ := h turn (.head _)
    have hsystem : turn.role ≠ "system" := by
      intro heq
      rw [heq] at hrole
      exact absurd hrole (by decide)
    rw [List.map_cons, checkTurns, checkTurn_json (.tail _ hrole)
      (fun heq => absurd heq hsystem) hcontent, ok_bind,
      ih fun other hother => h other (.tail _ hother), ok_bind]
    rfl

/-- An empty content does not. -/
theorem checkTurns_content {turns checked : List Turn} {index : Nat}
    (h : checkTurns index (turns.map Turn.json) = .ok checked) :
    ∀ turn ∈ turns, turn.content ≠ "" := by
  induction turns generalizing index checked with
  | nil => simp
  | cons turn rest ih =>
    obtain ⟨first, hfirst, h⟩ := bind_ok.mp h
    obtain ⟨others, hothers, -⟩ := bind_ok.mp h
    intro other hother
    rw [List.mem_cons] at hother
    obtain rfl | hother := hother
    · exact checkTurn_content hfirst
    · exact ih hothers other hother

variable {question : String} {history : List Turn} {material : List Excerpt}

theorem chatTurns_getLast? : (chatTurns question history material).getLast? =
    some ⟨"user", question⟩ := by
  unfold chatTurns
  simp [List.getLast?_cons, List.getLast?_append]

theorem chatTurns_length (question : String) (history : List Turn) (material : List Excerpt) :
    (chatTurns question history material).length ≤ history.length + 3 := by
  unfold chatTurns
  split <;> simp

/-- A prompt that decodes has no empty turn in it. -/
theorem decode_content {result : Option (List Turn)}
    (h : decodeChatPrompt p (promptText true question history material) chatFormat = .ok result) :
    ∀ turn ∈ history, turn.content ≠ "" := by
  have htext : promptText true question history material =
      encoded (.arr ((chatTurns question history material).map Turn.json)) := if_pos rfl
  unfold decodeChatPrompt at h
  rw [if_neg (by decide), htext, parse_turns, Option.bind_some, Json.asArr?, demand_some] at h
  obtain ⟨-, -, h⟩ := bind_ok.mp h
  rw [ok_bind] at h
  obtain ⟨-, -, h⟩ := bind_ok.mp h
  obtain ⟨checked, hchecked, -⟩ := bind_ok.mp h
  intro turn hturn
  refine checkTurns_content hchecked turn ?_
  unfold chatTurns
  simp [hturn]

theorem checkTurns_chat (hquestion : question ≠ "")
    (hroles : ∀ turn ∈ history, turn.role ∈ ["user", "assistant"])
    (h : ∀ turn ∈ history, turn.content ≠ "") :
    checkTurns 0 ((chatTurns question history material).map Turn.json) =
      .ok (chatTurns question history material) := by
  have hrest : ∀ turn ∈ (chatTurns question history material).tail,
      turn.role ∈ ["user", "assistant"] ∧ turn.content ≠ "" := by
    intro turn hturn
    rw [chatTurns, List.tail_cons, List.mem_append, List.mem_append, List.mem_singleton] at hturn
    obtain hmaterial | hhistory | rfl := hturn
    · split at hmaterial
      · cases hmaterial
      · rw [List.mem_singleton] at hmaterial
        subst hmaterial
        refine ⟨by simp, fun heq => ?_⟩
        have hchars := congrArg String.toList heq
        simp at hchars
    · exact ⟨hroles turn hhistory, h turn hhistory⟩
    · exact ⟨by simp, hquestion⟩
  have htail : checkTurns 1 _ = .ok _ := checkTurns_json hrest
  rw [chatTurns, List.tail_cons] at htail
  rw [chatTurns, List.map_cons, checkTurns, checkTurn_json (by simp) (fun _ => rfl) (by decide),
    ok_bind, htail, ok_bind]
  rfl

/-- A provider reads back the messages of a chat prompt, when none of them is empty. -/
theorem decode_chat (hquestion : question ≠ "") (hlength : history.length ≤ 509)
    (hroles : ∀ turn ∈ history, turn.role ∈ ["user", "assistant"])
    (hsize : (promptText true question history material).utf8ByteSize ≤ 64 * 1024)
    (h : ∀ turn ∈ history, turn.content ≠ "") :
    decodeChatPrompt p (promptText true question history material) chatFormat =
      .ok (some (chatTurns question history material)) := by
  have htext : promptText true question history material =
      encoded (.arr ((chatTurns question history material).map Turn.json)) := if_pos rfl
  have hcount : 1 ≤ ((chatTurns question history material).map Turn.json).length ∧
      ((chatTurns question history material).map Turn.json).length ≤ 512 := by
    rw [List.length_map]
    have hle := chatTurns_length question history material
    exact ⟨Nat.succ_le_succ (Nat.zero_le _), by omega⟩
  unfold decodeChatPrompt
  rw [if_neg (by decide), require_of ⟨rfl, hsize⟩, ok_bind, htext, parse_turns, Option.bind_some,
    Json.asArr?, demand_some, ok_bind, require_of hcount, ok_bind,
    checkTurns_chat hquestion hroles h, ok_bind, chatTurns_getLast?]
  rfl

end Chat

/-! ### Previews -/

section Preview

variable {p : Platform} {imports : String → Option Import} {catalog : String → List Offer}
  {conversation : Conversation} {question : String}

/-- What a preview shows, and of what it is made. -/
structure Shown (conversation : Conversation) (question : String) (structured : Bool)
    (articles : List Article) (history : List Turn) (material : List Excerpt) (shown : Preview) :
    Prop where
  prompt : shown.prompt = promptText structured question history material
  within : (shown.prompt.utf8ByteSize : Int) ≤
    min (64 * 1024) (shown.contextWindow - shown.maxOutputTokens - 1024)
  plain : structured = false → question.toList <:+ shown.prompt.toList
  last : (chatTurns question history material).getLast? = some ⟨"user", question⟩
  suffix : history <:+ eligible conversation
  omitted : shown.historyMessagesOmitted + history.length = (eligible conversation).length
  excerpted : List.Forall₂ Excerpted articles material
  numbered : material.map Excerpt.source = List.range' 1 articles.length
  sources : shown.sources = List.zipWith source articles material
  format : shown.promptFormat = if structured then chatFormat else "text"

/-- A preview is refused with a code of its own, or shown as promised and understood. -/
def Meets (p : Platform) (imports : String → Option Import) (catalog : String → List Offer)
    (conversation : Conversation) (question : String) : Prop :=
  (∃ code ∈ conversationErrors, preview p imports catalog conversation question = .error code) ∨
  ∃ shown structured articles history material,
    preview p imports catalog conversation question = .ok shown ∧
    (conversation.contextIds.getD []).mapM (describe p imports) = .ok articles ∧
    Shown conversation question structured articles history material shown ∧
    decodeChatPrompt p shown.prompt shown.promptFormat =
      .ok (if structured then some (chatTurns question history material) else none)

def container : Json → Bool
  | .arr _ | .obj _ | .str _ => true
  | _ => false

/-- The capabilities are a container, and no history that fits a chat prompt, with the articles
at their first length, holds an empty message. -/
def Readable (p : Platform) (imports : String → Option Import) (catalog : String → List Offer)
    (conversation : Conversation) (question : String) : Prop :=
  p.strip question ≠ "" ∧ question.utf8ByteSize ≤ maxPromptBytes →
    ∀ offer, selected catalog conversation = some offer →
      ((offer.manifest.get? "capabilities").all container = true) ∧
      ∀ budget articles, offer.structured = .ok true → offer.budget = .ok budget →
        (conversation.contextIds.getD []).mapM (describe p imports) = .ok articles →
        ∀ history, history <:+ eligible conversation →
          fits true question budget.bytes (excerpts budget.bytes articles) history = true →
          ∀ turn ∈ history, turn.content ≠ ""

variable {offer : Offer}

theorem structured_of_container (h : (offer.manifest.get? "capabilities").all container = true) :
    ∃ structured, offer.structured = .ok structured := by
  unfold Offer.structured
  cases hget : offer.manifest.get? "capabilities" with
  | none => exact ⟨false, rfl⟩
  | some capabilities =>
    rw [hget, Option.all_some] at h
    cases capabilities with
    | arr items | obj fields | str text => exact ⟨_, rfl⟩
    | null | bool b | int n | float value text => cases h

variable {structured : Bool}

theorem container_of_structured (h : offer.structured = .ok structured) :
    (offer.manifest.get? "capabilities").all container = true := by
  unfold Offer.structured at h
  cases hget : offer.manifest.get? "capabilities" with
  | none => rfl
  | some capabilities =>
    rw [hget] at h
    cases capabilities <;> first | rfl | cases h

theorem structured_error {code : String} (h : offer.structured = .error code) :
    code = "TypeError" := by
  unfold Offer.structured at h
  split at h
  · rename_i capabilities _
    cases capabilities <;> cases h
    all_goals rfl
  · cases h

theorem budget_onlyFails (offer : Offer) :
    OnlyFails (· ∈ conversationErrors) offer.budget := by
  unfold Offer.budget
  simp [conversationErrors]

/-- What a prompt may take of the context window. -/
theorem budget_ok {budget : Budget} (h : offer.budget = .ok budget) :
    (budget.bytes : Int) = min (64 * 1024) (budget.contextWindow - budget.outputTokens - 1024) := by
  unfold Offer.budget at h
  simp only [bind_ok, require_ok, demand_ok, pure_ok] at h
  obtain ⟨contextWindow, -, maximumOutput, -, -, -, -, hpos, rfl⟩ := h
  show ((min _ _ : Int).toNat : Int) = _
  rw [Int.toNat_of_nonneg (by omega)]
  rfl

theorem describe_onlyFails (identifier : String) :
    OnlyFails (· ∈ conversationErrors) (describe p imports identifier) := by
  unfold describe
  simp [conversationErrors]

theorem eligible_roles : ∀ turn ∈ eligible conversation, turn.role ∈ ["user", "assistant"] := by
  intro turn hturn
  obtain ⟨message, -, rfl⟩ := List.mem_map.mp hturn
  cases message.role <;> simp [roleName]

/-- What a preview that succeeds has found. -/
theorem preview_ok {shown : Preview}
    (h : preview p imports catalog conversation question = .ok shown) :
    (p.strip question ≠ "" ∧ question.utf8ByteSize ≤ maxPromptBytes) ∧
    ∃ offer structured budget articles,
      selected catalog conversation = some offer ∧ offer.structured = .ok structured ∧
      offer.budget = .ok budget ∧
      (conversation.contextIds.getD []).mapM (describe p imports) = .ok articles ∧
      (shown.prompt.utf8ByteSize : Int) ≤ budget.bytes ∧
      Shown conversation question structured articles
        (trimHistory (fits structured question budget.bytes (excerpts budget.bytes articles))
          (eligible conversation)).1
        (trimMaterial budget.bytes (fun material => (promptText structured question
          (trimHistory (fits structured question budget.bytes (excerpts budget.bytes articles))
            (eligible conversation)).1 material).utf8ByteSize) (excerpts budget.bytes articles))
        shown := by
  unfold preview at h
  simp only [bind_ok, require_ok, demand_ok, pure_ok] at h
  obtain ⟨-, hquestion, offer, hoffer, structured, hstructured, budget, hbudget, articles,
    harticles,
    -, hsize, rfl⟩ := h
  refine ⟨hquestion, offer, structured, budget, articles, hoffer, hstructured, hbudget, harticles,
    Int.ofNat_le.mpr hsize, rfl, ?_, ?_, chatTurns_getLast?, trimHistory_suffix _ _,
    trimHistory_omitted _ _,
    excerpted_cut (excerpts_excerpted _ _) (trimMaterial_cut _ _ _), ?_, rfl, rfl⟩
  · exact (Int.ofNat_le.mpr hsize).trans_eq (budget_ok hbudget)
  · intro hplain
    show _ <:+ (promptText structured _ _ _).toList
    rw [hplain, promptText, if_neg (by simp), String.toList_append]
    exact List.suffix_append _ _
  · rw [shorter_source (trimMaterial_cut _ _ _), excerpts_numbered]

theorem prompt_fits {budget : Nat} {history : List Turn}
    (hhistory : history <:+ eligible conversation) (hne : history ≠ [])
    (hfits : fits structured question budget whole history = true) :
    history <:+ (trimHistory (fits structured question budget whole) (eligible conversation)).1 ∧
      (promptText structured question
        (trimHistory (fits structured question budget whole) (eligible conversation)).1
          whole).utf8ByteSize ≤ budget := by
  have hlongest := trimHistory_longest hhistory hfits
  refine ⟨hlongest, ?_⟩
  cases trimHistory_fits (fits structured question budget whole) (eligible conversation) with
  | inl hnil =>
    rw [hnil, List.suffix_nil] at hlongest
    exact absurd hlongest hne
  | inr hkept =>
    unfold fits at hkept
    rw [Bool.and_eq_true, decide_eq_true_eq] at hkept
    exact hkept.1

/-- What a preview shows. -/
theorem preview_shown {budget : Budget} {articles : List Article}
    (hquestion : p.strip question ≠ "" ∧ question.utf8ByteSize ≤ maxPromptBytes)
    (hoffer : selected catalog conversation = some offer)
    (hstructured : offer.structured = .ok structured) (hbudget : offer.budget = .ok budget)
    (harticles : (conversation.contextIds.getD []).mapM (describe p imports) = .ok articles)
    (hsize : (promptText structured question
      (trimHistory (fits structured question budget.bytes (excerpts budget.bytes articles))
        (eligible conversation)).1 (excerpts budget.bytes articles)).utf8ByteSize ≤ budget.bytes) :
    ∃ shown, preview p imports catalog conversation question = .ok shown := by
  unfold preview
  rw [require_of hquestion, ok_bind, hoffer, demand_some, ok_bind, hstructured, ok_bind, hbudget,
    ok_bind, harticles, ok_bind]
  simp only
  rw [trimMaterial_of_fits hsize, require_of hsize, ok_bind]
  exact ⟨_, rfl⟩

theorem preview_onlyFails (hcontainer : p.strip question ≠ "" ∧
      question.utf8ByteSize ≤ maxPromptBytes → ∀ offer, selected catalog conversation = some offer →
        (offer.manifest.get? "capabilities").all container = true) :
    OnlyFails (· ∈ conversationErrors) (preview p imports catalog conversation question) := by
  refine onlyFails_bind.mpr ⟨by simp [conversationErrors], fun _ hquestion =>
    onlyFails_bind.mpr ⟨by simp [conversationErrors], fun offer hoffer =>
      onlyFails_bind.mpr ⟨fun code hcode => ?_, fun _ _ =>
        onlyFails_bind.mpr ⟨budget_onlyFails offer, fun _ _ =>
          onlyFails_bind.mpr ⟨onlyFails_mapM describe_onlyFails _, fun _ _ =>
            onlyFails_bind.mpr ⟨by simp [conversationErrors], fun _ _ => onlyFails_pure⟩⟩⟩⟩⟩⟩
  obtain ⟨structured, hstructured⟩ :=
    structured_of_container (hcontainer (require_ok.mp hquestion) offer (demand_ok.mp hoffer))
  rw [hstructured] at hcode
  cases hcode

/-- Where no empty turn fits, none is kept. -/
theorem kept_readable {budget : Nat}
    (h : ∀ history, history <:+ eligible conversation →
      fits structured question budget whole history = true → ∀ turn ∈ history, turn.content ≠ "") :
    (∀ turn ∈ (trimHistory (fits structured question budget whole) (eligible conversation)).1,
      turn.content ≠ "") ∧
      (trimHistory (fits structured question budget whole) (eligible conversation)).1.length ≤
        509 := by
  cases trimHistory_fits (fits structured question budget whole) (eligible conversation) with
  | inl hnil =>
    rw [hnil]
    exact ⟨by simp, Nat.zero_le _⟩
  | inr hkept =>
    refine ⟨h _ (trimHistory_suffix _ _) hkept, ?_⟩
    unfold fits at hkept
    rw [Bool.and_eq_true, decide_eq_true_eq, decide_eq_true_eq] at hkept
    exact hkept.2

theorem Meets.readable (h : Meets p imports catalog conversation question) :
    Readable p imports catalog conversation question := by
  intro hquestion offer hoffer
  have hstructured : ∃ structured, offer.structured = .ok structured := by
    cases hstructured : offer.structured with
    | ok structured => exact ⟨structured, rfl⟩
    | error code =>
      have hcode := structured_error hstructured
      have hpreview : preview p imports catalog conversation question = .error code := by
        unfold preview
        rw [require_of hquestion, ok_bind, hoffer, demand_some, ok_bind, hstructured,
          error_bind]
      obtain ⟨other, hmem, hother⟩ | ⟨shown, -, -, -, -, hshown, -⟩ := h
      · rw [hpreview, Except.error.injEq] at hother
        rw [← hother, hcode] at hmem
        exact absurd hmem (by decide)
      · rw [hpreview] at hshown
        cases hshown
  obtain ⟨structured, hstructured⟩ := hstructured
  refine ⟨container_of_structured hstructured, ?_⟩
  intro budget articles hchat hbudget harticles history hhistory hfits turn hturn
  obtain ⟨hkept, hsize⟩ := prompt_fits hhistory (List.ne_nil_of_mem hturn) hfits
  -- so the preview is shown, and the provider has read its messages
  obtain ⟨code, -, hcode⟩ | ⟨shown, read, sources, sent, shortened, hshown, -, -, hdecode⟩ := h
  · obtain ⟨shown, hshown⟩ := preview_shown hquestion hoffer hchat hbudget harticles hsize
    rw [hcode] at hshown
    cases hshown
  · obtain ⟨-, offer', chat, budget', articles', hoffer', hstructured', hbudget',
      harticles', -, hs⟩ := preview_ok hshown
    rw [hoffer, Option.some.injEq] at hoffer'
    subst hoffer'
    rw [hchat, Except.ok.injEq] at hstructured'
    subst hstructured'
    rw [hbudget, Except.ok.injEq] at hbudget'
    subst hbudget'
    rw [harticles, Except.ok.injEq] at harticles'
    subst harticles'
    rw [hs.prompt, hs.format, if_pos rfl] at hdecode
    exact decode_content hdecode turn (hkept.subset hturn)

theorem Readable.meets (hstrip : p.strip "" = "")
    (h : Readable p imports catalog conversation question) :
    Meets p imports catalog conversation question := by
  cases hpreview : preview p imports catalog conversation question with
  | error code =>
    refine Or.inl ⟨code, ?_, hpreview⟩
    exact preview_onlyFails (fun hquestion offer hoffer => (h hquestion offer hoffer).1) code
      hpreview
  | ok shown =>
    obtain ⟨hquestion, offer, structured, budget, articles, hoffer, hstructured, hbudget,
      harticles, hsize, hs⟩ := preview_ok hpreview
    refine Or.inr ⟨shown, structured, articles, _, _, hpreview, harticles, hs, ?_⟩
    rw [hs.prompt, hs.format]
    cases structured with
    | false => rfl
    | true =>
      have hnonempty : question ≠ "" := fun heq => hquestion.1 (heq ▸ hstrip)
      have hbound := hs.within
      rw [hs.prompt] at hbound
      obtain ⟨hcontent, hlength⟩ := kept_readable fun history hhistory hfits =>
        (h hquestion offer hoffer).2 budget articles hstructured hbudget harticles history
          hhistory hfits
      exact decode_chat hnonempty hlength
        (fun turn hturn => eligible_roles turn (hs.suffix.subset hturn)) (by omega) hcontent

/-- **A preview is refused, or shown as promised and understood,** exactly when the
capabilities of the provider are a container and no history that is sent as chat messages
holds an empty one. -/
theorem preview_meets_iff (p : Platform) (hstrip : p.strip "" = "")
    (imports : String → Option Import) (catalog : String → List Offer)
    (conversation : Conversation) (question : String) :
    Meets p imports catalog conversation question ↔
      Readable p imports catalog conversation question :=
  ⟨Meets.readable, Readable.meets hstrip⟩

end Preview

/-! A conversation with one answer. -/

def strip (text : String) : String :=
  .ofList ((text.toList.dropWhile Char.isWhitespace).reverse.dropWhile Char.isWhitespace).reverse

def samplePlatform : Platform where
  strip := strip
  sha256 := id
  scheme _ := ""
  float _ := .null

/-- The store that keeps the conversation. -/
def sampleStore : Ask.Platform where
  isTimestamp text := text = "2026-07-01T08:00:00+00:00"
  strip := strip
  fingerprint _ := ""
  valueFingerprint _ := ""
  recordFingerprint _ := ""
  size value := 400 + (value.messages.map fun message => message.content.utf8ByteSize).sum
  recordSize _ := 0
  historySize _ := 0

def sampleConversation (answer : String) : Conversation where
  id := "conversation"
  title := "Conversation"
  serviceKey := "provider::model"
  serviceName := "Model"
  providerPeerId := "provider"
  networkId := "network"
  createdAt := "2026-07-01T08:00:00+00:00"
  updatedAt := "2026-07-01T08:00:00+00:00"
  messages := [⟨"a", .assistant, answer, "2026-07-01T08:00:00+00:00", .complete, none, none, none,
    none, none, none, none⟩]
  revision := 1
  draft := none
  contextIds := none

def sampleOffer : Offer where
  peerId := .str "provider"
  service := [("package_id", .str "model"), ("capabilities", .arr [.str chatFormat]),
    ("context_window", .int 4096), ("max_output_tokens", .int 256)]
  aiPermission := none

theorem sample_selected (answer : String) :
    selected (fun _ => [sampleOffer]) (sampleConversation answer) = some sampleOffer := by
  have hservice : String.ofList ("provider::model".toList.drop ("provider".length + 2)) =
      "model" := by
    decide +kernel
  have hid : serviceId (sampleConversation answer) = "model" := hservice
  unfold selected
  rw [hid]
  have hoffer : (decide (sampleOffer.peerId = .str "provider") &&
      decide (sampleOffer.manifest.get? "package_id" = some (.str "model"))) = true := by
    decide +kernel
  exact List.find?_cons_of_pos hoffer

/-- An answer that is empty is kept, sent, and refused by the provider. -/
theorem empty_answer_is_refused :
    (sampleConversation "").clean sampleStore = .ok () ∧
      ¬ Meets samplePlatform (fun _ => none) (fun _ => [sampleOffer]) (sampleConversation "")
        "What next?" := by
  refine ⟨by decide +kernel, fun h => ?_⟩
  have hbudget : sampleOffer.budget = .ok ⟨4096, 256, 2816⟩ := by decide +kernel
  have hchat : sampleOffer.structured = .ok true := by decide +kernel
  have hsize : String.utf8Len (Json.arr ((chatTurns "What next?" [⟨"assistant", ""⟩] []).map
      Turn.json)).text ≤ 2816 := by
    decide +kernel
  refine (h.readable (by decide +kernel) sampleOffer (sample_selected "")).2 ⟨4096, 256, 2816⟩ []
    hchat hbudget rfl [⟨"assistant", ""⟩] (by decide +kernel) ?_ ⟨"assistant", ""⟩
    (.head _) rfl
  unfold fits promptText encoded
  rw [if_pos rfl, String.utf8ByteSize_ofList]
  exact Bool.and_eq_true_iff.mpr ⟨decide_eq_true hsize, rfl⟩

theorem preview_meets_iff_sample :
    Meets samplePlatform (fun _ => none) (fun _ => [sampleOffer]) (sampleConversation "Hello.")
      "What next?" := by
  refine (preview_meets_iff samplePlatform (by decide +kernel) (fun _ => none)
    (fun _ => [sampleOffer]) (sampleConversation "Hello.") "What next?").mpr ?_
  intro _ offer hoffer
  rw [sample_selected, Option.some.injEq] at hoffer
  subst hoffer
  refine ⟨by decide +kernel, ?_⟩
  intro budget articles _ _ _ history hhistory _ turn hturn
  have heligible : eligible (sampleConversation "Hello.") = [⟨"assistant", "Hello."⟩] := by
    decide +kernel
  have hmem := hhistory.subset hturn
  rw [heligible, List.mem_singleton] at hmem
  subst hmem
  decide

end Ask.Context
