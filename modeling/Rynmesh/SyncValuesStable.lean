import Rynmesh.SyncValues

/-!
# Cleaning a conversation twice

* `Accepted` says what a cleaned conversation is: listed fields, checked, and
  its own cleaning;
* `Accepted.some_messages` keeps that for some of the messages and without the
  draft, `Accepted.retitled_iff` for a title that is not blank;
* `conversation_again_iff` concludes: what is shared of a conversation is
  cleaned to itself unless a message is dropped and the title that takes its
  place is blank or too long.
-/

namespace SyncValues

open Checked Json Ask

variable {lib : Library} {value result : Json} {rows kept : List Json} {identifier : String}

/-! ### Messages -/

variable {seen : List String} {given : List Json}

theorem cleanMessages_map (h : cleanMessages lib seen given = .ok rows) :
    rows = given.map (Json.restrict MESSAGE_FIELDS) := by
  induction given generalizing seen rows with
  | nil =>
    simp only [cleanMessages, pure_ok] at h
    rw [← h]
    rfl
  | cons message rest ih =>
    simp only [cleanMessages, bind_ok, require_ok, pure_ok] at h
    obtain ⟨_, _, id, _, _, _, _, _, rows', hrest, heq⟩ := h
    rw [← heq, ih hrest]
    rfl

/-- **Some of the cleaned messages** clean to themselves. -/
theorem cleanMessages_sublist {seen' : List String} (h : cleanMessages lib seen given = .ok rows)
    (hsub : kept.Sublist rows) (hseen : ∀ id ∈ seen', id ∈ seen) :
    cleanMessages lib seen' kept = .ok kept := by
  induction given generalizing seen seen' rows kept with
  | nil =>
    simp only [cleanMessages, pure_ok] at h
    rw [← h, List.sublist_nil] at hsub
    rw [hsub]
    rfl
  | cons message rest ih =>
    simp only [cleanMessages, bind_ok, require_ok, pure_ok] at h
    obtain ⟨_, hobj, id, hid, _, hnew, _, hchecked, rows', hrest, heq⟩ := h
    rw [← heq] at hsub
    cases hsub with
    | cons _ hsub =>
      exact ih hrest hsub fun id hmem => .tail _ (hseen id hmem)
    | cons_cons _ hsub =>
      have hnew' : id ∉ seen' := fun hmem => hnew (hseen id hmem)
      have hseen' : ∀ other ∈ id :: seen', other ∈ id :: seen := by
        intro other hmem
        rcases List.mem_cons.mp hmem with heq | hmem
        · rw [heq]
          exact (.head _)
        · exact .tail _ (hseen other hmem)
      have hrest' := ih hrest hsub hseen'
      have hobj' : (message.restrict MESSAGE_FIELDS).isObj = true := by
        rw [isObj_restrict]
        exact hobj
      simp only [cleanMessages, restrict_idem, hid, hchecked, hrest', ok_bind,
        require_of hobj', require_of hnew']
      rfl

theorem cleanMessages_checked {row : Json} (h : cleanMessages lib seen given = .ok rows)
    (hmem : row ∈ rows) : checkMessage lib row = .ok () := by
  induction given generalizing seen rows with
  | nil =>
    simp only [cleanMessages, pure_ok] at h
    rw [← h] at hmem
    cases hmem
  | cons message rest ih =>
    simp only [cleanMessages, bind_ok, require_ok, pure_ok] at h
    obtain ⟨_, _, id, _, _, _, _, hchecked, rows', hrest, heq⟩ := h
    rw [← heq] at hmem
    rcases List.mem_cons.mp hmem with heq | hmem
    · rw [heq]
      exact hchecked
    · exact ih hrest hmem

/-! ### Cleaned conversations -/

/-- A conversation that is its own cleaning. -/
structure Accepted (lib : Library) (result : Json) (rows : List Json) : Prop where
  isObj : result.isObj = true
  listed : result.restrict CONVERSATION_FIELDS = result
  header : checkHeader lib result = .ok ()
  messages : result.get? "messages" = some (.arr rows)
  stable : result.assign "messages" (.arr rows) = result
  count : rows.length ≤ 2000
  cleaned : cleanMessages lib [] rows = .ok rows
  rest : checkRest result = .ok ()
  finite : result.finite = true
  size : result.size ≤ 1024 * 1024

theorem checkHeader_ok : checkHeader lib result = .ok () ↔
    (∃ id, identity result "id" = .ok id) ∧
    (∀ f ∈ TEXT_FIELDS, (text? result f.1).any (isText lib f.2) = true) ∧
    isBound ((text? result "serviceKey").getD "") ((text? result "providerPeerId").getD "") =
      true ∧
    checkTimestamp lib result "createdAt" = .ok () ∧
    checkTimestamp lib result "updatedAt" = .ok () := by
  simp only [checkHeader, bind_ok, require_ok]
  constructor
  · rintro ⟨id, hid, _, htexts, _, hbound, _, hcreated, hupdated⟩
    exact ⟨⟨id, hid⟩, htexts, hbound, hcreated, hupdated⟩
  · rintro ⟨⟨id, hid⟩, htexts, hbound, hcreated, hupdated⟩
    exact ⟨id, hid, (), htexts, (), hbound, (), hcreated, hupdated⟩

variable {key : String}

/-- A field that is the same reads the same. -/
theorem text?_congr {a b : Json} (h : a.get? key = b.get? key) : text? a key = text? b key := by
  rw [text?, text?, h]

theorem identity_congr {a b : Json} (h : a.get? key = b.get? key) :
    identity a key = identity b key := by
  rw [identity, identity, text?_congr h]

theorem checkTimestamp_congr {a b : Json} (h : a.get? key = b.get? key) :
    checkTimestamp lib a key = checkTimestamp lib b key := by
  rw [checkTimestamp, checkTimestamp, text?_congr h]

theorem checkHeader_congr {a b : Json} (h : ∀ key ∉ ["messages", "draft"], a.get? key = b.get? key)
    (ha : checkHeader lib a = .ok ()) : checkHeader lib b = .ok () := by
  rw [checkHeader_ok] at ha ⊢
  obtain ⟨⟨id, hid⟩, htexts, hbound, hcreated, hupdated⟩ := ha
  rw [identity_congr (h "id" (by decide))] at hid
  rw [text?_congr (h "serviceKey" (by decide)), text?_congr (h "providerPeerId" (by decide))]
    at hbound
  rw [checkTimestamp_congr (h "createdAt" (by decide))] at hcreated
  rw [checkTimestamp_congr (h "updatedAt" (by decide))] at hupdated
  refine ⟨⟨id, hid⟩, ?_, hbound, hcreated, hupdated⟩
  intro f hf
  have hkey : f.1 ∉ ["messages", "draft"] := by
    have hall : ∀ f ∈ TEXT_FIELDS, f.1 ∉ ["messages", "draft"] := by decide
    exact hall f hf
  rw [← text?_congr (h f.1 hkey)]
  exact htexts f hf

theorem messages_ok (h : messages result = some rows) :
    result.get? "messages" = some (.arr rows) := by
  unfold messages at h
  cases hget : result.get? "messages" with
  | none => simp [hget] at h
  | some found =>
    rw [hget] at h
    cases found with
    | arr items =>
      simp only [Option.bind_some, asArr?, Option.some.injEq] at h
      rw [h]
    | _ => simp [asArr?] at h

/-- The conversation that cleaning leaves of a document. -/
def listedValue (value : Json) : Json :=
  (value.restrict CONVERSATION_FIELDS).assign "messages"
    (.arr (((messages value).getD []).map (Json.restrict MESSAGE_FIELDS)))

theorem messages_restrict (value : Json) :
    messages (value.restrict CONVERSATION_FIELDS) = messages value := by
  have hmem : "messages" ∈ CONVERSATION_FIELDS := by decide
  simp only [messages, get?_restrict, if_pos hmem]

theorem accepted_of_clean (h : cleanConversation lib value = .ok result) :
    result = listedValue value ∧
      Accepted lib result (((messages value).getD []).map (Json.restrict MESSAGE_FIELDS)) := by
  simp only [cleanConversation, checkSize, bind_ok, require_ok, demand_ok, pure_ok] at h
  obtain ⟨_, hobj, _, hheader, given, hgiven, _, hcount, rows, hrows, _, hrest, _, ⟨_, hfinite,
    hsize⟩, heq⟩ := h
  have hmap := cleanMessages_map hrows
  rw [messages_restrict] at hgiven
  have hlisted : result = listedValue value := by
    rw [← heq, listedValue, hgiven, Option.getD_some, hmap]
  have hget : (value.restrict CONVERSATION_FIELDS).get? "messages" = some (.arr given) := by
    rw [← messages_restrict] at hgiven
    exact messages_ok hgiven
  refine ⟨hlisted, ?_⟩
  rw [hgiven, Option.getD_some, ← hmap, ← heq]
  refine ⟨?_, restrict_assign _ _ (restrict_idem _ _), ?_, ?_, assign_assign _ _ _, ?_,
    cleanMessages_sublist hrows (List.Sublist.refl _) fun _ h => h, hrest, hfinite, hsize⟩
  · rw [isObj_assign, isObj_restrict]
    exact hobj
  · refine checkHeader_congr ?_ hheader
    intro key hkey
    have hne : key ≠ "messages" := by
      intro heq
      rw [heq] at hkey
      exact hkey (by decide)
    rw [get?_assign, if_neg hne]
  · rw [get?_assign, if_pos rfl, hget]
    rfl
  · rw [hmap, List.length_map]
    exact hcount

theorem Accepted.clean (h : Accepted lib result rows) :
    cleanConversation lib result = .ok result := by
  have hmessages : SyncValues.messages result = some rows := by
    rw [SyncValues.messages, h.messages]
    rfl
  simp only [cleanConversation, checkSize, h.listed, require_of h.isObj, h.header, hmessages,
    demand_some, require_of h.count, h.cleaned, h.stable, h.rest, require_of h.finite,
    require_of h.size, ok_bind]
  rfl

theorem Accepted.some_messages (h : Accepted lib result rows) (hsub : kept.Sublist rows)
    (hsize : (withMessages result kept).size ≤ 1024 * 1024) :
    Accepted lib (withMessages result kept) kept := by
  have hget : ∀ key ∉ ["messages", "draft"],
      result.get? key = (SyncValues.withMessages result kept).get? key := by
    intro key hkey
    simp only [List.mem_cons, List.not_mem_nil, or_false, not_or] at hkey
    obtain ⟨hmessages, hdraft⟩ := hkey
    rw [SyncValues.withMessages, get?_assign, if_neg hmessages, get?_without, if_neg hdraft]
  refine ⟨?_, ?_, checkHeader_congr hget h.header, ?_, assign_assign _ _ _, ?_,
    cleanMessages_sublist h.cleaned hsub fun _ h => h, ?_, ?_, hsize⟩
  · rw [SyncValues.withMessages, isObj_assign, isObj_without]
    exact h.isObj
  · exact restrict_assign _ _ (restrict_without _ h.listed)
  · rw [SyncValues.withMessages, get?_assign, if_pos rfl, get?_without, if_neg (by decide),
      h.messages]
    rfl
  · exact (hsub.length_le).trans h.count
  · have hrest := h.rest
    simp only [checkRest, bind_ok, require_ok] at hrest ⊢
    obtain ⟨_, _, hcontexts⟩ := hrest
    refine ⟨(), ?_, ?_⟩
    · intro draft hdraft
      rw [SyncValues.withMessages, get?_assign, if_neg (by decide), get?_without, if_pos rfl]
        at hdraft
      cases hdraft
    · intro ids hids
      rw [← hget "contextIds" (by decide)] at hids
      exact hcontexts ids hids
  · refine finite_assign _ (finite_without _ h.finite) ?_
    have harr := finite_get? h.finite h.messages
    simp only [Json.finite, finiteItems_iff] at harr ⊢
    intro row hrow
    exact harr row (hsub.subset hrow)

/-! ### Dropped messages -/

theorem unfinishedTasks_final (h : ∀ row ∈ rows, isFinal row = true) :
    unfinishedTasks rows = [] := by
  rw [unfinishedTasks, List.filterMap_eq_nil_iff]
  intro row hrow
  rw [if_pos (h row hrow)]

theorem finishedMessages_final {row : Json} (h : row ∈ finishedMessages rows) :
    isFinal row = true := by
  rw [finishedMessages, List.mem_filter, Bool.and_eq_true] at h
  exact h.2.1

theorem finishedMessages_of_final (h : ∀ row ∈ rows, isFinal row = true) :
    finishedMessages rows = rows := by
  rw [finishedMessages, unfinishedTasks_final h, List.filter_eq_self]
  intro row hrow
  rw [h row hrow]
  simp

theorem finishedMessages_idem (rows : List Json) :
    finishedMessages (finishedMessages rows) = finishedMessages rows :=
  finishedMessages_of_final fun _ h => finishedMessages_final h

theorem finishedMessages_sublist (rows : List Json) : (finishedMessages rows).Sublist rows :=
  List.filter_sublist

theorem isText_newTitle (rows : List Json) :
    isText lib 512 (newTitle rows) = decide (lib.strip (newTitle rows) ≠ "") := by
  have hgood : (newTitle rows).length ≤ 512 ∧
      ∀ c ∈ (newTitle rows).toList, 32 ≤ c.toNat := by
    have hdefault : ∀ text : String, (text.length ≤ 512 ∧ ∀ c ∈ text.toList, 32 ≤ c.toNat) →
        (if text = "" then "Conversation" else text).length ≤ 512 ∧
          ∀ c ∈ (if text = "" then "Conversation" else text).toList, 32 ≤ c.toNat := by
      intro text htext
      by_cases hempty : text = ""
      · rw [if_pos hempty]
        have hfixed : ("Conversation".toList.all fun c => decide (32 ≤ c.toNat)) = true := by decide
        refine ⟨by decide, ?_⟩
        intro c hc
        exact of_decide_eq_true (List.all_eq_true.mp hfixed c hc)
      · rw [if_neg hempty]
        exact htext
    refine hdefault _ ⟨?_, ?_⟩
    · rw [← String.length_toList, String.toList_ofList]
      exact List.length_take_le 512 _
    · intro c hc
      rw [String.toList_ofList] at hc
      obtain ⟨d, _, heq⟩ := List.mem_map.mp (List.mem_of_mem_take hc)
      rw [← heq]
      split
      · next h => exact h
      · decide
  have hall : ((newTitle rows).toList.all fun c => decide (32 ≤ c.toNat)) = true := by
    rw [List.all_eq_true]
    intro c hc
    exact decide_eq_true (hgood.2 c hc)
  rw [isText, hall, decide_eq_true hgood.1, Bool.and_true, Bool.and_true]

theorem timestamp_of_message {row : Json} (h : checkMessage lib row = .ok ()) :
    checkTimestamp lib row "createdAt" = .ok () := by
  simp only [checkMessage, bind_ok] at h
  obtain ⟨_, _, _, _, _, _, u, htime, _⟩ := h
  exact htime

theorem newTime_ok (h : Accepted lib result rows) (hsub : kept.Sublist rows) :
    ∃ text, newTime result kept = .str text ∧
      (decide (text.length ≤ 64) && lib.isTimestamp text) = true := by
  have hread : ∀ value : Json, checkTimestamp lib value "createdAt" = .ok () →
      ∃ text, value.get? "createdAt" = some (.str text) ∧
        (decide (text.length ≤ 64) && lib.isTimestamp text) = true := by
    intro value hvalue
    rw [checkTimestamp, require_ok, Option.any_eq_true] at hvalue
    obtain ⟨text, htext, hgood⟩ := hvalue
    refine ⟨text, ?_, hgood⟩
    unfold text? at htext
    cases hget : value.get? "createdAt" with
    | none => simp [hget] at htext
    | some found =>
      rw [hget] at htext
      cases found with
      | str s =>
        simp only [Option.bind_some, asStr?, Option.some.injEq] at htext
        rw [htext]
      | _ => simp [asStr?] at htext
  obtain ⟨text, hcreated, hgood⟩ := hread result (checkHeader_ok.mp h.header).2.2.2.1
  cases hlast : kept.getLast? with
  | none => exact ⟨text, by simp [newTime, hlast, hcreated], hgood⟩
  | some row =>
    have hrow := cleanMessages_checked h.cleaned (hsub.subset (List.mem_of_getLast? hlast))
    obtain ⟨text', hlastTime, hgood'⟩ := hread row (timestamp_of_message hrow)
    exact ⟨text', by simp [newTime, hlast, hlastTime], hgood'⟩

/-- The conversation with some of the messages, a title and a time of their own. -/
def retitled (result : Json) (kept : List Json) : Json :=
  ((withMessages result kept).assign "title" (.str (newTitle kept))).assign "updatedAt"
    (newTime result kept)

theorem get?_retitled (result : Json) (kept : List Json) (htitle : key ≠ "title")
    (htime : key ≠ "updatedAt") : (retitled result kept).get? key =
      (withMessages result kept).get? key := by
  rw [retitled, get?_assign, if_neg htime, get?_assign, if_neg htitle]

theorem without_retitled (result : Json) (kept : List Json) :
    (retitled result kept).without "draft" = retitled result kept := by
  rw [retitled, assign_without (by decide), assign_without (by decide), withMessages,
    assign_without (by decide), without_without]

theorem assign_retitled (result : Json) (kept : List Json) :
    (retitled result kept).assign "messages" (.arr kept) = retitled result kept := by
  have htitle : "title" ≠ "messages" := by decide
  have htime : "updatedAt" ≠ "messages" := by decide
  rw [retitled, assign_comm htime, assign_comm htitle, withMessages, assign_assign]

theorem text?_retitled (h : Accepted lib result rows) (kept : List Json) :
    text? (retitled result kept) "title" = some (newTitle kept) ∧
      (retitled result kept).get? "updatedAt" = some (newTime result kept) := by
  have hpresent : ∀ key ∈ ["title", "updatedAt"],
      ∃ found, (withMessages result kept).get? key = some found := by
    intro key hkey
    have hne : key ≠ "messages" ∧ key ≠ "draft" := by
      simp only [List.mem_cons, List.not_mem_nil, or_false] at hkey
      rcases hkey with heq | heq <;> rw [heq] <;> decide
    rw [withMessages, get?_assign, if_neg hne.1, get?_without, if_neg hne.2]
    obtain ⟨_, htexts, _, _, hupdated⟩ := checkHeader_ok.mp h.header
    simp only [List.mem_cons, List.not_mem_nil, or_false] at hkey
    rcases hkey with heq | heq
    · have htitle := htexts ("title", 512) (by decide)
      rw [heq]
      cases hget : result.get? "title" with
      | none => simp [text?, hget] at htitle
      | some found => exact ⟨found, rfl⟩
    · rw [checkTimestamp, require_ok] at hupdated
      rw [heq]
      cases hget : result.get? "updatedAt" with
      | none => simp [text?, hget] at hupdated
      | some found => exact ⟨found, rfl⟩
  obtain ⟨title, htitle⟩ := hpresent "title" (by decide)
  obtain ⟨time, htime⟩ := hpresent "updatedAt" (by decide)
  constructor
  · rw [text?, retitled, get?_assign, if_neg (by decide), get?_assign, if_pos rfl, htitle]
    rfl
  · rw [retitled, get?_assign, if_pos rfl, get?_assign, if_neg (by decide), htime]
    rfl

/-- **The rewritten conversation** is accepted exactly when its title is not blank and it
is not too long. -/
theorem Accepted.retitled_iff (h : Accepted lib result rows) (hsub : kept.Sublist rows) :
    cleanConversation lib (retitled result kept) = .ok (retitled result kept) ↔
      lib.strip (newTitle kept) ≠ "" ∧ (retitled result kept).size ≤ 1024 * 1024 := by
  obtain ⟨htitle, htime⟩ := text?_retitled h kept
  constructor
  · intro hclean
    have haccepted := (accepted_of_clean hclean).2
    have htext := (checkHeader_ok.mp haccepted.header).2.1 ("title", 512) (by decide)
    rw [htitle, Option.any_some, isText_newTitle, decide_eq_true_eq] at htext
    exact ⟨htext, haccepted.size⟩
  · rintro ⟨hstrip, hsize⟩
    obtain ⟨text, hnew, hstamp⟩ := newTime_ok h hsub
    have hother : ∀ key, key ≠ "title" → key ≠ "updatedAt" → key ≠ "messages" → key ≠ "draft" →
        (retitled result kept).get? key = result.get? key := by
      intro key htitle htime hmessages hdraft
      rw [get?_retitled _ _ htitle htime, SyncValues.withMessages, get?_assign,
        if_neg hmessages, get?_without, if_neg hdraft]
    have haccepted : Accepted lib (retitled result kept) kept := by
      refine ⟨?_, ?_, ?_, ?_, assign_retitled _ _, (hsub.length_le).trans h.count,
        cleanMessages_sublist h.cleaned hsub fun _ h => h, ?_, ?_, hsize⟩
      · rw [retitled, isObj_assign, isObj_assign, SyncValues.withMessages, isObj_assign,
          isObj_without]
        exact h.isObj
      · exact restrict_assign _ _ (restrict_assign _ _
          (restrict_assign _ _ (restrict_without _ h.listed)))
      · obtain ⟨⟨id, hid⟩, htexts, hbound, hcreated, _⟩ := checkHeader_ok.mp h.header
        rw [checkHeader_ok]
        have hsame := fun key h1 h2 h3 h4 => (hother key h1 h2 h3 h4).symm
        refine ⟨⟨id, ?_⟩, ?_, ?_, ?_, ?_⟩
        · rw [← identity_congr (hsame "id" (by decide) (by decide) (by decide) (by decide))]
          exact hid
        · intro f hf
          by_cases hkey : f.1 = "title"
          · have hlimit : f.2 = 512 := by
              have hall : ∀ f ∈ TEXT_FIELDS, f.1 = "title" → f.2 = 512 := by decide
              exact hall f hf hkey
            rw [hkey, hlimit, htitle, Option.any_some, isText_newTitle, decide_eq_true_eq]
            exact hstrip
          · have hkeys : ∀ f ∈ TEXT_FIELDS, f.1 ≠ "updatedAt" ∧ f.1 ≠ "messages" ∧
                f.1 ≠ "draft" := by decide
            obtain ⟨h1, h2, h3⟩ := hkeys f hf
            rw [← text?_congr (hsame f.1 hkey h1 h2 h3)]
            exact htexts f hf
        · rw [← text?_congr (hsame "serviceKey" (by decide) (by decide) (by decide) (by decide)),
            ← text?_congr (hsame "providerPeerId" (by decide) (by decide) (by decide) (by decide))]
          exact hbound
        · rw [← checkTimestamp_congr
            (hsame "createdAt" (by decide) (by decide) (by decide) (by decide))]
          exact hcreated
        · rw [checkTimestamp, require_ok, text?, htime, hnew]
          exact hstamp
      · rw [get?_retitled _ _ (by decide) (by decide), SyncValues.withMessages, get?_assign,
          if_pos rfl, get?_without, if_neg (by decide), h.messages]
        rfl
      · have hrest := h.rest
        simp only [checkRest, bind_ok, require_ok] at hrest ⊢
        obtain ⟨_, _, hcontexts⟩ := hrest
        refine ⟨(), ?_, ?_⟩
        · intro draft hdraft
          rw [get?_retitled _ _ (by decide) (by decide), SyncValues.withMessages, get?_assign,
            if_neg (by decide), get?_without, if_pos rfl] at hdraft
          cases hdraft
        · intro ids hids
          rw [hother "contextIds" (by decide) (by decide) (by decide) (by decide)] at hids
          exact hcontexts ids hids
      · have harr := finite_get? h.finite h.messages
        have hrows : (Json.arr kept).finite = true := by
          simp only [Json.finite, finiteItems_iff] at harr ⊢
          intro row hrow
          exact harr row (hsub.subset hrow)
        refine finite_assign _ (finite_assign _ (finite_assign _ (finite_without _ h.finite) hrows)
          rfl) ?_
        rw [hnew]
        rfl
    exact haccepted.clean

/-! ### Shared conversations -/

theorem Accepted.messages_eq (h : Accepted lib result rows) :
    SyncValues.messages result = some rows := by
  rw [SyncValues.messages, h.messages]
  rfl

theorem Accepted.shared_eq (h : Accepted lib result rows) : shared result =
    if (finishedMessages rows).length = rows.length then withMessages result (finishedMessages rows)
    else retitled result (finishedMessages rows) := by
  simp only [shared, h.messages_eq, Option.getD_some, retitled]

/-- No message is dropped, or the title that takes its place is not blank and the whole
is not too long. -/
def Rewritable (lib : Library) (result : Json) (rows : List Json) : Prop :=
  (finishedMessages rows).length = rows.length ∨
    lib.strip (newTitle (finishedMessages rows)) ≠ "" ∧
      (retitled result (finishedMessages rows)).size ≤ 1024 * 1024

/-- **A shared conversation is accepted again** exactly when it could be rewritten. -/
theorem Accepted.clean_shared_iff (h : Accepted lib result rows) :
    cleanConversation lib (shared result) = .ok (shared result) ↔ Rewritable lib result rows := by
  rw [h.shared_eq, Rewritable]
  by_cases hlength : (finishedMessages rows).length = rows.length
  · rw [if_pos hlength]
    have hsame : finishedMessages rows = rows :=
      (finishedMessages_sublist rows).eq_of_length hlength
    refine iff_of_true ?_ (.inl hlength)
    have hsize : (withMessages result rows).size ≤ 1024 * 1024 := by
      have hcommute : withMessages result rows = result.without "draft" := by
        have hassign := assign_without (k := "messages") (j := "draft") (by decide) (.arr rows)
          result
        rw [SyncValues.withMessages, ← hassign, h.stable]
      rw [hcommute]
      exact (size_without "draft" result).trans h.size
    rw [hsame]
    exact (h.some_messages (List.Sublist.refl rows) hsize).clean
  · rw [if_neg hlength]
    constructor
    · intro hclean
      exact .inr ((h.retitled_iff (finishedMessages_sublist rows)).mp hclean)
    · intro hgood
      exact (h.retitled_iff (finishedMessages_sublist rows)).mpr (hgood.resolve_left hlength)

theorem Accepted.shared_shared (h : Accepted lib result rows) :
    SyncValues.messages (shared result) = some (finishedMessages rows) ∧
      shared (shared result) = shared result := by
  have hread : ∀ kept, SyncValues.messages (withMessages result kept) = some kept := by
    intro kept
    rw [SyncValues.messages, SyncValues.withMessages, get?_assign, if_pos rfl, get?_without,
      if_neg (by decide), h.messages]
    rfl
  have hmessages : SyncValues.messages (shared result) = some (finishedMessages rows) := by
    rw [h.shared_eq]
    split
    · exact hread _
    · rw [SyncValues.messages, get?_retitled _ _ (by decide) (by decide)]
      exact hread _
  refine ⟨hmessages, ?_⟩
  have hkept : withMessages (shared result) (finishedMessages rows) = shared result := by
    rw [h.shared_eq, SyncValues.withMessages]
    split
    · rw [SyncValues.withMessages, assign_without (by decide), without_without, assign_assign]
    · rw [without_retitled, assign_retitled]
  have hunfold : ∀ value : Json, SyncValues.messages value = some (finishedMessages rows) →
      shared value = withMessages value (finishedMessages rows) := by
    intro value hvalue
    simp only [shared, hvalue, Option.getD_some, finishedMessages_idem, if_true]
  rw [hunfold _ hmessages]
  exact hkept

theorem Accepted.text?_shared (h : Accepted lib result rows) :
    text? (shared result) "id" = text? result "id" := by
  apply text?_congr
  have hread : ∀ kept, (withMessages result kept).get? "id" = result.get? "id" := by
    intro kept
    rw [SyncValues.withMessages, get?_assign, if_neg (by decide), get?_without,
      if_neg (by decide)]
  rw [h.shared_eq]
  split
  · exact hread _
  · rw [get?_retitled _ _ (by decide) (by decide)]
    exact hread _

variable {cleaned : Json}

theorem cleanSharedConversation_ok :
    cleanSharedConversation lib identifier value = .ok cleaned ↔
      ∃ result, cleanConversation lib value = .ok result ∧ text? result "id" = some identifier ∧
        shared result = cleaned := by
  simp only [cleanSharedConversation, bind_ok, require_ok, pure_ok]
  constructor
  · rintro ⟨result, hresult, _, hid, heq⟩
    cases hclean : cleanConversation lib value with
    | error e =>
      rw [hclean] at hresult
      cases hresult
    | ok found =>
      rw [hclean] at hresult
      injection hresult with hresult
      exact ⟨result, by rw [hresult], hid, heq⟩
  · rintro ⟨result, hresult, hid, heq⟩
    exact ⟨result, by rw [hresult]; rfl, (), hid, heq⟩

/-- The messages of a document, with their listed fields. -/
def listedMessages (value : Json) : List Json :=
  ((messages value).getD []).map (Json.restrict MESSAGE_FIELDS)

theorem conversation_again (h : cleanSharedConversation lib identifier value = .ok cleaned)
    (hagain : cleanSharedConversation lib identifier cleaned = .ok cleaned) :
    cleanConversation lib cleaned = .ok cleaned := by
  obtain ⟨result, hclean, _, heq⟩ := cleanSharedConversation_ok.mp h
  obtain ⟨_, haccepted⟩ := accepted_of_clean hclean
  obtain ⟨hmessages, _⟩ := haccepted.shared_shared
  obtain ⟨result', hclean', _, _⟩ := cleanSharedConversation_ok.mp hagain
  rw [← heq] at hclean' ⊢
  have hkept := cleanMessages_map (cleanMessages_sublist haccepted.cleaned
    (finishedMessages_sublist _) fun _ hmem => hmem)
  have hfields : (shared result).restrict CONVERSATION_FIELDS = shared result := by
    rw [haccepted.shared_eq]
    split
    · exact restrict_assign _ _ (restrict_without _ haccepted.listed)
    · exact restrict_assign _ _ (restrict_assign _ _
        (restrict_assign _ _ (restrict_without _ haccepted.listed)))
  have hstable : (shared result).assign "messages" (.arr (finishedMessages
      (((messages value).getD []).map (Json.restrict MESSAGE_FIELDS)))) = shared result := by
    rw [haccepted.shared_eq]
    split
    · exact assign_assign _ _ _
    · exact assign_retitled _ _
  have hresult : result' = shared result := by
    rw [(accepted_of_clean hclean').1, listedValue, hfields, hmessages, Option.getD_some, ← hkept,
      hstable]
  rw [hresult] at hclean'
  exact hclean'

theorem conversation_again_iff (h : cleanSharedConversation lib identifier value = .ok cleaned) :
    cleanSharedConversation lib identifier cleaned = .ok cleaned ↔
      Rewritable lib (listedValue value) (listedMessages value) := by
  obtain ⟨result, hclean, hid, heq⟩ := cleanSharedConversation_ok.mp h
  obtain ⟨hlisted, haccepted⟩ := accepted_of_clean hclean
  rw [← hlisted, listedMessages, ← haccepted.clean_shared_iff, heq]
  constructor
  · exact conversation_again h
  · intro hagain
    rw [← heq] at hagain ⊢
    refine cleanSharedConversation_ok.mpr ⟨shared result, hagain, ?_, haccepted.shared_shared.2⟩
    rw [haccepted.text?_shared]
    exact hid

end SyncValues
