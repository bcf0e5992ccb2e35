import Rynmesh.ReadingErasureRuns

/-!
# What the views show after an erasure

* `Hidden` says that no view shows a value of an item that was covered;
* `erased_stays_erased` says so of every run after an erasure.
-/

namespace ReadingPrivacy

open Checked Reading Consumption
open SyncValues (ScopeName)

variable {lib : Library} {covered : List Row} {state : ReadingState} {document : Document}

/-! ### Candidates -/

theorem foldl_get? {α β : Type} {step : Dict String β → α → Dict String β} (key : α → String)
    (f : α → β) (hstep : ∀ d a, step d a = d ∨ step d a = d.set (key a) (f a)) {items : List α}
    {d : Dict String β} {k : String} {v : β} (h : (items.foldl step d).get? k = some v) :
    d.get? k = some v ∨ ∃ a ∈ items, k = key a ∧ v = f a := by
  induction items generalizing d with
  | nil => exact .inl h
  | cons item rest ih =>
    rcases ih h with hnext | ⟨a, hmem, hfound⟩
    · rcases hstep d item with heq | heq
      · rw [heq] at hnext
        exact .inl hnext
      · rw [heq, Dict.get?_set] at hnext
        by_cases hkey : k = key item
        · rw [if_pos hkey] at hnext
          exact .inr ⟨item, (.head _), hkey, (Option.some.inj hnext).symm⟩
        · rw [if_neg hkey] at hnext
          exact .inl hnext
    · exact .inr ⟨a, .tail _ hmem, hfound⟩

variable {scope : Records.Scope Json} {record : Records.Record Json}

theorem candidates_mem {value : Option Json} (h : value ∈ Records.candidates scope record) :
    ∃ head ∈ record.heads, value = head.value := by
  obtain ⟨entry, hentry, heq⟩ := List.mem_map.mp h
  rw [List.mem_insertionSort] at hentry
  rcases foldl_get? (fun head : Records.Head Json => scope.fingerprint head.value)
      Records.Head.value (fun d head => by split <;> simp) (Dict.get?_eq_some_iff.mpr hentry) with
      hnone | ⟨head, hmem, _, hvalue⟩
  · cases hnone
  · exact ⟨head, hmem, heq ▸ hvalue⟩

theorem choices_mem {choice : String × Option Json}
    (h : choice ∈ ReadingState.choices scope record) :
    ∃ head ∈ record.heads, choice.2 = head.value := by
  obtain ⟨entry, hentry, heq⟩ := List.mem_map.mp h
  rw [List.mem_insertionSort] at hentry
  rcases foldl_get? (fun head : Records.Head Json => scope.fingerprint head.value)
      (fun head => (head.actor ++ ":" ++ toString head.counter, head.value))
      (fun d head => by split <;> simp) (Dict.get?_eq_some_iff.mpr hentry) with hnone |
      ⟨head, hmem, _, hvalue⟩
  · cases hnone
  · exact ⟨head, hmem, by rw [← heq, hvalue]⟩

theorem choices_blank (h : Blank record) : (ReadingState.choices scope record).length ≤ 1 := by
  unfold ReadingState.choices
  rw [List.length_map, List.length_insertionSort]
  generalize hdict : record.heads.foldl _ _ = options
  have hkeys : options.keys ⊆ [scope.fingerprint none] := by
    intro key hmem
    obtain ⟨value, hget⟩ := Dict.mem_keys_iff.mp hmem
    rw [← hdict] at hget
    rcases foldl_get? (fun head : Records.Head Json => scope.fingerprint head.value)
        (fun head => (head.actor ++ ":" ++ toString head.counter, head.value))
        (fun d head => by split <;> simp) hget with hnone | ⟨head, hhead, hkey, _⟩
    · cases hnone
    · rw [hkey, h head hhead]
      exact List.mem_singleton_self _
  have hlength := (List.subperm_of_subset options.keys_nodup hkeys).length_le
  rwa [Dict.keys, List.length_map] at hlength

theorem candidates_blank (h : Blank record) {value : Option Json}
    (hmem : value ∈ Records.candidates scope record) : value = none := by
  obtain ⟨head, hhead, heq⟩ := candidates_mem hmem
  rw [heq, h head hhead]

/-! ### The list -/

theorem findSome_blank {options : List (Option Json)} (h : ∀ value ∈ options, value = none) :
    options.findSome? id = none := by
  rw [List.findSome?_eq_none_iff]
  exact h

theorem overlay_blank {entity : Entity} (hrecord : Blank entity.record)
    (hprojected : Blank entity.projected) {rows : Dict String Json}
    (hnone : rows.get? entity.id = none) :
    (Shown.of lib entity).overlay entity.scope entity.id rows = rows := by
  have hcandidate : (Shown.of lib entity).candidate = none :=
    findSome_blank fun value => candidates_blank hprojected
  have hdescription : (Shown.of lib entity).description = none := by
    unfold Shown.description
    rw [hcandidate]
    exact findSome_blank fun value => candidates_blank hrecord
  have hmarked : isBookmarked (Shown.of lib entity).options = false := by
    have hall : ∀ value ∈ (Shown.of lib entity).options, value = none :=
      fun value => candidates_blank hrecord
    generalize (Shown.of lib entity).options = options at hall
    cases options with
    | nil => rfl
    | cons value rest =>
      rw [hall value (.head _)]
      rfl
  have hactive : (Shown.of lib entity).active entity.scope = false := by
    unfold Shown.active
    split
    · exact hmarked
    · rw [hcandidate]
      rfl
  unfold Shown.overlay
  rw [hnone]
  simp only [hactive, hdescription, Option.isSome_none, Bool.and_false, Bool.or_self,
    Bool.false_eq_true, if_false]

theorem FreshRows.project {rows projected : Dict String Json} (h : FreshRows covered rows)
    (hblank : ∀ entity ∈ state.entities.values, entity.id ∈ ids covered →
      Blank entity.record ∧ Blank entity.projected)
    (hproject : project lib state rows = .ok projected) : FreshRows covered projected := by
  refine foldlM_keeps ?_ h hproject
  intro current entity after hmem hcurrent hstep
  simp only [projectEntity, bind_ok, pure_ok] at hstep
  obtain ⟨_, _, _, _, heq⟩ := hstep
  rw [← heq]
  by_cases hcovered : entity.id ∈ ids covered
  · obtain ⟨hrecord, hprojected⟩ := hblank entity hmem hcovered
    have hnone : current.get? entity.id = none := by
      cases hget : current.get? entity.id with
      | none => rfl
      | some row => exact absurd hcovered (hcurrent _ _ hget).2
    rw [overlay_blank hrecord hprojected hnone]
    exact hcurrent
  · unfold Shown.overlay
    split
    · next row hget =>
      refine hcurrent.set ?_ hcovered
      rw [derived_item, position_item]
      exact (hcurrent _ _ hget).1
    · split
      · refine hcurrent.set ?_ hcovered
        rw [derived_item, position_item, remoteRow_item]
      · exact hcurrent

/-- No view shows a value of an item that is covered. -/
structure Hidden (p : Consumption.Platform) (covered : List Row) (document : Document) : Prop where
  listed : ∀ rows, list p document = .ok rows → ∀ row ∈ rows, Fresh covered row
  read : ∀ scope identifier shown, identifier ∈ ids covered →
    syncRead p.toLibrary scope identifier document = .ok (some shown) →
      ∀ choice ∈ shown.candidates, choice.2 = none
  issues : ∀ shown, syncIssues p.toLibrary document = .ok shown →
    ∀ entry ∈ shown, entry.2.id ∉ ids covered
  exported : ∀ selected rows, syncExport selected document = .ok rows →
    ∀ row ∈ rows, row.id ∈ ids covered → Blank row.record

theorem choicesOf_parts {entity : Entity} {shown : Choices}
    (h : Choices.of lib entity = .ok shown) :
    shown.id = entity.id ∧
      shown.candidates = ReadingState.choices (lib.scope entity.scope) entity.record ∧
      shown.conflict = decide (1 < shown.candidates.length) := by
  simp only [Choices.of, bind_ok, pure_ok] at h
  obtain ⟨_, _, heq⟩ := h
  rw [← heq]
  exact ⟨rfl, rfl, rfl⟩

theorem Kept.hidden {p : Consumption.Platform} (hlib : p.toLibrary.Collisionless)
    (h : Kept p.toLibrary covered document) : Hidden p covered document := by
  refine ⟨?_, ?_, ?_, ?_⟩
  · intro rows hlist row hmem
    unfold Consumption.list at hlist
    cases hsync : document.sync with
    | none =>
      simp only [hsync, pure_bind] at hlist
      exact h.rows.fresh (newest_mem hlist hmem)
    | some state =>
      simp only [hsync, bind_ok] at hlist
      obtain ⟨projected, hproject, hnewest⟩ := hlist
      have hquiet := h.sync state hsync
      refine (h.rows.project ?_ hproject).fresh (newest_mem hnewest hmem)
      intro entity hentity hcovered
      obtain ⟨key, hget⟩ := Dict.mem_values_iff.mp hentity
      exact hquiet.blank key entity hget hcovered
  · intro scope identifier shown hcovered hread choice hmem
    simp only [syncRead, bind_ok, demand_ok, key_ok] at hread
    obtain ⟨state, hsync, _, _, key, ⟨_, hkey⟩, hread⟩ := hread
    split at hread
    · injection hread with hread
      cases hread
    · next entity hget =>
      obtain ⟨choices, hchoices, heq⟩ := map_ok.mp hread
      rw [← Option.some.inj heq, (choicesOf_parts hchoices).2.1] at hmem
      have hquiet := h.sync state hsync
      have hid : identifier = entity.id :=
        (hlib.entityKey _ _ _ _ (hkey.symm.trans (hquiet.filed _ _ hget))).2
      obtain ⟨head, hhead, hvalue⟩ := choices_mem hmem
      rw [hvalue]
      exact (hquiet.blank _ _ hget (hid ▸ hcovered)).1 head hhead
  · intro shown hissues entry hmem hcovered
    unfold syncIssues at hissues
    cases hsync : document.sync with
    | none =>
      simp only [hsync] at hissues
      injection hissues with hissues
      rw [← hissues] at hmem
      cases hmem
    | some state =>
      simp only [hsync, bind_ok, pure_ok] at hissues
      obtain ⟨all, hall, heq⟩ := hissues
      rw [← heq] at hmem
      obtain ⟨hentry, hconflict⟩ := List.mem_filter.mp hmem
      obtain ⟨entity, hentity, hof⟩ := mapM_mem hall hentry
      obtain ⟨choices, hchoices, hsame⟩ := map_ok.mp hof
      obtain ⟨hid, hcandidates, hiff⟩ := choicesOf_parts hchoices
      rw [← hsame] at hconflict hcovered
      obtain ⟨key, hget⟩ := Dict.mem_values_iff.mp hentity
      rw [hid] at hcovered
      have hblank := ((h.sync state hsync).blank key entity hget hcovered).1
      rw [hiff, hcandidates, decide_eq_true_eq] at hconflict
      exact absurd (choices_blank hblank) (Nat.not_le.mpr hconflict)
  · intro selected rows hexport row hmem hcovered
    simp only [syncExport, bind_ok, demand_ok, pure_ok] at hexport
    obtain ⟨state, hsync, _, _, _, _, heq⟩ := hexport
    rw [← heq] at hmem
    obtain ⟨entity, hentity, hrow⟩ := List.mem_filterMap.mp hmem
    obtain ⟨entry, hentry, hvalue⟩ := List.mem_map.mp hentity
    rw [List.mem_insertionSort] at hentry
    have hget := Dict.get?_eq_some_iff.mpr hentry
    rw [hvalue] at hget
    split at hrow
    · injection hrow with hrow
      rw [← hrow] at hcovered ⊢
      exact ((h.sync state hsync).blank _ entity hget hcovered).1
    · cases hrow

/-! ### Runs after an erasure -/

/-- **Erased reading history stays erased**: whatever scopes are enabled, items recorded, rows
delivered late and erasures made afterwards, in any order, no view shows a value of an item that
was covered, the barriers only grow, and until another erasure the token is answered again. -/
theorem erased_stays_erased {p : Platform} (hp : p.Faithful)
    (hstr : ∀ text, p.str (.str text) = text) :
    (∀ io disk actor token rows extra document count next,
      disk.load p.toLibrary = .ok document → additional p.toLibrary rows = .ok extra →
      (∀ receipt, document.receipt = some receipt → receipt.reviewToken ≠ token) →
      eraseSource p io disk actor token rows = (.ok count, next) →
      ∀ later, Relation.ReflTransGen (Step p)
          ⟨next, (barriersOf next).values ++ coveredBy document extra, 0⟩ later →
        (∀ row ∈ coveredBy document extra, row ∈ later.covered) ∧
        (∃ stored, later.disk.load p.toLibrary = .ok stored ∧
          Hidden p.toPlatform later.covered stored) ∧
        (∀ key barrier, (barriersOf next).get? key = some barrier →
          ∃ above, (barriersOf later.disk).get? key = some above ∧
            AtMost barrier.record above.record) ∧
        (later.erasures = 0 → ∀ io,
          eraseSource p io later.disk actor token rows = (.ok count, later.disk))) ∧
    ∀ io disk actor token rows error next,
      eraseSource p io disk actor token rows = (.error error, next) → next.file = disk.file := by
  refine ⟨?_, fun io disk actor token rows error next h => eraseSource_error h⟩
  intro io disk actor token rows extra document count next hload hextra hnew herase later hrun
  obtain ⟨written, hfile, herases⟩ := eraseSource_holds hp [] hload hextra hnew
    (fun row hmem => by cases hmem) herase
  have hstart : Life.Holds p ⟨next, (barriersOf next).values ++ coveredBy document extra, 0⟩ := by
    refine ⟨written, hfile, ?_⟩
    have hkept := herases.kept
    rw [List.append_nil] at hkept
    show Kept p.toLibrary ((barriersOf next).values ++ _) written
    rw [barriersOf_file hfile]
    exact hkept
  obtain ⟨⟨stored, hstored, hkept⟩, ⟨further, hcovered⟩, _, hreceipt⟩ :=
    runs_hold hp hstr hstart hrun
  have hread : later.disk.load p.toLibrary = .ok stored := by
    refine load_ok.mpr ⟨hkept.accepted, ?_⟩
    rw [hstored]
    rfl
  refine ⟨?_, ⟨stored, hread, hkept.hidden hp.library⟩, ?_, ?_⟩
  · intro row hmem
    rw [hcovered]
    exact List.mem_append_right _ (List.mem_append_right _ hmem)
  · intro key barrier hget
    have hmem : barrier ∈ later.covered := by
      rw [hcovered]
      exact List.mem_append_right _ (List.mem_append_left _ (Dict.mem_values_iff.mpr ⟨key, hget⟩))
    obtain ⟨receipt, hsome, hfences⟩ := hkept.receipt
    obtain ⟨above, habove, hle⟩ := hfences barrier hmem
    have hnamed : key = p.entityKey barrier.scope barrier.id := by
      obtain ⟨first, hfirst, _⟩ := herases.receipt
      rw [barriersOf_file hfile] at hget
      unfold before at hget
      rw [hfirst] at hget
      exact ((herases.kept.accepted.receipt first hfirst).barriers key barrier hget).1.named
    refine ⟨above, ?_, hle⟩
    rw [barriersOf_file hstored, hnamed]
    unfold before
    rw [hsome]
    exact habove
  · intro hsame io'
    obtain ⟨receipt, hfirst, htoken, hactor, hrows, hcount⟩ := herases.receipt
    have hheld : stored.receipt = some receipt := by
      have hsame := hreceipt hsame
      unfold receiptOf at hsame
      rw [hstored, hfile] at hsame
      exact hsame.trans hfirst
    have hagain : erase p actor token extra stored = .ok ⟨none, .ok count⟩ := by
      rw [← hcount]
      exact erase_repeated hheld htoken hactor hrows
    have hrequest : checkRequest p.toLibrary token rows = .ok extra := by
      unfold eraseSource at herase
      cases hcheck : checkRequest p.toLibrary token rows with
      | error e =>
        rw [hcheck] at herase
        cases herase
      | ok found =>
        simp only [checkRequest, bind_ok] at hcheck
        obtain ⟨_, _, hfound⟩ := hcheck
        rw [Except.ok.inj (hfound.symm.trans hextra)]
    unfold eraseSource
    rw [hrequest]
    show later.disk.run p.toLibrary io' (erase p actor token extra) = _
    unfold Disk.run
    rw [hread, ok_bind, hagain]

/-! ### Samples -/

theorem pair_eq {α β : Type} {x : α × β} {a : α} (h : x.1 = a) : x = (a, x.2) := by
  rw [← h]

/-- A file system on which all writes succeed. -/
def worksIo : Io := ⟨fun _ => .ok (), fun _ => .ok ()⟩

def bookmarkedItem : Json :=
  .obj [("item", .obj [("item_id", .str "item"), ("title", .str ""), ("source_title", .str ""),
      ("source_id", .str ""), ("content_kind", .str ""), ("link", .str "rynmesh://content/item")]),
    ("bookmarked", .bool true)]

def bookmarkedRecord : Records.Record Json :=
  ⟨Dict.empty.set sampleState.actor 1, [⟨sampleState.actor, 1, some bookmarkedItem⟩], false⟩

/-- A history with one bookmark that is synced. -/
def bookmarkedState : ReadingState where
  actor := sampleState.actor
  scopes := [.bookmarks]
  entities := Dict.empty.set (textLibrary.entityKey .bookmarks "item")
    ⟨.bookmarks, "item", bookmarkedRecord, bookmarkedRecord, none⟩
  failures := .empty

def bookmarkedDocument : Document := .synced false (Json.object []) .empty bookmarkedState

def bookmarkedDisk : Disk := ⟨some bookmarkedDocument, .empty⟩

/-- The records of the history, as another device may deliver them late. -/
def bookmarkedRows : List Row :=
  bookmarkedState.entities.values.map fun entity => ⟨entity.scope, entity.id, entity.record⟩

theorem erased_stays_erased_sample :
    ∃ count next last stored,
      eraseSource textPlatform worksIo bookmarkedDisk sampleState.actor (sampleToken 'b') none =
        (.ok count, next) ∧
      last = (next.syncReceive textPlatform.toPlatform worksIo worksIo bookmarkedRows [.bookmarks]
        none false).2 ∧
      last.load textLibrary = .ok stored ∧
      Hidden textPlatform.toPlatform
        ((barriersOf next).values ++ coveredBy bookmarkedDocument .empty) stored := by
  have hcheck : bookmarkedDocument.check textLibrary = .ok () := by decide +kernel
  have hload : bookmarkedDisk.load textPlatform.toLibrary = .ok bookmarkedDocument :=
    bind_ok.mpr ⟨(), hcheck, rfl⟩
  have hsome : (eraseSource textPlatform worksIo bookmarkedDisk sampleState.actor
      (sampleToken 'b') none).1.toOption.isSome = true := by
    decide +kernel
  obtain ⟨count, next, herase⟩ : ∃ count next, eraseSource textPlatform worksIo bookmarkedDisk
      sampleState.actor (sampleToken 'b') none = (.ok count, next) := by
    obtain ⟨count, hcount⟩ := toOption_isSome hsome
    exact ⟨count, _, pair_eq hcount⟩
  have hstale : ∀ row ∈ bookmarkedRows,
      Stale ((barriersOf next).values ++ coveredBy bookmarkedDocument .empty) row := by
    intro row hmem _
    obtain ⟨entity, hentity, heq⟩ := List.mem_map.mp hmem
    have hcovered : row ∈ coveredBy bookmarkedDocument .empty := by
      rw [← heq]
      exact mem_coveredBy rfl hentity
    exact ⟨row, List.mem_append_right _ hcovered, rfl, rfl, fun _ => Nat.le_refl _⟩
  have hstep : Step textPlatform
      ⟨next, (barriersOf next).values ++ coveredBy bookmarkedDocument .empty, 0⟩ _ :=
    .received hstale (Prod.eta (next.syncReceive textPlatform.toPlatform worksIo worksIo
      bookmarkedRows [.bookmarks] none false)).symm
  have hnew : ∀ receipt, bookmarkedDocument.receipt = some receipt →
      receipt.reviewToken ≠ sampleToken 'b' := by
    intro receipt hreceipt
    cases hreceipt
  obtain ⟨_, ⟨stored, hstored, hhidden⟩, _⟩ :=
    (erased_stays_erased textPlatform_faithful fun _ => rfl).1 worksIo bookmarkedDisk _ _ none
      .empty _ _ _ hload rfl hnew herase _ (.single hstep)
  exact ⟨count, next, _, stored, herase, rfl, hstored, hhidden⟩

def erasedOnce : Except String Nat × Disk :=
  eraseSource textPlatform worksIo ⟨none, .empty⟩ sampleState.actor (sampleToken 'b') none

def erasedTwice : Except String Nat × Disk :=
  eraseSource textPlatform worksIo erasedOnce.2 sampleState.actor (sampleToken 'c') none

/-- After another erasure the token of the first is answered no more. -/
theorem replaced_token_refused :
    erasedOnce.1.toOption = some 0 ∧ erasedTwice.1.toOption = some 0 ∧
      (eraseSource textPlatform worksIo erasedTwice.2 sampleState.actor (sampleToken 'b')
        none).1.toOption = none := by
  decide +kernel

end ReadingPrivacy
