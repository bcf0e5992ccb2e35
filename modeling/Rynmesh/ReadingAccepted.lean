import Rynmesh.ReadingErasure

/-!
# What a call saves is read again

The checks of a file (`AcceptedDocument`) hold of what the calls on the reading history save,
where they held of what the call found.

* `Sane` is the part of `AcceptedState` that every single write and merge keeps; the number of
  entities is checked by the calls.
-/

namespace ReadingPrivacy

open Checked Reading Consumption
open SyncValues (ScopeName)
open Records (Valid merge_iff merge_valid isActorId isEntityId)

variable {lib : Library} {actor : String} {state next : ReadingState}

/-! ### The causal state -/

structure Sane (lib : Library) (actor : String) (state : ReadingState) : Prop where
  valid : isActorId actor = true
  actor : state.actor = actor
  scopes : state.scopes.Nodup ∧ ∀ scope ∈ state.scopes, scope ∈ SCOPES
  failures : state.failures.entries.length ≤ MAX_FAILURES
  entities : ∀ key entity, state.entities.get? key = some entity →
    Filed lib key entity.scope entity.id entity.record ∧ entity.scope ∈ state.scopes ∧
      Valid (lib.scope entity.scope) entity.id entity.projected

theorem AcceptedState.sane (h : AcceptedState lib state) : Sane lib state.actor state :=
  ⟨h.actor, rfl, h.scopes, h.failures, h.entities⟩

theorem Sane.accepted (h : Sane lib actor state)
    (hcapacity : state.entities.entries.length ≤ MAX_ENTITIES) : AcceptedState lib state :=
  ⟨by rw [h.actor]; exact h.valid, h.scopes, hcapacity, h.failures, h.entities⟩

theorem Sane.put (h : Sane lib actor state) {key : String} {entity : Entity}
    (hfiled : Filed lib key entity.scope entity.id entity.record)
    (hscope : entity.scope ∈ state.scopes)
    (hprojected : Valid (lib.scope entity.scope) entity.id entity.projected) :
    Sane lib actor { state with entities := state.entities.set key entity } := by
  exact ⟨h.valid, h.actor, h.scopes, h.failures,
    Dict.forall_get?_set ⟨hfiled, hscope, hprojected⟩ h.entities⟩

variable {identifier : String}

/-- What is found under a key, or started there. -/
theorem Sane.entity (hlib : lib.Collisionless) (h : Sane lib actor state) (scope : ScopeName)
    (hentity : isEntityId identifier = true) :
    (state.entity lib scope identifier).scope = scope ∧
      (state.entity lib scope identifier).id = identifier ∧
      Valid (lib.scope scope) identifier (state.entity lib scope identifier).projected := by
  unfold ReadingState.entity
  cases hget : state.entities.get? (lib.entityKey scope identifier) with
  | none =>
    exact ⟨rfl, rfl, Records.valid_empty hentity (lib.canonical scope).size_empty⟩
  | some entity =>
    obtain ⟨hfiled, _, hprojected⟩ := h.entities _ _ hget
    obtain ⟨hscope, hid⟩ := hfiled.eq hlib
    refine ⟨hscope, hid, ?_⟩
    rw [← hscope, ← hid]
    exact hprojected

variable {scope : ScopeName}

theorem Sane.write (hlib : lib.Collisionless) (h : Sane lib actor state)
    (hscope : scope ∈ state.scopes) {value : Option Json} {expectedRevision : Option String}
    (hwrite : state.write lib scope identifier value expectedRevision = .ok next) :
    Sane lib actor next ∧ next.scopes = state.scopes := by
  obtain ⟨base, updated, merged, conflict, hwrote⟩ := write_wrote hwrite
  obtain ⟨hsame, hid, _⟩ := h.entity hlib scope hwrote.entity
  have hmerged := merge_valid (lib.canonical scope) hwrote.joined
  rw [hwrote.result]
  refine ⟨h.put ⟨?_, ?_, (congrArg₂ lib.entityKey hsame hid).symm, ?_⟩ ?_ ?_, rfl⟩
  · rw [hsame]
    exact h.scopes.2 _ hscope
  · rw [hid]
    exact hwrote.entity
  · rw [hsame, hid]
    exact hmerged
  · rw [hsame]
    exact hscope
  · rw [hsame, hid]
    show Valid (lib.scope scope) identifier (if conflict = true then updated else merged)
    split
    · exact (merge_iff.mp hwrote.joined).1.2
    · exact hmerged

theorem write_length {value : Option Json} {expectedRevision : Option String}
    (hwrite : state.write lib scope identifier value expectedRevision = .ok next)
    (h : state.entities.entries.length ≤ MAX_ENTITIES) :
    next.entities.entries.length ≤ MAX_ENTITIES := by
  simp only [ReadingState.write, bind_ok, require_ok, pure_ok] at hwrite
  obtain ⟨key, _, _, hroom, base, _, updated, _, merged, _, shown, _, heq⟩ := hwrite
  rw [← heq]
  show (state.entities.set key _).entries.length ≤ MAX_ENTITIES
  rw [Records.entries_length_set]
  split
  · exact h
  · next hnone => exact hroom.resolve_left hnone

theorem erase_length {α : Type} (d : Dict String α) (k : String) :
    (d.erase k).entries.length ≤ d.entries.length :=
  List.length_filter_le _ _

theorem newest_length {α : Type} (d : Dict String α) (capacity : Nat) :
    (d.newest capacity).entries.length ≤ capacity := by
  unfold Dict.newest
  rw [List.length_drop]
  omega

theorem Sane.capture (hlib : lib.Collisionless) (h : Sane lib actor state) {row : Json}
    {expectedRevision : Option String}
    (hcapture : state.capture lib row scope expectedRevision = .ok next) :
    Sane lib actor next ∧ (state.entities.entries.length ≤ MAX_ENTITIES →
      next.entities.entries.length ≤ MAX_ENTITIES) := by
  rcases capture_ok hcapture with rfl | ⟨hscope, _, _, _, _, _, _, hwrite, rfl⟩
  · exact ⟨h, id⟩
  · obtain ⟨hsane, _⟩ := h.write hlib hscope hwrite
    have hlength := write_length hwrite
    exact ⟨⟨hsane.valid, hsane.actor, hsane.scopes, (erase_length _ _).trans hsane.failures,
      hsane.entities⟩, hlength⟩

theorem Sane.captureWanted (hlib : lib.Collisionless) (h : Sane lib actor state) {wanted : Bool}
    {row : Json} (hcapture : state.captureWanted lib wanted row scope = .ok next) :
    Sane lib actor next := by
  unfold ReadingState.captureWanted at hcapture
  split at hcapture
  · exact (h.capture hlib hcapture).1
  · injection hcapture with hcapture
    rw [← hcapture]
    exact h

theorem Sane.enabled (hlib : lib.Collisionless) {owner : String} {selected : List ScopeName}
    {rows : List Json} (h : Sane lib actor (state.withScopes selected))
    (henable : state.enable lib owner selected rows = .ok next) : Sane lib actor next := by
  simp only [ReadingState.enable, bind_ok, scopes_ok] at henable
  obtain ⟨_, _, selected', ⟨_, rfl⟩, hfold⟩ := henable
  refine foldlM_keeps ?_ h hfold
  intro current row after _ hsane hstep
  simp only [ReadingState.captureAdded, bind_ok] at hstep
  obtain ⟨bookmarked, hfirst, hsecond⟩ := hstep
  exact (hsane.captureWanted hlib hfirst).captureWanted hlib hsecond

theorem sane_created (h : create actor = .ok state) : Sane lib actor state := by
  simp only [create, bind_ok, require_ok, pure_ok] at h
  obtain ⟨_, hactor, heq⟩ := h
  rw [← heq]
  refine ⟨hactor, rfl, ⟨List.nodup_nil, fun scope hmem => by cases hmem⟩, Nat.zero_le _, ?_⟩
  nofun

/-- The entity of a barrier. -/
def sealedEntity (row : Row) : Entity := ⟨row.scope, row.id, row.record, row.record, none⟩

theorem seeded_get? {receipt : Receipt} {added : List ScopeName} (key : String) :
    (seeded receipt state added).entities.get? key =
      (((receipt.barriers.get? key).filter fun row => row.scope ∈ added).map sealedEntity).or
        (state.entities.get? key) := by
  have hall : ∀ (entries : List (String × Row)) (state : ReadingState),
      (entries.map Prod.fst).Nodup →
      (entries.foldl (fun state entry =>
        if entry.2.scope ∈ added then
          { state with entities := state.entities.set entry.1 (sealedEntity entry.2) }
        else state) state).entities.get? key =
      (((Dict.lookup key entries).filter fun row => row.scope ∈ added).map sealedEntity).or
        (state.entities.get? key) := by
    intro entries
    induction entries with
    | nil =>
      intro state _
      rfl
    | cons entry rest ih =>
      intro state hnodup
      rw [List.map_cons, List.nodup_cons] at hnodup
      rw [List.foldl_cons, ih _ hnodup.2, Dict.lookup]
      by_cases hkey : entry.1 = key
      · have hnone : Dict.lookup key rest = none := by
          rw [Dict.lookup_eq_none_iff, ← hkey]
          exact hnodup.1
        rw [hnone, if_pos hkey]
        by_cases hadded : entry.2.scope ∈ added
        · simp [hadded, hkey, Option.filter]
        · simp [hadded, Option.filter]
      · have hsame : (if entry.2.scope ∈ added then
            { state with entities := state.entities.set entry.1 (sealedEntity entry.2) }
            else state).entities.get? key = state.entities.get? key := by
          split
          · rw [Dict.get?_set, if_neg (Ne.symm hkey)]
          · rfl
        rw [if_neg hkey, hsame]
  exact hall receipt.barriers.entries state receipt.barriers.keys_nodup

theorem seeded_rest (receipt : Receipt) (state : ReadingState) (added : List ScopeName) :
    (seeded receipt state added).actor = state.actor ∧
      (seeded receipt state added).scopes = state.scopes ∧
      (seeded receipt state added).failures = state.failures := by
  unfold seeded
  generalize receipt.barriers.entries = entries
  induction entries generalizing state with
  | nil => exact ⟨rfl, rfl, rfl⟩
  | cons entry rest ih =>
    obtain ⟨hactor, hscopes, hfailures⟩ := ih (if entry.2.scope ∈ added then
        { state with
          entities := state.entities.set entry.1
            ⟨entry.2.scope, entry.2.id, entry.2.record, entry.2.record, none⟩ }
      else state)
    rw [List.foldl_cons, hactor, hscopes, hfailures]
    split
    · exact ⟨rfl, rfl, rfl⟩
    · exact ⟨rfl, rfl, rfl⟩

theorem Sane.seeded (h : Sane lib actor state) {receipt : Receipt}
    (haccepted : AcceptedReceipt lib receipt) (selected : List ScopeName) :
    Sane lib actor ((seeded receipt state
      (selected.filter fun scope => scope ∉ state.scopes)).withScopes selected) := by
  obtain ⟨hactor, hscopes, hfailures⟩ := seeded_rest receipt state
    (selected.filter fun scope => scope ∉ state.scopes)
  refine ⟨h.valid, hactor.trans h.actor, ⟨List.Nodup.filter _ (by decide), ?_⟩, ?_, ?_⟩
  · intro scope hmem
    exact (List.mem_filter.mp hmem).1
  · rw [show ((Consumption.seeded receipt state _).withScopes selected).failures =
      (Consumption.seeded receipt state
        (selected.filter fun scope => scope ∉ state.scopes)).failures
      from rfl, hfailures]
    exact h.failures
  · intro key entity hget
    have hmem : ∀ scope ∈ SCOPES, scope ∈ state.scopes ∨ scope ∈ selected →
        scope ∈ ((Consumption.seeded receipt state
          (selected.filter fun scope => scope ∉ state.scopes)).withScopes selected).scopes := by
      intro scope hlisted hany
      refine List.mem_filter.mpr ⟨hlisted, decide_eq_true ?_⟩
      rw [hscopes]
      exact hany
    have hfound : (Consumption.seeded receipt state
      (selected.filter fun scope => scope ∉ state.scopes)).entities.get? key = some entity := hget
    rw [seeded_get?, Option.or_eq_some_iff] at hfound
    rcases hfound with hbarrier | ⟨_, hold⟩
    · obtain ⟨row, hrow, heq⟩ := Option.map_eq_some_iff.mp hbarrier
      obtain ⟨hrow, hadded⟩ := Option.filter_eq_some_iff.mp hrow
      have hselected := (List.mem_filter.mp (of_decide_eq_true hadded)).1
      obtain ⟨hfiled, _⟩ := haccepted.barriers key row hrow
      rw [← heq]
      exact ⟨hfiled, hmem _ hfiled.listed (.inr hselected), hfiled.valid⟩
    · obtain ⟨hfiled, hscope, hprojected⟩ := h.entities key entity hold
      exact ⟨hfiled, hmem _ hfiled.listed (.inl hscope), hprojected⟩

theorem Sane.mergeRow (hlib : lib.Collisionless) (h : Sane lib actor state) {row : Row}
    (hscope : row.scope ∈ state.scopes) (hmerge : state.mergeRow lib row = .ok next) :
    Sane lib actor next ∧ next.scopes = state.scopes := by
  simp only [ReadingState.mergeRow, bind_ok, key_ok, pure_ok] at hmerge
  obtain ⟨key, ⟨hentity, hkey⟩, merged, hmerged, shown, _, heq⟩ := hmerge
  have hvalid := merge_valid (lib.canonical row.scope) hmerged
  have hprior : Valid (lib.scope row.scope) row.id
      ((state.entities.get? key).getD (absent row.scope row.id)).projected := by
    have hsame := (h.entity hlib row.scope hentity).2.2
    rw [hkey]
    exact hsame
  rw [← heq]
  refine ⟨h.put ⟨h.scopes.2 _ hscope, hentity, hkey, hvalid⟩ hscope ?_, rfl⟩
  show Valid (lib.scope row.scope) row.id (if shown.conflict = true then _ else merged)
  split
  · exact hprior
  · exact hvalid

theorem Sane.mergeRows (hlib : lib.Collisionless) {selected : List ScopeName} {rows : List Row}
    {seen : List String} (h : Sane lib actor state)
    (hselected : ∀ scope ∈ selected, scope ∈ state.scopes)
    (hmerge : ReadingState.mergeRows lib selected state seen rows = .ok next) :
    Sane lib actor next := by
  refine (ReadingState.mergeRows_induction
    (P := fun s => Sane lib actor s ∧ s.scopes = state.scopes) ⟨h, rfl⟩ hmerge ?_).1
  intro row _ hscope s t ⟨hsane, hscopes⟩ hrow
  obtain ⟨hsane, hsame⟩ := hsane.mergeRow hlib (hscopes ▸ hselected _ hscope) hrow
  exact ⟨hsane, hsame.trans hscopes⟩

theorem AcceptedState.merge (hlib : lib.Collisionless) (h : AcceptedState lib state)
    {rows : List Row} {selected : List ScopeName} {receipts : List RowReceipt}
    (hmerge : state.merge lib rows selected = .ok (next, receipts)) :
    AcceptedState lib next ∧ next.actor = state.actor := by
  simp only [ReadingState.merge, bind_ok, scopes_ok, require_ok, pure_ok, Prod.mk.injEq] at hmerge
  obtain ⟨selected', ⟨_, rfl⟩, _, hselected, merged, hrows, _, hcapacity, hnext, _⟩ := hmerge
  rw [← hnext]
  have hsane := h.sane.mergeRows hlib hselected hrows
  exact ⟨hsane.accepted hcapacity, hsane.actor⟩

theorem Sane.noted (h : Sane lib actor state) {code : String} {time : Rat}
    (hnote : state.recordCaptureFailure lib scope identifier code time = .ok next) :
    Sane lib actor next ∧ next.entities = state.entities := by
  simp only [ReadingState.recordCaptureFailure, bind_ok, pure_ok] at hnote
  obtain ⟨key, _, heq⟩ := hnote
  rw [← heq]
  refine ⟨⟨h.valid, h.actor, h.scopes, ?_, h.entities⟩, rfl⟩
  exact newest_length _ _

theorem AcceptedState.changed {p : Consumption.Platform} (hlib : p.toLibrary.Collisionless)
    (h : AcceptedState p.toLibrary state) {change : Change} {action : Action} {row : Json}
    (hcapture : change.capture p action identifier row state = .ok next) :
    AcceptedState p.toLibrary next ∧ next.actor = state.actor := by
  unfold Change.capture at hcapture
  split at hcapture
  · injection hcapture with hcapture
    rw [← hcapture]
    exact ⟨h, rfl⟩
  · split at hcapture
    · next after hafter =>
      injection hcapture with hcapture
      rw [← hcapture]
      obtain ⟨hsane, hlength⟩ := h.sane.capture hlib hafter
      exact ⟨hsane.accepted (hlength h.capacity), hsane.actor⟩
    · split at hcapture
      · cases hcapture
      · obtain ⟨hsane, hsame⟩ := h.sane.noted hcapture
        exact ⟨hsane.accepted (by rw [hsame]; exact h.capacity), hsane.actor⟩

end ReadingPrivacy
