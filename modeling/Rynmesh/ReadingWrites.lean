import Rynmesh.ReadingState

/-!
# Local writes to the reading history

* `Sound` is what holds of every state: projections are below their records, and
  no counter that was used is above the record's;
* `Reached.sound` is the run lemma, over the writes and merges that calls consist of;
* `Reached.calls` says that the calls consist of these.
-/

namespace Reading

open Checked SyncValues Records

variable {lib : Library} {state next : ReadingState} {scope : ScopeName} {identifier : String}

/-- A counter that a local write has used. -/
abbrev Used := ScopeName × String × Nat

variable {used : List Used}

/-- No two fingerprints of cleaned values collide. -/
structure Library.Collisionless (lib : Library) : Prop where
  entityKey : ∀ a b c d, lib.entityKey a b = lib.entityKey c d → a = c ∧ b = d
  values : ∀ scope identifier a b, cleanValue (lib.scope scope) identifier a = .ok a →
    cleanValue (lib.scope scope) identifier b = .ok b →
    lib.values.fingerprint a = lib.values.fingerprint b → a = b

theorem Library.canonical (lib : Library) (scope : ScopeName) : (lib.scope scope).Canonical :=
  ⟨_, fun _ => rfl⟩

/-! ### Entities -/

/-- An entity, or the one that a write starts. -/
def ReadingState.entity (lib : Library) (state : ReadingState) (scope : ScopeName)
    (identifier : String) : Entity :=
  (state.entities.get? (lib.entityKey scope identifier)).getD (absent scope identifier)

/-- The own counter in a record. -/
def ReadingState.counter (lib : Library) (state : ReadingState) (scope : ScopeName)
    (identifier : String) : Nat :=
  (state.entity lib scope identifier).record.clockAt state.actor

def ReadingState.put (lib : Library) (state : ReadingState) (scope : ScopeName)
    (identifier : String) (entity : Entity) : ReadingState :=
  { state with entities := state.entities.set (lib.entityKey scope identifier) entity }

theorem entity_put (hlib : lib.Collisionless) (entity : Entity) (other : ScopeName)
    (name : String) :
    (state.put lib scope identifier entity).entity lib other name =
      if other = scope ∧ name = identifier then entity else state.entity lib other name := by
  unfold ReadingState.entity ReadingState.put
  rw [Dict.get?_set]
  by_cases hsame : other = scope ∧ name = identifier
  · rw [if_pos hsame, hsame.1, hsame.2, if_pos rfl]
    rfl
  · have hne : lib.entityKey other name ≠ lib.entityKey scope identifier :=
      fun heq => hsame (hlib.entityKey _ _ _ _ heq)
    rw [if_neg hsame, if_neg hne]

/-! ### Steps -/

/-- The writes and merges that calls consist of, and the counters that the writes used. -/
inductive Reached (lib : Library) : ReadingState → List Used → Prop
  | created {actor : String} {state : ReadingState} (h : create actor = .ok state) :
      Reached lib state []
  | wrote {state next : ReadingState} {used : List Used} {scope : ScopeName} {identifier : String}
      {value : Option Json} {expectedRevision : Option String} (h : Reached lib state used)
      (hwrite : state.write lib scope identifier value expectedRevision = .ok next) :
      Reached lib next ((scope, identifier, next.counter lib scope identifier) :: used)
  | merged {state next : ReadingState} {used : List Used} {row : Row} (h : Reached lib state used)
      (hscope : row.scope ∈ SCOPES) (hmerge : state.mergeRow lib row = .ok next) :
      Reached lib next used
  | resolved {state : ReadingState} {used : List Used} {key : String} {entity : Entity}
      (h : Reached lib state used) (hget : state.entities.get? key = some entity)
      (resolution : Option Resolution) :
      Reached lib
        { state with entities := state.entities.set key { entity with resolution } } used
  | widened {state : ReadingState} {used : List Used} (h : Reached lib state used)
      (selected : List ScopeName) : Reached lib (state.withScopes selected) used
  | noted {state : ReadingState} {used : List Used} (h : Reached lib state used)
      (failures : Dict String Failure) : Reached lib { state with failures } used

/-! ### The invariant -/

structure Sound (lib : Library) (state : ReadingState) (used : List Used) : Prop where
  entities : ∀ key entity, state.entities.get? key = some entity →
    key = lib.entityKey entity.scope entity.id ∧
      Projects (lib.scope entity.scope) entity.id entity.record entity.projected
  used : ∀ scope identifier counter, (scope, identifier, counter) ∈ used →
    counter ≤ state.counter lib scope identifier

theorem Sound.projects (h : Sound lib state used) (hlib : lib.Collisionless)
    (hentity : isEntityId identifier = true) :
    Projects (lib.scope scope) identifier (state.entity lib scope identifier).record
      (state.entity lib scope identifier).projected := by
  unfold ReadingState.entity
  cases hget : state.entities.get? (lib.entityKey scope identifier) with
  | none => exact Projects.empty (lib.canonical scope) hentity
  | some entity =>
    obtain ⟨hkey, hprojects⟩ := h.entities _ _ hget
    obtain ⟨hscope, hid⟩ := hlib.entityKey _ _ _ _ hkey
    rw [hscope, hid]
    exact hprojects

theorem Sound.put (h : Sound lib state used) (hlib : lib.Collisionless) {entity : Entity}
    (hscope : entity.scope = scope) (hid : entity.id = identifier)
    (hprojects : Projects (lib.scope scope) identifier entity.record entity.projected)
    (hcounter : state.counter lib scope identifier ≤ entity.record.clockAt state.actor) :
    Sound lib (state.put lib scope identifier entity) used := by
  refine ⟨?_, ?_⟩
  · refine Dict.forall_get?_set ?_ h.entities
    rw [hscope, hid]
    exact ⟨rfl, hprojects⟩
  · intro other name counter hmem
    have hold := h.used other name counter hmem
    unfold ReadingState.counter at hold hcounter ⊢
    rw [entity_put hlib]
    by_cases hsame : other = scope ∧ name = identifier
    · rw [if_pos hsame]
      rw [hsame.1, hsame.2] at hold
      exact hold.trans hcounter
    · rw [if_neg hsame]
      exact hold

/-! ### One write -/

/-- What a write did. -/
structure Wrote (lib : Library) (state next : ReadingState) (scope : ScopeName)
    (identifier : String) (value : Option Json) (expectedRevision : Option String)
    (base updated merged : Records.Record Json) (conflict : Bool) : Prop where
  entity : isEntityId identifier = true
  started : (state.entity lib scope identifier).base lib state.actor expectedRevision = .ok base
  written : Records.write (lib.scope scope) identifier base state.actor value false = .ok updated
  joined : Records.merge (lib.scope scope) identifier (state.entity lib scope identifier).record
    updated = .ok merged
  result : next = state.put lib scope identifier
    { state.entity lib scope identifier with
      record := merged
      projected := if conflict then updated else merged }

variable {value : Option Json}

theorem write_wrote {expectedRevision : Option String}
    (h : state.write lib scope identifier value expectedRevision = .ok next) :
    ∃ base updated merged conflict, Wrote lib state next scope identifier value expectedRevision
      base updated merged conflict := by
  simp only [ReadingState.write, key, bind_ok, require_ok, pure_ok] at h
  obtain ⟨_, ⟨_, hentity, hkey⟩, _, _, base, hbase, updated, hwrite, merged, hmerge, shown, _,
    heq⟩ := h
  rw [← hkey] at hbase hmerge heq
  exact ⟨base, updated, merged, shown.conflict, hentity, hbase, hwrite, hmerge, heq.symm⟩

theorem entity_fields (h : Sound lib state used) (hlib : lib.Collisionless) :
    (state.entity lib scope identifier).scope = scope ∧
      (state.entity lib scope identifier).id = identifier := by
  unfold ReadingState.entity
  cases hget : state.entities.get? (lib.entityKey scope identifier) with
  | none => exact ⟨rfl, rfl⟩
  | some entity =>
    obtain ⟨hscope, hid⟩ := hlib.entityKey _ _ _ _ (h.entities _ _ hget).1
    exact ⟨hscope.symm, hid.symm⟩

theorem Wrote.clean {expectedRevision : Option String} {base updated merged : Records.Record Json}
    {conflict : Bool}
    (h : Wrote lib state next scope identifier value expectedRevision base updated merged
      conflict) : ∃ cleaned, cleanValue (lib.scope scope) identifier value = .ok cleaned := by
  have hwrite := h.written
  simp only [Records.write, bind_ok] at hwrite
  obtain ⟨_, _, _, _, _, _, _, _, cleaned, hclean, _⟩ := hwrite
  exact ⟨cleaned, hclean⟩

theorem Wrote.live {expectedRevision : Option String} {base updated merged : Records.Record Json}
    {conflict : Bool}
    (h : Wrote lib state next scope identifier value expectedRevision base updated merged
      conflict)
    (hprojects : Projects (lib.scope scope) identifier
        (state.entity lib scope identifier).record (state.entity lib scope identifier).projected) :
    (state.entity lib scope identifier).record.erased = false := by
  obtain ⟨cleaned, hclean⟩ := h.clean
  obtain ⟨_, hbase⟩ := write_ok hclean h.written
  have hfrom := h.started
  cases hany : (state.entity lib scope identifier).record.erased with
  | false => rfl
  | true =>
    have hprojected := hprojects.erased hany
    cases expectedRevision with
    | none =>
      simp only [Entity.base, pure_ok] at hfrom
      rw [← hfrom, erased_writeBase, hprojected] at hbase
      cases hbase
    | some revision =>
      simp only [Entity.base, bind_ok, pure_ok] at hfrom
      obtain ⟨_, _, hfrom⟩ := hfrom
      rw [← hfrom, hany] at hbase
      cases hbase

theorem Sound.write (h : Sound lib state used) (hlib : lib.Collisionless)
    {expectedRevision : Option String}
    (hwrite : state.write lib scope identifier value expectedRevision = .ok next) :
    Sound lib next ((scope, identifier, next.counter lib scope identifier) :: used) := by
  obtain ⟨base, updated, merged, conflict, hwrote⟩ := write_wrote hwrite
  have hprojects : Projects (lib.scope scope) identifier (state.entity lib scope identifier).record
      (state.entity lib scope identifier).projected := h.projects hlib hwrote.entity
  have hfields : (state.entity lib scope identifier).scope = scope ∧
      (state.entity lib scope identifier).id = identifier := entity_fields h hlib
  have hjoin := (merge_iff.mp hwrote.joined).2.2.2
  have hlive : merged.erased = true → updated.erased = true := by
    intro herased
    rw [hjoin, join_erased, hwrote.live hprojects, Bool.false_or] at herased
    exact herased
  have hprojected : Projects (lib.scope scope) identifier merged
      (if conflict = true then updated else merged) := by
    split
    · exact Projects.of_merged (lib.canonical scope) hwrote.joined hlive
    · exact Projects.self (lib.canonical scope) hwrote.joined
  have hcounter : state.counter lib scope identifier ≤ merged.clockAt state.actor := by
    rw [hjoin, join_clockAt]
    exact Nat.le_max_left _ _
  have hput : Sound lib next used := by
    rw [hwrote.result]
    exact h.put hlib hfields.1 hfields.2 hprojected hcounter
  refine ⟨hput.entities, ?_⟩
  intro other name counter hmem
  rcases List.mem_cons.mp hmem with heq | hmem
  · injection heq with hscope heq
    injection heq with hid hcount
    rw [hscope, hid, hcount]
  · exact hput.used other name counter hmem

/-- **An ordinary write** keeps what its projection had not observed. -/
theorem Sound.localWrite (h : Sound lib state used) (hlib : lib.Collisionless)
    (hwrite : state.write lib scope identifier value none = .ok next) :
    ∃ cleaned, cleanValue (lib.scope scope) identifier value = .ok cleaned ∧
      LocalWrite (lib.scope scope) identifier state.actor
        (state.entity lib scope identifier).record (state.entity lib scope identifier).projected
        (next.entity lib scope identifier).record cleaned ∧
      ∀ counter, (scope, identifier, counter) ∈ used →
        counter < (next.entity lib scope identifier).record.clockAt state.actor := by
  obtain ⟨base, updated, merged, conflict, hwrote⟩ := write_wrote hwrite
  have hprojects : Projects (lib.scope scope) identifier (state.entity lib scope identifier).record
      (state.entity lib scope identifier).projected := h.projects hlib hwrote.entity
  obtain ⟨cleaned, hclean⟩ := hwrote.clean
  have hbase := hwrote.started
  simp only [Entity.base, pure_ok] at hbase
  have hwritten := hwrote.written
  rw [← hbase] at hwritten
  have hlocal := hprojects.localWrite (lib.canonical scope) (hlib.values scope identifier) hclean
    hwritten
    hwrote.joined
  have hrecord : (next.entity lib scope identifier).record = merged := by
    rw [hwrote.result, entity_put hlib, if_pos ⟨rfl, rfl⟩]
  rw [hrecord]
  refine ⟨cleaned, hclean, hlocal, ?_⟩
  intro counter hmem
  have hle := h.used scope identifier counter hmem
  unfold ReadingState.counter at hle
  rw [hlocal.counter]
  omega

/-! ### One merge -/

theorem Sound.mergeRow (h : Sound lib state used) (hlib : lib.Collisionless) {row : Row}
    (hscope : row.scope ∈ SCOPES) (hmerge : state.mergeRow lib row = .ok next) :
    Sound lib next used := by
  simp only [ReadingState.mergeRow, key, bind_ok, require_ok, pure_ok] at hmerge
  obtain ⟨_, ⟨_, hentity, hkey⟩, merged, hmerged, shown, _, heq⟩ := hmerge
  rw [← hkey] at hmerged heq
  have hprojects : Projects (lib.scope row.scope) row.id (state.entity lib row.scope row.id).record
      (state.entity lib row.scope row.id).projected := h.projects hlib hentity
  have hnever : merged.erased = true →
      (state.entity lib row.scope row.id).projected.erased = true := by
    intro herased
    have hvalid := merge_valid (lib.canonical row.scope) hmerged
    have hconversations := (hvalid.erased herased).1
    simp only [Library.scope, syncScope, decide_eq_true_eq] at hconversations
    rw [hconversations] at hscope
    exact absurd hscope (by decide)
  have hprojected : Projects (lib.scope row.scope) row.id merged
      (if shown.conflict = true then (state.entity lib row.scope row.id).projected
        else merged) := by
    split
    · exact hprojects.merge (lib.canonical row.scope) hmerged hnever
    · exact Projects.self (lib.canonical row.scope) hmerged
  have hcounter : state.counter lib row.scope row.id ≤ merged.clockAt state.actor := by
    rw [(merge_iff.mp hmerged).2.2.2, join_clockAt]
    exact Nat.le_max_left _ _
  rw [← heq]
  exact h.put hlib rfl rfl hprojected hcounter

theorem Sound.resolve (h : Sound lib state used) (hlib : lib.Collisionless) {key : String}
    {entity : Entity} (hget : state.entities.get? key = some entity)
    (resolution : Option Resolution) :
    Sound lib
      { state with entities := state.entities.set key { entity with resolution } } used := by
  obtain ⟨hkey, hprojects⟩ := h.entities key entity hget
  have hcounter : state.counter lib entity.scope entity.id ≤ entity.record.clockAt state.actor := by
    unfold ReadingState.counter ReadingState.entity
    rw [← hkey, hget]
    exact Nat.le_refl _
  have hput : Sound lib (state.put lib entity.scope entity.id { entity with resolution }) used :=
    h.put hlib rfl rfl hprojects hcounter
  unfold ReadingState.put at hput
  rw [← hkey] at hput
  exact hput

theorem Reached.sound (hlib : lib.Collisionless) (h : Reached lib state used) :
    Sound lib state used := by
  induction h with
  | created hcreate =>
    simp only [create, bind_ok, pure_ok] at hcreate
    obtain ⟨_, _, heq⟩ := hcreate
    rw [← heq]
    refine ⟨?_, ?_⟩
    · nofun
    · nofun
  | wrote _ hwrite ih => exact ih.write hlib hwrite
  | merged _ hscope hmerge ih => exact ih.mergeRow hlib hscope hmerge
  | resolved _ hget resolution ih => exact ih.resolve hlib hget resolution
  | widened _ selected ih | noted _ failures ih => exact ⟨ih.entities, ih.used⟩

/-! ### Calls -/

/-- A call goes on from a state. -/
def Goes (lib : Library) (used : List Used) (next : ReadingState) : Prop :=
  ∃ further, Reached lib next (further ++ used)

theorem Goes.write (h : Goes lib used state) {expectedRevision : Option String}
    (hwrite : state.write lib scope identifier value expectedRevision = .ok next) :
    Goes lib used next := by
  obtain ⟨further, hreached⟩ := h
  exact ⟨_ :: further, hreached.wrote hwrite⟩

/-- A capture does nothing, or writes to a scope that is selected. -/
theorem capture_ok {row : Json} {expectedRevision : Option String}
    (h : state.capture lib row scope expectedRevision = .ok next) :
    next = state ∨ scope ∈ state.scopes ∧ ∃ item name value written,
      row.get? "item_id" = some item ∧ item.asStr? = some name ∧
      state.write lib scope name (some value) expectedRevision = .ok written ∧
      { written with failures := written.failures.erase (lib.entityKey scope name) } = next := by
  unfold ReadingState.capture at h
  split at h
  · split at h
    · cases h
    · exact .inl (Except.ok.inj h).symm
  · next hscope =>
    simp only [bind_ok, demand_ok, pure_ok] at h
    obtain ⟨item, hget, value, _, name, hname, written, hwrite, heq⟩ := h
    exact .inr ⟨not_not.mp hscope, item, name, value, written, hget, hname, hwrite, heq⟩

theorem Goes.capture (h : Goes lib used state) {row : Json} {expectedRevision : Option String}
    (hcapture : state.capture lib row scope expectedRevision = .ok next) : Goes lib used next := by
  rcases capture_ok hcapture with rfl | ⟨_, _, _, _, _, _, _, hwrite, rfl⟩
  · exact h
  · obtain ⟨further, hreached⟩ := h.write hwrite
    exact ⟨further, hreached.noted _⟩

theorem Goes.captureWanted (h : Goes lib used state) {wanted : Bool} {row : Json}
    (hcapture : state.captureWanted lib wanted row scope = .ok next) : Goes lib used next := by
  unfold ReadingState.captureWanted at hcapture
  split at hcapture
  · exact h.capture hcapture
  · injection hcapture with hcapture
    rw [← hcapture]
    exact h

theorem Goes.captureAdded (h : Goes lib used state) {added : List ScopeName} {row : Json}
    (hcapture : state.captureAdded lib added row = .ok next) : Goes lib used next := by
  simp only [ReadingState.captureAdded, bind_ok] at hcapture
  obtain ⟨bookmarked, hfirst, hsecond⟩ := hcapture
  exact (h.captureWanted hfirst).captureWanted hsecond

theorem Goes.enable (h : Goes lib used state) {actor : String} {selected : List ScopeName}
    {rows : List Json} (henable : state.enable lib actor selected rows = .ok next) :
    Goes lib used next := by
  simp only [ReadingState.enable, bind_ok] at henable
  obtain ⟨_, _, selected, _, hfold⟩ := henable
  have hstart : Goes lib used (state.withScopes selected) := by
    obtain ⟨further, hreached⟩ := h
    exact ⟨further, hreached.widened selected⟩
  exact foldlM_ok_induction (fun _ current => Goes lib used current)
    (fun _ _ _ _ hgoes hstep => hgoes.captureAdded hstep) rows [] _ _ hstart hfold

theorem Goes.clear (h : Goes lib used state) (hclear : state.clear lib = .ok next) :
    Goes lib used next :=
  foldlM_ok_induction (fun _ current => Goes lib used current)
    (fun _ _ _ _ hgoes hstep => hgoes.write hstep) state.entities.values [] _ _ h hclear

theorem Goes.resolve (h : Goes lib used state) {choiceId expectedRevision : String}
    (hresolve : state.resolve lib scope identifier choiceId expectedRevision = .ok next) :
    Goes lib used next := by
  simp only [ReadingState.resolve, bind_ok] at hresolve
  obtain ⟨_, _, key, _, entity, _, shown, _, hchoice⟩ := hresolve
  split at hchoice
  · injection hchoice with hchoice
    rw [← hchoice]
    exact h
  · simp only [ReadingState.resolveChoice, bind_ok, demand_ok, pure_ok] at hchoice
    obtain ⟨_, _, _, _, selected, _, written, hwrite, found, hget, heq⟩ := hchoice
    obtain ⟨further, hreached⟩ := h.write hwrite
    rw [← heq]
    exact ⟨further, hreached.resolved hget _⟩

theorem Goes.mergeRows {selected : List ScopeName} (hselected : ∀ scope ∈ selected, scope ∈ SCOPES)
    {rows : List Row} {seen : List String} (h : Goes lib used state)
    (hmerge : ReadingState.mergeRows lib selected state seen rows = .ok next) :
    Goes lib used next := by
  refine ReadingState.mergeRows_induction h hmerge ?_
  rintro row _ hscope s t ⟨further, hreached⟩ hrow
  exact ⟨further, hreached.merged (hselected _ hscope) hrow⟩

theorem Goes.merge (h : Goes lib used state) {rows : List Row} {selected : List ScopeName}
    {receipts : List RowReceipt} (hmerge : state.merge lib rows selected = .ok (next, receipts)) :
    Goes lib used next := by
  simp only [ReadingState.merge, scopes, bind_ok, require_ok, pure_ok, Prod.mk.injEq] at hmerge
  obtain ⟨selected', ⟨_, ⟨_, hscopes⟩, heq⟩, _, _, merged, hrows, _, _, hnext, _⟩ := hmerge
  rw [← heq] at hrows
  rw [← hnext]
  exact h.mergeRows hscopes hrows

theorem Goes.recordCaptureFailure (h : Goes lib used state) {code : String} {time : Rat}
    (hrecord : state.recordCaptureFailure lib scope identifier code time = .ok next) :
    Goes lib used next := by
  simp only [ReadingState.recordCaptureFailure, bind_ok, pure_ok] at hrecord
  obtain ⟨key, _, heq⟩ := hrecord
  obtain ⟨further, hreached⟩ := h
  rw [← heq]
  exact ⟨further, hreached.noted _⟩

/-- The calls of the owner and of other devices. -/
inductive Call
  | capture (row : Json) (scope : ScopeName) (expectedRevision : Option String)
  | merge (rows : List Row) (selected : List ScopeName)
  | resolve (scope : ScopeName) (identifier choiceId expectedRevision : String)
  | clear
  | enable (actor : String) (selected : List ScopeName) (rows : List Json)
  | recordCaptureFailure (scope : ScopeName) (identifier code : String) (time : Rat)

/-- The state that a call leaves. -/
def ReadingState.call (lib : Library) (state : ReadingState) : Call → Except String ReadingState
  | .capture row scope expectedRevision => state.capture lib row scope expectedRevision
  | .merge rows selected => Prod.fst <$> state.merge lib rows selected
  | .resolve scope identifier choiceId expectedRevision =>
      state.resolve lib scope identifier choiceId expectedRevision
  | .clear => state.clear lib
  | .enable actor selected rows => state.enable lib actor selected rows
  | .recordCaptureFailure scope identifier code time =>
      state.recordCaptureFailure lib scope identifier code time

/-- **Every call** consists of writes and merges. -/
theorem Reached.call (h : Reached lib state used) {call : Call}
    (hcall : state.call lib call = .ok next) : Goes lib used next := by
  have hstart : Goes lib used state := ⟨[], h⟩
  cases call with
  | capture row scope expectedRevision => exact hstart.capture hcall
  | merge rows selected =>
    simp only [ReadingState.call, map_ok] at hcall
    obtain ⟨result, hmerge, heq⟩ := hcall
    rw [← heq]
    exact hstart.merge hmerge
  | resolve scope identifier choiceId expectedRevision => exact hstart.resolve hcall
  | clear => exact hstart.clear hcall
  | enable actor selected rows => exact hstart.enable hcall
  | recordCaptureFailure scope identifier code time => exact hstart.recordCaptureFailure hcall

end Reading
