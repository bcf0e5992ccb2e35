import Rynmesh.AskHistory
import Rynmesh.CausalProjections

/-!
# Local writes to synced conversations

`ConversationState` apart from the runs: which records its writes, merges and
projections lead to.

* `Sound` is what holds of every state: projections are below their records, and
  no counter that was used is above the record's;
* `Reached.sound` is the run lemma, over the steps that calls consist of;
* `Reached.capture`, `Reached.merge` and `Reached.erase` say that they do.
-/

namespace Ask

open Checked Records

variable {p : Platform} {state next : SyncState} {identifier : String}

/-- `erase`. -/
def History.erase (p : Platform) (data : History) (state : SyncState) (identifier : String)
    (expectedRevision : String) : Except String (SyncState × History) := do
  let entity ← demand "sync_revision_conflict" (state.entities.get? identifier)
  require "sync_revision_conflict" (p.recordFingerprint entity.record = expectedRevision)
  if entity.record.erased then return (state, data)
  else do
    let written ← state.write p identifier none true
    data.project p written identifier

/-- `merge`: rows of one batch, each conversation once. -/
def History.merge (p : Platform) (data : History) (state : SyncState)
    (rows : List (String × Record Conversation)) : Except String (SyncState × History) := do
  require "sync_batch_invalid" (rows.map Prod.fst).Nodup
  rows.foldlM (mergeRow p) (state, data)

/-- No two fingerprints collide, and sizes are those of canonical texts. -/
structure Platform.Faithful (p : Platform) : Prop where
  values : Function.Injective p.valueFingerprint
  records : ∀ a b, p.recordFingerprint a = p.recordFingerprint b → a.canonical = b.canonical
  sizes : (scope p).Canonical

/-- An entity, or the one that a write starts. -/
def SyncState.shown (state : SyncState) (identifier : String) : Entity :=
  (state.entities.get? identifier).getD ⟨Records.empty, Records.empty, none, none, false⟩

/-- The own counter in a record. -/
def SyncState.counter (state : SyncState) (identifier : String) : Nat :=
  (state.shown identifier).record.clockAt state.actor

/-- The calls on the records of the conversations, with the history that they find. -/
inductive SyncCall
  | capture (data : History) (seed : Bool)
  | merge (data : History) (rows : List (String × Record Conversation))
  | project (data : History) (identifier : String)
  | erase (data : History) (identifier expectedRevision : String)

/-- The records that a call leaves. -/
def SyncState.call (p : Platform) (state : SyncState) : SyncCall → Except String SyncState
  | .capture data seed =>
      (fun captured => captured.sync.getD state) <$> data.capture p seed state
  | .merge data rows => Prod.fst <$> data.merge p state rows
  | .project data identifier => Prod.fst <$> data.project p state identifier
  | .erase data identifier expectedRevision =>
      Prod.fst <$> data.erase p state identifier expectedRevision

namespace Sync

/-- A counter that a local write of a conversation has used. -/
abbrev Used := String × Nat

variable {used : List Used}

/-! ### Steps -/

/-- The steps that calls consist of, and the counters that the writes used. -/
inductive Reached (p : Platform) : SyncState → List Used → Prop
  | created {actor : String} (restores : Dict String Restore) :
      Reached p ⟨actor, .empty, restores⟩ []
  | wrote {state next : SyncState} {used : List Used} {identifier : String}
      {value : Option Conversation} {erase : Bool} (h : Reached p state used)
      (hwrite : state.write p identifier value erase = .ok next) :
      Reached p next ((identifier, next.counter identifier) :: used)
  | noted {state : SyncState} {used : List Used} {identifier : String} {entity : Entity}
      (h : Reached p state used) (hget : state.entities.get? identifier = some entity)
      (visible localDraft : Option Conversation) (deferred : Bool) :
      Reached p (state.put identifier { entity with visible, localDraft, deferred }) used
  | merged {state next : SyncState} {used : List Used} {data data' : History}
      {row : String × Record Conversation} (h : Reached p state used)
      (hmerge : History.mergeRow p (state, data) row = .ok (next, data')) : Reached p next used
  | projected {state next : SyncState} {used : List Used} {data data' : History}
      {identifier : String} (h : Reached p state used)
      (hproject : data.project p state identifier = .ok (next, data')) : Reached p next used

/-! ### The invariant -/

structure Sound (p : Platform) (state : SyncState) (used : List Used) : Prop where
  entities : ∀ identifier entity, state.entities.get? identifier = some entity →
    Projects (scope p) identifier entity.record entity.projected
  used : ∀ identifier counter, (identifier, counter) ∈ used → counter ≤ state.counter identifier

theorem entity_ok {entity : Entity} (h : state.entity identifier = .ok entity) :
    state.shown identifier = entity := by
  unfold SyncState.entity at h
  unfold SyncState.shown
  cases hget : state.entities.get? identifier with
  | none =>
    rw [hget] at h
    simp only [bind_ok, pure_ok] at h
    obtain ⟨_, _, heq⟩ := h
    exact heq
  | some found =>
    rw [hget] at h
    injection h

theorem Sound.projects (h : Sound p state used) (hp : p.Faithful)
    (hentity : isEntityId identifier = true) :
    Projects (scope p) identifier (state.shown identifier).record
      (state.shown identifier).projected := by
  unfold SyncState.shown
  cases hget : state.entities.get? identifier with
  | none => exact Projects.empty hp.sizes hentity
  | some entity => exact h.entities _ _ hget

/-- One entity is set. -/
structure Sets (state next : SyncState) (identifier : String) (entity : Entity) : Prop where
  actor : next.actor = state.actor
  entities : ∀ other, next.entities.get? other =
    if other = identifier then some entity else state.entities.get? other

theorem Sets.put (state : SyncState) (identifier : String) (entity : Entity) :
    Sets state (state.put identifier entity) identifier entity := by
  refine ⟨rfl, fun other => ?_⟩
  unfold SyncState.put
  rw [Dict.get?_set]

theorem Sets.shown {entity : Entity} (h : Sets state next identifier entity) (other : String) :
    next.shown other = if other = identifier then entity else state.shown other := by
  unfold SyncState.shown
  rw [h.entities]
  split <;> rfl

theorem Sound.sets (h : Sound p state used) {entity : Entity}
    (hsets : Sets state next identifier entity)
    (hprojects : Projects (scope p) identifier entity.record entity.projected)
    (hcounter : state.counter identifier ≤ entity.record.clockAt state.actor) :
    Sound p next used := by
  refine ⟨?_, ?_⟩
  · intro other found hget
    rw [hsets.entities] at hget
    by_cases hother : other = identifier
    · rw [if_pos hother] at hget
      injection hget with hget
      rw [← hget, hother]
      exact hprojects
    · rw [if_neg hother] at hget
      exact h.entities other found hget
  · intro other counter hmem
    have hold := h.used other counter hmem
    unfold SyncState.counter at hold hcounter ⊢
    rw [hsets.shown, hsets.actor]
    by_cases hother : other = identifier
    · rw [if_pos hother]
      rw [hother] at hold
      exact hold.trans hcounter
    · rw [if_neg hother]
      exact hold

/-! ### One write -/

/-- What a write did. -/
structure Wrote (p : Platform) (state next : SyncState) (identifier : String)
    (value : Option Conversation) (erase : Bool) (updated record : Record Conversation) :
    Prop where
  written : Records.write (scope p) identifier ((state.shown identifier).base state.actor erase)
    state.actor value erase = .ok updated
  joined : Records.merge (scope p) identifier (state.shown identifier).record updated = .ok record
  result : next = state.put identifier ((state.shown identifier).wrote record updated value erase)

variable {value : Option Conversation}

theorem write_wrote {erase : Bool} (h : state.write p identifier value erase = .ok next) :
    ∃ updated record, Wrote p state next identifier value erase updated record := by
  simp only [SyncState.write, bind_ok, pure_ok] at h
  obtain ⟨entity, hentity, updated, hwrite, record, hmerge, heq⟩ := h
  have hshown := entity_ok hentity
  rw [← hshown] at hwrite hmerge heq
  exact ⟨updated, record, hwrite, hmerge, heq.symm⟩

section Writes

variable {value : Option Conversation} {erase : Bool} {updated record : Record Conversation}

theorem Wrote.clean (h : Wrote p state next identifier value erase updated record) :
    ∃ cleaned, cleanValue (scope p) identifier value = .ok cleaned := by
  have hwrite := h.written
  simp only [Records.write, bind_ok] at hwrite
  obtain ⟨_, _, _, _, _, _, _, _, cleaned, hclean, _⟩ := hwrite
  exact ⟨cleaned, hclean⟩

theorem Wrote.entity (h : Wrote p state next identifier value erase updated record) :
    isEntityId identifier = true :=
  (merge_iff.mp h.joined).1.1.entity

theorem Wrote.live (h : Wrote p state next identifier value erase updated record)
    (hprojects : Projects (scope p) identifier (state.shown identifier).record
      (state.shown identifier).projected) : (state.shown identifier).record.erased = false := by
  obtain ⟨cleaned, hclean⟩ := h.clean
  obtain ⟨_, hbase⟩ := Records.write_ok hclean h.written
  cases hany : (state.shown identifier).record.erased with
  | false => rfl
  | true =>
    have hprojected := hprojects.erased hany
    cases erase with
    | true =>
      have hsame : (state.shown identifier).base state.actor true =
          (state.shown identifier).record := rfl
      rw [hsame, hany] at hbase
      cases hbase
    | false =>
      have hsame : (state.shown identifier).base state.actor false =
          (state.shown identifier).record.writeBase (state.shown identifier).projected
            state.actor := rfl
      rw [hsame, erased_writeBase, hprojected] at hbase
      cases hbase

theorem Sound.write (h : Sound p state used) (hp : p.Faithful)
    (hwrite : state.write p identifier value erase = .ok next) :
    Sound p next ((identifier, next.counter identifier) :: used) := by
  obtain ⟨updated, record, hwrote⟩ := write_wrote hwrite
  have hprojects := h.projects hp hwrote.entity
  have hjoin := (merge_iff.mp hwrote.joined).2.2.2
  have hlive : record.erased = true → updated.erased = true := by
    intro herased
    rw [hjoin, join_erased, hwrote.live hprojects, Bool.false_or] at herased
    exact herased
  have hsound : Sound p next used := by
    rw [hwrote.result]
    refine h.sets (Sets.put _ _ _) (Projects.of_merged hp.sizes hwrote.joined hlive) ?_
    unfold SyncState.counter Entity.wrote
    rw [hjoin, join_clockAt]
    exact Nat.le_max_left _ _
  refine ⟨hsound.entities, ?_⟩
  intro other counter hmem
  rcases List.mem_cons.mp hmem with heq | hmem
  · injection heq with hid hcount
    rw [hid, hcount]
  · exact hsound.used other counter hmem

end Writes

/-- **An ordinary write** keeps what its projection had not observed. -/
theorem Sound.localWrite (h : Sound p state used) (hp : p.Faithful)
    (hwrite : state.write p identifier value false = .ok next) :
    ∃ cleaned, cleanValue (scope p) identifier value = .ok cleaned ∧
      LocalWrite (scope p) identifier state.actor (state.shown identifier).record
        (state.shown identifier).projected (next.shown identifier).record cleaned ∧
      ∀ counter, (identifier, counter) ∈ used →
        counter < (next.shown identifier).record.clockAt state.actor := by
  obtain ⟨updated, record, hwrote⟩ := write_wrote hwrite
  have hprojects := h.projects hp hwrote.entity
  obtain ⟨cleaned, hclean⟩ := hwrote.clean
  have hlocal := hprojects.localWrite hp.sizes (fun _ _ _ _ heq => hp.values heq) hclean
    hwrote.written
    hwrote.joined
  have hrecord : (next.shown identifier).record = record := by
    rw [hwrote.result, (Sets.put _ _ _).shown, if_pos rfl]
    rfl
  rw [hrecord]
  refine ⟨cleaned, hclean, hlocal, ?_⟩
  intro counter hmem
  have hle := h.used identifier counter hmem
  unfold SyncState.counter at hle
  rw [hlocal.counter]
  omega

/-! ### Merges -/

/-- What a projection leaves of an entity: its record, and the projection unless the record
is projected anew; an erased one is. -/
structure Keeps (entity entity' : Entity) : Prop where
  record : entity'.record = entity.record
  projected : entity'.projected = entity.record ∨
    entity'.projected = entity.projected ∧ entity.record.erased = false

theorem Keeps.projects {record : Record Conversation} {entity entity' : Entity}
    (h : Keeps entity entity') (hrecord : entity.record = record)
    (hself : Projects (scope p) identifier record record)
    (hprojects : record.erased = false → Projects (scope p) identifier record entity.projected) :
    Projects (scope p) identifier entity'.record entity'.projected := by
  rw [h.record, hrecord]
  rcases h.projected with heq | ⟨heq, hlive⟩
  · rw [heq, hrecord]
    exact hself
  · rw [heq]
    rw [hrecord] at hlive
    exact hprojects hlive

theorem projectDeleted_sets {data data' : History} {entity : Entity} {erased : Bool}
    (h : data.projectDeleted p state identifier entity erased = .ok (next, data'))
    (herased : erased = entity.record.erased) :
    ∃ entity', Sets state next identifier entity' ∧ Keeps entity entity' := by
  simp only [History.projectDeleted, bind_ok] at h
  obtain ⟨localDraft, _, h⟩ := h
  split at h
  · next hactive =>
    simp only [pure_ok, Prod.mk.injEq] at h
    rw [← h.1]
    have hlive : entity.record.erased = false := by
      rw [Bool.and_eq_true, Bool.not_eq_true', herased] at hactive
      exact hactive.2
    exact ⟨_, Sets.put _ _ _, rfl, .inr ⟨rfl, hlive⟩⟩
  · simp only [pure_ok, Prod.mk.injEq] at h
    rw [← h.1]
    exact ⟨_, Sets.put _ _ _, rfl, .inl rfl⟩

theorem project_sets {data data' : History}
    (h : data.project p state identifier = .ok (next, data')) :
    Valid (scope p) identifier (state.shown identifier).record ∧
      ((∃ entity', Sets state next identifier entity' ∧ Keeps (state.shown identifier) entity') ∨
        next = state ∧ (state.shown identifier).record.erased = false) := by
  simp only [History.project, bind_ok] at h
  obtain ⟨entity, hentity, shown, hview, h⟩ := h
  rw [entity_ok hentity]
  obtain ⟨hvalid, hshown⟩ := view_parts hview
  have herased : shown.erased = entity.record.erased := by
    rw [hshown, viewed_erased]
  refine ⟨hvalid, ?_⟩
  split at h
  · exact .inl (projectDeleted_sets h herased)
  · next hdeleted =>
    have hlive : entity.record.erased = false := by
      cases hany : entity.record.erased with
      | false => rfl
      | true =>
        rw [hshown, viewed_deleted _ hany] at hdeleted
        exact absurd rfl hdeleted
    split at h
    · simp only [pure_ok, Prod.mk.injEq] at h
      rw [← h.1]
      exact .inl ⟨_, Sets.put _ _ _, rfl, .inr ⟨rfl, hlive⟩⟩
    · split at h
      · simp only [pure_ok, Prod.mk.injEq] at h
        exact .inr ⟨h.1.symm, hlive⟩
      · simp only [bind_ok, pure_ok, Prod.mk.injEq] at h
        obtain ⟨_, _, _, _, visible, _, hnext, _⟩ := h
        rw [← hnext]
        exact .inl ⟨_, Sets.put _ _ _, rfl, .inl rfl⟩

theorem Sound.project (h : Sound p state used) (hp : p.Faithful) {data data' : History}
    (hproject : data.project p state identifier = .ok (next, data')) : Sound p next used := by
  obtain ⟨hvalid, hsets | ⟨heq, _⟩⟩ := project_sets hproject
  · obtain ⟨entity', hsets, hkeeps⟩ := hsets
    have hprojects := h.projects hp hvalid.entity
    refine h.sets hsets (hkeeps.projects rfl hprojects.reflexive fun _ => hprojects) ?_
    rw [hkeeps.record]
    exact Nat.le_refl _
  · rw [heq]
    exact h

theorem Sound.mergeRow (h : Sound p state used) (hp : p.Faithful) {data data' : History}
    {row : String × Record Conversation}
    (hmerge : History.mergeRow p (state, data) row = .ok (next, data')) : Sound p next used := by
  simp only [History.mergeRow, bind_ok] at hmerge
  obtain ⟨_, _, entity, hentity, merged, hmerged, hmerge⟩ := hmerge
  have hshown := entity_ok hentity
  rw [← hshown] at hmerged hmerge
  have hprojects := h.projects hp (merge_iff.mp hmerged).1.1.entity
  have hcounter : state.counter row.1 ≤ merged.clockAt state.actor := by
    rw [(merge_iff.mp hmerged).2.2.2, join_clockAt]
    exact Nat.le_max_left _ _
  have hself := Projects.self hp.sizes hmerged
  have hkeeps : merged.erased = false →
      Projects (scope p) row.1 merged (state.shown row.1).projected := by
    intro hlive
    refine hprojects.merge hp.sizes hmerged ?_
    rw [hlive]
    intro hfalse
    cases hfalse
  split at hmerge
  · next hsame =>
    simp only [pure_ok, Prod.mk.injEq] at hmerge
    rw [← hmerge.1]
    refine h.sets (Sets.put _ _ _) (hprojects.merge hp.sizes hmerged ?_) hcounter
    intro herased
    have hcanonical := congrArg (fun text => text.2.2) (hp.records _ _ hsame)
    exact hprojects.erased (hcanonical.symm.trans herased)
  · have hput := Sets.put state row.1 { state.shown row.1 with record := merged }
    have hstart := hput.shown row.1
    rw [if_pos rfl] at hstart
    obtain ⟨_, hsets | ⟨heq, hlive⟩⟩ := project_sets hmerge
    · rw [hstart] at hsets
      obtain ⟨entity', hsets, hkept⟩ := hsets
      have hboth : Sets state next row.1 entity' := by
        refine ⟨hsets.actor, fun other => ?_⟩
        rw [hsets.entities, hput.entities]
        by_cases hother : other = row.1
        · rw [if_pos hother, if_pos hother]
        · rw [if_neg hother, if_neg hother, if_neg hother]
      refine h.sets hboth (hkept.projects rfl hself hkeeps) ?_
      rw [hkept.record]
      exact hcounter
    · rw [hstart] at hlive
      rw [heq]
      exact h.sets hput (hkeeps hlive) hcounter

theorem Reached.sound (hp : p.Faithful) (h : Reached p state used) : Sound p state used := by
  induction h with
  | created restores =>
    refine ⟨?_, ?_⟩
    · intro identifier entity hget
      cases hget
    · intro identifier counter hmem
      cases hmem
  | wrote _ hwrite ih => exact ih.write hp hwrite
  | noted _ hget visible localDraft deferred ih =>
    have hprojects := ih.entities _ _ hget
    refine ih.sets (Sets.put _ _ _) hprojects ?_
    unfold SyncState.counter SyncState.shown
    rw [hget]
    exact Nat.le_refl _
  | merged _ hmerge ih => exact ih.mergeRow hp hmerge
  | projected _ hproject ih => exact ih.project hp hproject

/-! ### Calls -/

/-- A call goes on from a state. -/
def Goes (p : Platform) (used : List Used) (next : SyncState) : Prop :=
  ∃ further, Reached p next (further ++ used)

theorem Goes.write (h : Goes p used state) {erase : Bool}
    (hwrite : state.write p identifier value erase = .ok next) : Goes p used next := by
  obtain ⟨further, hreached⟩ := h
  exact ⟨_ :: further, hreached.wrote hwrite⟩

theorem write_get {erase : Bool} (h : state.write p identifier value erase = .ok next) :
    (next.entities.get? identifier).isSome = true := by
  obtain ⟨updated, record, hwrote⟩ := write_wrote h
  rw [hwrote.result, (Sets.put _ _ _).entities, if_pos rfl]
  rfl

theorem Goes.follow (h : Goes p used state) (hfollow : state.follow p identifier value = .ok next) :
    Goes p used next ∧ (next.entities.get? identifier).isSome = true := by
  unfold SyncState.follow at hfollow
  split at hfollow
  · next entity hget =>
    split at hfollow
    · injection hfollow with hfollow
      rw [← hfollow, hget]
      exact ⟨h, rfl⟩
    · exact ⟨h.write hfollow, write_get hfollow⟩
  · exact ⟨h.write hfollow, write_get hfollow⟩

theorem Goes.captureOne {runs : Dict String RunRecord} {seed : Bool}
    {current result : SyncState × Dict String Conversation} {item : String × Conversation}
    (h : Goes p used current.1)
    (hcapture : SyncState.captureOne p runs seed current item = .ok result) :
    Goes p used result.1 := by
  unfold SyncState.captureOne at hcapture
  split at hcapture
  · injection hcapture with hcapture
    rw [← hcapture]
    exact h
  · simp only [bind_ok] at hcapture
    obtain ⟨value, _, followed, hfollow, entity, hentity, shown, _, hcapture⟩ := hcapture
    obtain ⟨hgoes, hsome⟩ := h.follow hfollow
    have hget : followed.entities.get? item.1 = some entity := by
      have hshown := entity_ok hentity
      unfold SyncState.shown at hshown
      cases hget : followed.entities.get? item.1 with
      | none => rw [hget] at hsome; cases hsome
      | some found =>
        rw [hget] at hshown
        exact congrArg some hshown
    obtain ⟨further, hreached⟩ := hgoes
    split at hcapture
    · simp only [pure_ok] at hcapture
      rw [← hcapture]
      exact ⟨further, hreached⟩
    · split at hcapture
      · simp only [pure_ok] at hcapture
        rw [← hcapture]
        exact ⟨further, hreached.noted hget none entity.localDraft false⟩
      · simp only [pure_ok] at hcapture
        rw [← hcapture]
        exact ⟨further, hreached.noted hget entity.visible entity.localDraft false⟩

theorem Goes.captureTombstone {conversations : Dict String Conversation}
    {item : String × Tombstone} (h : Goes p used state)
    (hcapture : SyncState.captureTombstone p conversations state item = .ok next) :
    Goes p used next := by
  have hsame : ∀ {result : SyncState}, (.ok state : Except String SyncState) = .ok result →
      Goes p used result := by
    intro result heq
    injection heq with heq
    rw [← heq]
    exact h
  unfold SyncState.captureTombstone at hcapture
  split at hcapture
  · exact hsame hcapture
  · split at hcapture
    · split at hcapture
      · split at hcapture
        · exact hsame hcapture
        · exact h.write hcapture
      · exact h.write hcapture
    · split at hcapture
      · split at hcapture
        · exact hsame hcapture
        · exact h.write hcapture
      · exact h.write hcapture

/-- **Every call** consists of writes, merges and projections. -/
theorem Reached.call (h : Reached p state used) {call : SyncCall}
    (hcall : state.call p call = .ok next) : Goes p used next := by
  have hstart : Goes p used state := ⟨[], h⟩
  cases call with
  | capture data seed =>
    simp only [SyncState.call, History.capture, map_ok, bind_ok, pure_ok] at hcall
    obtain ⟨result, ⟨captured, hcaptured, last, hlast, heq⟩, hnext⟩ := hcall
    have hfirst : Goes p used captured.1 :=
      foldlM_ok_induction (fun _ current => Goes p used current.1)
        (fun _ _ _ _ hgoes hstep => hgoes.captureOne hstep) _ [] _ _ hstart hcaptured
    have hsecond : Goes p used last :=
      foldlM_ok_induction (fun _ current => Goes p used current)
        (fun _ _ _ _ hgoes hstep => hgoes.captureTombstone hstep) _ [] _ _ hfirst hlast
    rw [← hnext, ← heq]
    exact hsecond
  | merge data rows =>
    simp only [SyncState.call, History.merge, map_ok, bind_ok] at hcall
    obtain ⟨result, ⟨_, _, hfold⟩, hnext⟩ := hcall
    rw [← hnext]
    refine foldlM_ok_induction (fun _ current => Goes p used current.1) ?_ rows [] _ _ hstart
      hfold
    intro _ current row after hgoes hstep
    obtain ⟨further, hreached⟩ := hgoes
    exact ⟨further, hreached.merged hstep⟩
  | project data identifier =>
    simp only [SyncState.call, map_ok] at hcall
    obtain ⟨result, hproject, hnext⟩ := hcall
    rw [← hnext]
    exact ⟨[], h.projected hproject⟩
  | erase data identifier expectedRevision =>
    simp only [SyncState.call, History.erase, map_ok, bind_ok] at hcall
    obtain ⟨result, ⟨entity, _, _, _, herase⟩, hnext⟩ := hcall
    rw [← hnext]
    split at herase
    · simp only [pure_ok] at herase
      rw [← herase]
      exact hstart
    · simp only [bind_ok] at herase
      obtain ⟨written, hwrite, hproject⟩ := herase
      obtain ⟨further, hreached⟩ := hstart.write hwrite
      exact ⟨further, hreached.projected hproject⟩

end Sync

end Ask
