import Rynmesh.LocalWrites

/-!
# Erased conversations stay erased

The text of a conversation is in four places: its row, the visible copy, a local
draft and the record.  `Gone` says that the last three are empty, and `Erases`
what a piece of a call does about the row: where a record is erased afterwards
the row is gone, unless the record was erased before and the row was left as the
caller had it.

A capture cannot write to an erased record, because the projection that a write
starts from is erased too.
-/

namespace Ask

open Checked Records

variable {p : Platform} {state next : SyncState} {identifier : String}

/-- The rows that `export` hands to other devices. -/
def SyncState.export (state : SyncState) : List (String × Record Conversation) :=
  state.entities.entries.map fun entry => (entry.1, entry.2.record)

/-- The history that a call finds. -/
def SyncCall.data : SyncCall → History
  | .capture data _ => data
  | .merge data _ => data
  | .project data _ => data
  | .erase data _ _ => data

/-- The records and the history that a call leaves. -/
def SyncState.outcome (p : Platform) (state : SyncState) :
    SyncCall → Except String (SyncState × History)
  | .capture data seed =>
      (fun captured => (captured.sync.getD state, captured)) <$> data.capture p seed state
  | .merge data rows => data.merge p state rows
  | .project data identifier => data.project p state identifier
  | .erase data identifier expectedRevision => data.erase p state identifier expectedRevision

namespace Sync

/-- The record of the conversation is erased. -/
def Erased (state : SyncState) (identifier : String) : Prop :=
  (state.shown identifier).record.erased = true

/-- Nothing is left of a conversation. -/
structure Gone (state : SyncState) (identifier : String) : Prop where
  erased : Erased state identifier
  heads : (state.shown identifier).record.heads = []
  visible : (state.shown identifier).visible = none
  localDraft : (state.shown identifier).localDraft = none

/-- What every state keeps. -/
structure Wiped (p : Platform) (state : SyncState) : Prop where
  sound : ∃ used, Sound p state used
  gone : ∀ identifier, Erased state identifier → Gone state identifier

/-- What a piece of a call does to the records and the rows. -/
structure Erases (p : Platform) (state next : SyncState)
    (rows rows' : Dict String Conversation) : Prop where
  wiped : Wiped p next
  stays : ∀ identifier, Erased state identifier → Erased next identifier
  rows : ∀ identifier, Erased next identifier →
    rows'.get? identifier = none ∨
      Erased state identifier ∧ rows'.get? identifier = rows.get? identifier

section

variable {rows rows' rows'' : Dict String Conversation}

theorem Erases.refl (h : Wiped p state) : Erases p state state rows rows :=
  ⟨h, fun _ herased => herased, fun _ herased => .inr ⟨herased, rfl⟩⟩

theorem Erases.trans {last : SyncState} (h : Erases p state next rows rows')
    (h' : Erases p next last rows' rows'') : Erases p state last rows rows'' := by
  refine ⟨h'.wiped, fun other herased => h'.stays other (h.stays other herased), ?_⟩
  intro other herased
  rcases h'.rows other herased with hnone | ⟨hbefore, hsame⟩
  · exact .inl hnone
  · rcases h.rows other hbefore with hnone | ⟨hfirst, heq⟩
    · exact .inl (hsame.trans hnone)
    · exact .inr ⟨hfirst, hsame.trans heq⟩

/-! ### One entity -/

theorem Sets.erased {entity : Entity} (h : Sets state next identifier entity) (other : String) :
    Erased next other ↔
      if other = identifier then entity.record.erased = true else Erased state other := by
  unfold Erased
  rw [h.shown]
  split <;> exact Iff.rfl

theorem Wiped.sets (h : Wiped p state) {entity : Entity} {used : List Used}
    (hsets : Sets state next identifier entity) (hsound : Sound p next used)
    (hgone : entity.record.erased = true →
      entity.record.heads = [] ∧ entity.visible = none ∧ entity.localDraft = none) :
    Wiped p next := by
  refine ⟨⟨used, hsound⟩, ?_⟩
  intro other herased
  have hbefore := (hsets.erased other).mp herased
  by_cases hother : other = identifier
  · rw [if_pos hother] at hbefore
    obtain ⟨hheads, hvisible, hdraft⟩ := hgone hbefore
    have hshown : next.shown other = entity := by rw [hsets.shown, if_pos hother]
    exact ⟨herased, by rw [hshown, hheads], by rw [hshown, hvisible], by rw [hshown, hdraft]⟩
  · rw [if_neg hother] at hbefore
    have hshown : next.shown other = state.shown other := by rw [hsets.shown, if_neg hother]
    obtain ⟨_, hheads, hvisible, hdraft⟩ := h.gone other hbefore
    exact ⟨herased, by rw [hshown, hheads], by rw [hshown, hvisible], by rw [hshown, hdraft]⟩

theorem Erases.sets (h : Wiped p state) {entity : Entity} {used : List Used}
    (hsets : Sets state next identifier entity) (hsound : Sound p next used)
    (hgone : entity.record.erased = true →
      entity.record.heads = [] ∧ entity.visible = none ∧ entity.localDraft = none)
    (hstays : Erased state identifier → entity.record.erased = true)
    (hothers : ∀ other, other ≠ identifier → rows'.get? other = rows.get? other)
    (hrow : entity.record.erased = true → rows'.get? identifier = none ∨
      Erased state identifier ∧ rows'.get? identifier = rows.get? identifier) :
    Erases p state next rows rows' := by
  refine ⟨h.sets hsets hsound hgone, ?_, ?_⟩
  · intro other herased
    rw [hsets.erased]
    by_cases hother : other = identifier
    · rw [if_pos hother]
      rw [hother] at herased
      exact hstays herased
    · rw [if_neg hother]
      exact herased
  · intro other herased
    rw [hsets.erased] at herased
    by_cases hother : other = identifier
    · rw [if_pos hother] at herased
      rw [hother]
      exact hrow herased
    · rw [if_neg hother] at herased
      exact .inr ⟨herased, hothers other hother⟩

/-! ### Writes -/

theorem Wiped.write (rows : Dict String Conversation) (h : Wiped p state) (hp : p.Faithful)
    {value : Option Conversation} {erase : Bool}
    (hwrite : state.write p identifier value erase = .ok next)
    (hvalue : erase = true → value = none) (hrow : erase = true → rows.get? identifier = none) :
    Erases p state next rows rows ∧ ¬ Erased state identifier ∧
      (Erased next identifier ↔ erase = true) := by
  obtain ⟨used, hsound⟩ := h.sound
  obtain ⟨updated, record, hwrote⟩ := write_wrote hwrite
  have hlive := hwrote.live (hsound.projects hp hwrote.entity)
  obtain ⟨cleaned, hclean⟩ := hwrote.clean
  have hupdated : updated.erased = erase := by
    rw [(Records.write_ok hclean hwrote.written).1]
    rfl
  have hjoin := (merge_iff.mp hwrote.joined).2.2.2
  have herased : record.erased = erase := by
    rw [hjoin, join_erased, hlive, Bool.false_or, hupdated]
  have hsets : Sets state next identifier
      ((state.shown identifier).wrote record updated value erase) := by
    rw [hwrote.result]
    exact Sets.put _ _ _
  have hnot : ¬ Erased state identifier := by
    unfold Erased
    rw [hlive]
    decide
  refine ⟨Erases.sets h hsets (hsound.write hp hwrite) ?_ (fun hbefore => absurd hbefore hnot)
    (fun _ _ => rfl) ?_, hnot, ?_⟩
  · intro hrecord
    have hrecord : record.erased = true := hrecord
    rw [herased] at hrecord
    subst hrecord
    refine ⟨?_, hvalue rfl, rfl⟩
    have hheads : ((state.shown identifier).record.join updated).heads = [] := by
      refine join_heads_erased ?_
      rw [← hjoin, herased]
    show record.heads = []
    rw [hjoin, hheads]
  · intro hrecord
    exact .inl (hrow (herased ▸ hrecord))
  · rw [hsets.erased, if_pos rfl]
    show record.erased = true ↔ _
    rw [herased]

theorem Wiped.noted (h : Wiped p state) {entity entity' : Entity}
    (hget : state.entities.get? identifier = some entity)
    (hrecord : entity'.record = entity.record) (hprojected : entity'.projected = entity.projected)
    (hvisible : entity'.visible = none ∨ entity'.visible = entity.visible)
    (hdraft : entity'.localDraft = entity.localDraft)
    (hothers : ∀ other, other ≠ identifier → rows'.get? other = rows.get? other)
    (hrow : rows'.get? identifier = none ∨ rows'.get? identifier = rows.get? identifier) :
    Erases p state (state.put identifier entity') rows rows' := by
  obtain ⟨used, hsound⟩ := h.sound
  have hshown : state.shown identifier = entity := by
    unfold SyncState.shown
    rw [hget]
    rfl
  have hsame : entity'.record.erased = true ↔ Erased state identifier := by
    unfold Erased
    rw [hshown, hrecord]
  have hsound' : Sound p (state.put identifier entity') used := by
    refine hsound.sets (Sets.put _ _ _) ?_ ?_
    · rw [hrecord, hprojected]
      exact hsound.entities _ _ hget
    · unfold SyncState.counter
      rw [hshown, hrecord]
  refine Erases.sets h (Sets.put _ _ _) hsound' ?_ hsame.mpr hothers ?_
  · intro herased
    obtain ⟨_, hheads, hnone, hempty⟩ := h.gone identifier (hsame.mp herased)
    rw [hshown] at hheads hnone hempty
    refine ⟨by rw [hrecord, hheads], ?_, by rw [hdraft, hempty]⟩
    rcases hvisible with hv | hv
    · exact hv
    · rw [hv, hnone]
  · intro herased
    rcases hrow with hnone | heq
    · exact .inl hnone
    · exact .inr ⟨hsame.mp herased, heq⟩

/-! ### Captures -/

theorem Wiped.follow (rows : Dict String Conversation) (h : Wiped p state) (hp : p.Faithful)
    {value : Conversation} (hfollow : state.follow p identifier (some value) = .ok next) :
    Erases p state next rows rows ∧ ¬ Erased next identifier := by
  have hwrite : ∀ {after : SyncState},
      state.write p identifier (some value) false = .ok after →
        Erases p state after rows rows ∧ ¬ Erased after identifier := by
    intro after hwrite
    have hno : ∀ {q : Prop}, (false = true) → q := nofun
    obtain ⟨herases, _, hiff⟩ := h.write rows hp hwrite hno hno
    refine ⟨herases, ?_⟩
    rw [hiff]
    decide
  unfold SyncState.follow at hfollow
  split at hfollow
  · next entity hget =>
    split at hfollow
    · next hsame =>
      injection hfollow with hfollow
      rw [← hfollow]
      refine ⟨.refl h, fun herased => ?_⟩
      have hvisible := (h.gone identifier herased).visible
      unfold SyncState.shown at hvisible
      rw [hget] at hvisible
      have hvalue := hp.values hsame
      rw [show entity.visible = none from hvisible] at hvalue
      cases hvalue
    · exact hwrite hfollow
  · exact hwrite hfollow

theorem follow_get {value : Option Conversation}
    (hfollow : state.follow p identifier value = .ok next) :
    (next.entities.get? identifier).isSome = true := by
  unfold SyncState.follow at hfollow
  split at hfollow
  · next entity hget =>
    split at hfollow
    · injection hfollow with hfollow
      rw [← hfollow, hget]
      rfl
    · exact write_get hfollow
  · exact write_get hfollow

theorem Wiped.captureOne {runs : Dict String RunRecord} {seed : Bool}
    {current result : SyncState × Dict String Conversation} {item : String × Conversation}
    (h : Wiped p current.1) (hp : p.Faithful)
    (hcapture : SyncState.captureOne p runs seed current item = .ok result) :
    Erases p current.1 result.1 current.2 result.2 := by
  unfold SyncState.captureOne at hcapture
  split at hcapture
  · injection hcapture with hcapture
    rw [← hcapture]
    exact .refl h
  · simp only [bind_ok] at hcapture
    obtain ⟨value, hclean, followed, hfollow, entity, hentity, shown, _, hcapture⟩ := hcapture
    obtain ⟨cleaned, _, hvalue⟩ := map_ok.mp hclean
    rw [← hvalue] at hfollow
    obtain ⟨herases, _⟩ := h.follow current.2 hp hfollow
    have hget : followed.entities.get? item.1 = some entity := by
      have hsome := follow_get hfollow
      have hshown := entity_ok hentity
      unfold SyncState.shown at hshown
      cases hget : followed.entities.get? item.1 with
      | none => rw [hget] at hsome; cases hsome
      | some found =>
        rw [hget] at hshown
        exact congrArg some hshown
    split at hcapture
    · simp only [pure_ok] at hcapture
      rw [← hcapture]
      exact herases
    · split at hcapture
      · simp only [pure_ok] at hcapture
        rw [← hcapture]
        refine herases.trans (herases.wiped.noted hget rfl rfl (.inl rfl) rfl ?_ (.inl ?_))
        · intro other hother
          rw [Dict.get?_erase, if_neg hother]
        · rw [Dict.get?_erase, if_pos rfl]
      · simp only [pure_ok] at hcapture
        rw [← hcapture]
        exact herases.trans
          (herases.wiped.noted hget rfl rfl (.inr rfl) rfl (fun _ _ => rfl) (.inr rfl))

theorem Wiped.captureTombstone {conversations : Dict String Conversation}
    {item : String × Tombstone} (h : Wiped p state) (hp : p.Faithful)
    (hcapture : SyncState.captureTombstone p conversations state item = .ok next) :
    Erases p state next conversations conversations ∧
      (item.2.privacyErased = true → conversations.get? item.1 = none → Erased next item.1) := by
  have hno : ∀ {q : Prop}, (false = true) → q := nofun
  unfold SyncState.captureTombstone at hcapture
  split at hcapture
  · next hrow =>
    injection hcapture with hcapture
    rw [← hcapture]
    refine ⟨.refl h, fun _ hnone => ?_⟩
    rw [hnone] at hrow
    cases hrow
  · next hrow =>
    have hnone : conversations.get? item.1 = none := by
      rw [Bool.not_eq_true, Option.isSome_eq_false_iff, Option.isNone_iff_eq_none] at hrow
      exact hrow
    have herase : state.write p item.1 none true = .ok next →
        Erases p state next conversations conversations ∧ Erased next item.1 := by
      intro hwrite
      obtain ⟨herases, _, hiff⟩ := h.write conversations hp hwrite (fun _ => rfl)
        fun _ => hnone
      exact ⟨herases, hiff.mpr rfl⟩
    have hplain : state.write p item.1 none false = .ok next →
        Erases p state next conversations conversations :=
      fun hwrite => (h.write _ hp hwrite hno hno).1
    split at hcapture
    · split at hcapture
      · next entity hget =>
        split at hcapture
        · next herased =>
          injection hcapture with hcapture
          rw [← hcapture]
          refine ⟨.refl h, fun _ _ => ?_⟩
          unfold Erased SyncState.shown
          rw [hget]
          exact herased
        · exact ⟨(herase hcapture).1, fun _ _ => (herase hcapture).2⟩
      · exact ⟨(herase hcapture).1, fun _ _ => (herase hcapture).2⟩
    · next hprivacy =>
      refine ⟨?_, fun htrue => absurd htrue hprivacy⟩
      split at hcapture
      · split at hcapture
        · injection hcapture with hcapture
          rw [← hcapture]
          exact .refl h
        · exact hplain hcapture
      · exact hplain hcapture

theorem Wiped.capture {data captured : History} {seed : Bool} (h : Wiped p state)
    (hp : p.Faithful) (hcapture : data.capture p seed state = .ok captured) :
    ∃ next, captured.sync = some next ∧
      Erases p state next data.conversations captured.conversations ∧
      ∀ item ∈ data.tombstones.entries, item.2.privacyErased = true →
        captured.conversations.get? item.1 = none → Erased next item.1 := by
  simp only [History.capture, bind_ok, pure_ok] at hcapture
  obtain ⟨first, hfirst, last, hlast, heq⟩ := hcapture
  have hrows : Erases p state first.1 data.conversations first.2 :=
    foldlM_ok_induction (fun _ (current : SyncState × Dict String Conversation) =>
        Erases p state current.1 data.conversations current.2)
      (fun _ _ _ _ herases hstep => herases.trans (herases.wiped.captureOne hp hstep)) _ [] _ _
      (.refl h) hfirst
  have htombstones : Erases p first.1 last first.2 first.2 ∧
      ∀ item ∈ [] ++ data.tombstones.entries, item.2.privacyErased = true →
        first.2.get? item.1 = none → Erased last item.1 := by
    refine foldlM_ok_induction (fun done current => Erases p first.1 current first.2 first.2 ∧
        ∀ item ∈ done, item.2.privacyErased = true → first.2.get? item.1 = none →
          Erased current item.1) ?_ data.tombstones.entries [] _ _
      ⟨.refl hrows.wiped, fun item hitem => by cases hitem⟩ hlast
    intro done current item after hdone hstep
    obtain ⟨herases, hprivacy⟩ := hdone.1.wiped.captureTombstone hp hstep
    refine ⟨hdone.1.trans herases, fun other hother hprivate hnone => ?_⟩
    rcases List.mem_append.mp hother with hold | hnew
    · exact herases.stays other.1 (hdone.2 other hold hprivate hnone)
    · rw [List.mem_singleton.mp hnew] at hprivate hnone ⊢
      exact hprivacy hprivate hnone
  rw [← heq]
  exact ⟨last, rfl, hrows.trans htombstones.1, htombstones.2⟩

/-! ### Projections and merges -/

/-- What a projection does to the entity and the rows. -/
structure Projected (state next : SyncState) (identifier : String)
    (rows rows' : Dict String Conversation) : Prop where
  erased : Erased state identifier →
    Sets state next identifier
      { state.shown identifier with
        localDraft := none, visible := none, projected := (state.shown identifier).record
        deferred := false } ∧
    rows'.get? identifier = none
  live : ¬ Erased state identifier → next = state ∨
    ∃ entity, Sets state next identifier entity ∧
      entity.record = (state.shown identifier).record
  others : ∀ other, other ≠ identifier → rows'.get? other = rows.get? other

theorem bump_others (data : History) {other : String} (h : other ≠ identifier) :
    (data.bump identifier).conversations.get? other = data.conversations.get? other := by
  unfold History.bump
  split
  · exact Dict.get?_set_ne _ _ h
  · rfl

theorem projectDeleted_projected {data data' : History} {erased : Bool}
    (h : data.projectDeleted p state identifier (state.shown identifier) erased =
      .ok (next, data')) (herased : erased = (state.shown identifier).record.erased) :
    Projected state next identifier data.conversations data'.conversations := by
  simp only [History.projectDeleted, bind_ok] at h
  obtain ⟨localDraft, hdraft, h⟩ := h
  split at h
  · next hactive =>
    simp only [pure_ok, Prod.mk.injEq] at h
    have hlive : ¬ Erased state identifier := by
      rw [Bool.and_eq_true, Bool.not_eq_true', herased] at hactive
      unfold Erased
      rw [hactive.2]
      decide
    rw [← h.1, ← h.2]
    refine ⟨fun hbefore => absurd hbefore hlive, fun _ => .inr ⟨_, Sets.put _ _ _, rfl⟩, ?_⟩
    intro other hother
    exact bump_others _ hother
  · simp only [pure_ok, Prod.mk.injEq] at h
    rw [← h.1, ← h.2]
    refine ⟨?_, fun _ => .inr ⟨_, Sets.put _ _ _, rfl⟩, ?_⟩
    · intro hbefore
      have htrue : erased = true := herased.trans hbefore
      rw [htrue, History.keptDraft, if_pos rfl] at hdraft
      injection hdraft with hdraft
      rw [← hdraft]
      refine ⟨Sets.put _ _ _, ?_⟩
      show (data.conversations.erase identifier).get? identifier = none
      rw [Dict.get?_erase, if_pos rfl]
    · intro other hother
      show (data.conversations.erase identifier).get? other = _
      rw [Dict.get?_erase, if_neg hother]

theorem project_projected {data data' : History}
    (h : data.project p state identifier = .ok (next, data')) :
    Projected state next identifier data.conversations data'.conversations := by
  simp only [History.project, bind_ok] at h
  obtain ⟨entity, hentity, shown, hview, h⟩ := h
  rw [← entity_ok hentity] at hview h
  obtain ⟨_, hshown⟩ := view_parts hview
  have herased : shown.erased = (state.shown identifier).record.erased := by
    rw [hshown, viewed_erased]
  split at h
  · exact projectDeleted_projected h herased
  · next hdeleted =>
    have hlive : ¬ Erased state identifier := by
      intro hany
      rw [hshown, viewed_deleted _ hany] at hdeleted
      exact hdeleted rfl
    split at h
    · simp only [pure_ok, Prod.mk.injEq] at h
      rw [← h.1, ← h.2]
      exact ⟨fun hbefore => absurd hbefore hlive, fun _ => .inr ⟨_, Sets.put _ _ _, rfl⟩,
        fun other hother => bump_others _ hother⟩
    · split at h
      · simp only [pure_ok, Prod.mk.injEq] at h
        rw [← h.1, ← h.2]
        exact ⟨fun hbefore => absurd hbefore hlive, fun _ => .inl rfl, fun _ _ => rfl⟩
      · simp only [bind_ok, pure_ok, Prod.mk.injEq] at h
        obtain ⟨_, _, _, _, visible, _, hnext, hdata⟩ := h
        rw [← hnext, ← hdata]
        exact ⟨fun hbefore => absurd hbefore hlive, fun _ => .inr ⟨_, Sets.put _ _ _, rfl⟩,
          fun other hother => Dict.get?_set_ne _ _ hother⟩

/-- **A projection** removes the row of an erased conversation. -/
theorem Wiped.project {data data' : History} (h : Wiped p state) (hp : p.Faithful)
    (hproject : data.project p state identifier = .ok (next, data')) :
    Erases p state next data.conversations data'.conversations ∧
      (Erased next identifier → data'.conversations.get? identifier = none) := by
  obtain ⟨used, hsound⟩ := h.sound
  have hprojected := project_projected hproject
  have hnext := hsound.project hp hproject
  by_cases herased : Erased state identifier
  · obtain ⟨hsets, hrow⟩ := hprojected.erased herased
    have hheads := (h.gone identifier herased).heads
    exact ⟨.sets h hsets hnext (fun _ => ⟨hheads, rfl, rfl⟩) id hprojected.others
      (fun _ => .inl hrow), fun _ => hrow⟩
  rcases hprojected.live herased with heq | ⟨entity, hsets, hrecord⟩
  · rw [heq]
    refine ⟨⟨h, fun _ hother => hother, fun other hother => .inr ⟨hother, ?_⟩⟩,
      fun hbefore => absurd hbefore herased⟩
    refine hprojected.others other fun hsame => herased ?_
    rw [← hsame]
    exact hother
  · have hlive : ¬ entity.record.erased = true := by
      rw [hrecord]
      exact herased
    refine ⟨.sets h hsets hnext (fun hnow => absurd hnow hlive)
      (fun hbefore => absurd hbefore herased) hprojected.others
      (fun hnow => absurd hnow hlive), fun hnow => ?_⟩
    rw [hsets.erased, if_pos rfl] at hnow
    exact absurd hnow hlive

theorem Wiped.mergeRow {data data' : History} {row : String × Record Conversation}
    (h : Wiped p state) (hp : p.Faithful)
    (hmerge : History.mergeRow p (state, data) row = .ok (next, data')) :
    Erases p state next data.conversations data'.conversations ∧
      (row.2.erased = true → Erased next row.1) := by
  obtain ⟨used, hsound⟩ := h.sound
  have hnext := hsound.mergeRow hp hmerge
  simp only [History.mergeRow, bind_ok] at hmerge
  obtain ⟨_, _, entity, hentity, merged, hmerged, hmerge⟩ := hmerge
  rw [← entity_ok hentity] at hmerged hmerge
  have hjoin := (merge_iff.mp hmerged).2.2.2
  have herased : merged.erased = ((state.shown row.1).record.erased || row.2.erased) := by
    rw [hjoin, join_erased]
  have hheads : merged.erased = true → merged.heads = [] := by
    intro hmerged
    rw [hjoin] at hmerged ⊢
    exact join_heads_erased hmerged
  have hstays : Erased state row.1 → merged.erased = true := by
    intro hbefore
    rw [herased, show (state.shown row.1).record.erased = true from hbefore, Bool.true_or]
  have hrow : row.2.erased = true → merged.erased = true := by
    intro hrow
    rw [herased, hrow, Bool.or_true]
  split at hmerge
  · next hsame =>
    simp only [pure_ok, Prod.mk.injEq] at hmerge
    have hcanonical : merged.erased = (state.shown row.1).record.erased :=
      congrArg (fun text => text.2.2) (hp.records _ _ hsame)
    rw [← hmerge.1] at hnext ⊢
    rw [← hmerge.2]
    have hbefore : merged.erased = true → Erased state row.1 := fun hnow =>
      hcanonical.symm.trans hnow
    refine ⟨.sets h (Sets.put _ _ _) hnext ?_ hstays (fun _ _ => rfl)
      (fun hnow => .inr ⟨hbefore hnow, rfl⟩), ?_⟩
    · intro hnow
      obtain ⟨_, _, hvisible, hdraft⟩ := h.gone row.1 (hbefore hnow)
      exact ⟨hheads hnow, hvisible, hdraft⟩
    · intro hother
      rw [(Sets.put _ _ _).erased, if_pos rfl]
      exact hrow hother
  · have hput := Sets.put state row.1 { state.shown row.1 with record := merged }
    have hstart := hput.shown row.1
    rw [if_pos rfl] at hstart
    have hstarted := hput.erased row.1
    rw [if_pos rfl] at hstarted
    have hprojected := project_projected hmerge
    have hagain : ∀ {entity : Entity},
        Sets (state.put row.1 { state.shown row.1 with record := merged }) next row.1 entity →
          Sets state next row.1 entity := by
      intro entity hsets
      refine ⟨hsets.actor, fun other => ?_⟩
      rw [hsets.entities, hput.entities]
      by_cases hother : other = row.1
      · rw [if_pos hother, if_pos hother]
      · rw [if_neg hother, if_neg hother, if_neg hother]
    by_cases hnow : merged.erased = true
    · obtain ⟨hsets, hgone⟩ := hprojected.erased (hstarted.mpr hnow)
      rw [hstart] at hsets
      refine ⟨.sets h (hagain hsets) hnext (fun _ => ⟨hheads hnow, rfl, rfl⟩) (fun _ => hnow)
        hprojected.others (fun _ => .inl hgone), fun _ => ?_⟩
      rw [(hagain hsets).erased, if_pos rfl]
      exact hnow
    · have hlive : ¬ Erased state row.1 := fun hbefore => hnow (hstays hbefore)
      have hsets : ∃ entity, Sets state next row.1 entity ∧ entity.record = merged := by
        rcases hprojected.live (fun hbefore => hnow (hstarted.mp hbefore)) with heq |
          ⟨entity, hsets, hrecord⟩
        · rw [heq]
          exact ⟨_, hput, rfl⟩
        · rw [hstart] at hrecord
          exact ⟨entity, hagain hsets, hrecord⟩
      obtain ⟨entity, hsets, hrecord⟩ := hsets
      rw [← hrecord] at hnow
      exact ⟨.sets h hsets hnext (fun hafter => absurd hafter hnow)
        (fun hbefore => absurd hbefore hlive) hprojected.others
        (fun hafter => absurd hafter hnow),
        fun hother => absurd (hrecord ▸ hrow hother) hnow⟩

theorem Wiped.merge {data data' : History} {merged : List (String × Record Conversation)}
    (h : Wiped p state) (hp : p.Faithful)
    (hmerge : data.merge p state merged = .ok (next, data')) :
    Erases p state next data.conversations data'.conversations ∧
      ∀ row ∈ merged, row.2.erased = true → Erased next row.1 := by
  simp only [History.merge, bind_ok] at hmerge
  obtain ⟨_, _, hfold⟩ := hmerge
  refine foldlM_ok_induction (fun done (current : SyncState × History) =>
      Erases p state current.1 data.conversations current.2.conversations ∧
        ∀ row ∈ done, row.2.erased = true → Erased current.1 row.1) ?_ merged [] _ _
    ⟨.refl h, fun row hrow => by cases hrow⟩ hfold
  intro done current row after hdone hstep
  obtain ⟨herases, herased⟩ := hdone.1.wiped.mergeRow hp hstep
  refine ⟨hdone.1.trans herases, fun other hother hrow => ?_⟩
  rcases List.mem_append.mp hother with hold | hnew
  · exact herases.stays other.1 (hdone.2 other hold hrow)
  · rw [List.mem_singleton.mp hnew] at hrow ⊢
    exact herased hrow

/-- The write of an erasure, with the projection that follows it. -/
theorem Wiped.erase {data data' : History} {expectedRevision : String} (h : Wiped p state)
    (hp : p.Faithful)
    (herase : data.erase p state identifier expectedRevision = .ok (next, data')) :
    Erases p state next data.conversations data'.conversations ∧ Erased next identifier := by
  simp only [History.erase, bind_ok, demand_ok] at herase
  obtain ⟨entity, hget, _, _, herase⟩ := herase
  split at herase
  · next herased =>
    simp only [pure_ok, Prod.mk.injEq] at herase
    rw [← herase.1, ← herase.2]
    refine ⟨.refl h, ?_⟩
    unfold Erased SyncState.shown
    rw [hget]
    exact herased
  · simp only [bind_ok] at herase
    obtain ⟨written, hwrite, hproject⟩ := herase
    -- the row stays until the projection, which removes it
    obtain ⟨hfirst, _, hiff⟩ := h.write (data.conversations.erase identifier) hp hwrite
      (fun _ => rfl) fun _ => by rw [Dict.get?_erase, if_pos rfl]
    obtain ⟨hsecond, hrow⟩ := hfirst.wiped.project hp hproject
    refine ⟨⟨hsecond.wiped, fun other herased => hsecond.stays other (hfirst.stays other herased),
      ?_⟩, hsecond.stays identifier (hiff.mpr rfl)⟩
    intro other herased
    by_cases hother : other = identifier
    · rw [hother] at herased ⊢
      exact .inl (hrow herased)
    rcases hsecond.rows other herased with hnone | ⟨hwritten, heq⟩
    · exact .inl hnone
    · have hrows := hfirst.rows other hwritten
      rw [Dict.get?_erase, if_neg hother] at hrows
      rcases hrows with hnone | ⟨hbefore, _⟩
      · exact .inl (heq.trans hnone)
      · exact .inr ⟨hbefore, heq⟩

/-- **One call** of a conversation state. -/
theorem Wiped.outcome {c : SyncCall} {data' : History} (h : Wiped p state) (hp : p.Faithful)
    (hcall : state.outcome p c = .ok (next, data')) :
    Erases p state next c.data.conversations data'.conversations := by
  cases c with
  | capture data seed =>
    simp only [SyncState.outcome, map_ok, Prod.mk.injEq] at hcall
    obtain ⟨captured, hcapture, hnext, hdata⟩ := hcall
    obtain ⟨last, hsync, herases, _⟩ := h.capture hp hcapture
    rw [hsync] at hnext
    rw [← hnext, ← hdata]
    exact herases
  | merge data rows => exact (h.merge hp hcall).1
  | project data identifier => exact (h.project hp hcall).1
  | erase data identifier expectedRevision => exact (h.erase hp hcall).1

end

/-! ### Runs -/

/-- Calls one after the other, each with the history that the caller has then; a restored copy
is noted beside the records. -/
inductive Run (p : Platform) (start : SyncState) : SyncState → Prop
  | refl : Run p start start
  | call {state next : SyncState} {data : History} (h : Run p start state) (c : SyncCall)
      (hcall : state.outcome p c = .ok (next, data)) : Run p start next
  | restored {state : SyncState} (h : Run p start state) (restores : Dict String Restore) :
      Run p start { state with restores }

theorem Run.append {middle : SyncState} (h : Run p state middle) (hrest : Run p middle next) :
    Run p state next := by
  induction hrest with
  | refl => exact h
  | call _ c hcall ih => exact ih.call c hcall
  | restored _ restores ih => exact ih.restored restores

theorem wiped_created (p : Platform) (actor : String) : Wiped p ⟨actor, .empty, .empty⟩ := by
  refine ⟨⟨[], ?_, ?_⟩, ?_⟩
  · intro identifier entity hget
    cases hget
  · intro identifier counter hmem
    cases hmem
  · intro identifier herased
    cases herased

theorem Wiped.restored (h : Wiped p state) (restores : Dict String Restore) :
    Wiped p { state with restores } := by
  obtain ⟨⟨used, hsound⟩, hgone⟩ := h
  refine ⟨⟨used, hsound.entities, hsound.used⟩, ?_⟩
  intro identifier herased
  obtain ⟨_, hheads, hvisible, hdraft⟩ := hgone identifier herased
  exact ⟨herased, hheads, hvisible, hdraft⟩

theorem Run.wiped (hp : p.Faithful) (h : Run p state next) (hstart : Wiped p state) :
    Wiped p next ∧ ∀ identifier, Erased state identifier → Erased next identifier := by
  induction h with
  | refl => exact ⟨hstart, fun _ herased => herased⟩
  | call _ c hcall ih =>
    have herases := ih.1.outcome hp hcall
    exact ⟨herases.wiped, fun other herased => herases.stays other (ih.2 other herased)⟩
  | restored _ restores ih => exact ⟨ih.1.restored restores, ih.2⟩

theorem export_shown {row : String × Record Conversation} (h : row ∈ state.export) :
    row.2 = (state.shown row.1).record := by
  obtain ⟨entry, hentry, heq⟩ := List.mem_map.mp h
  have hget : state.entities.get? entry.1 = some entry.2 := Dict.get?_eq_some_iff.mpr hentry
  rw [← heq]
  unfold SyncState.shown
  rw [hget]
  rfl

theorem merged_erased {record merged : Record Conversation} {records : List (Record Conversation)}
    (h : records.foldlM (Records.merge (scope p) identifier) record = .ok merged) :
    merged.erased = true ↔ record.erased = true ∨ ∃ other ∈ records, other.erased = true := by
  induction records generalizing record with
  | nil =>
    simp only [List.foldlM_nil, pure_ok] at h
    simp [h]
  | cons other rest ih =>
    rw [List.foldlM_cons, bind_ok] at h
    obtain ⟨joined, hjoined, hrest⟩ := h
    have herased : joined.erased = (record.erased || other.erased) := by
      rw [(merge_iff.mp hjoined).2.2.2, join_erased]
    rw [ih hrest, herased, Bool.or_eq_true, List.exists_mem_cons_iff, or_assoc]

/-- **Erasing a conversation is permanent**: whatever the calls, their order and the history
that the caller brings to each of them, a record that was erased stays erased and empty, no call
brings its conversation back, and a merge of an erased record erases. -/
theorem erasure_is_permanent (hp : p.Faithful) (actor : String) {state : SyncState}
    (h : Run p ⟨actor, .empty, .empty⟩ state) :
    (∀ next, Run p state next → ∀ identifier, Erased state identifier → Gone next identifier ∧
      ∀ row ∈ next.export, row.1 = identifier → row.2.erased = true ∧ row.2.heads = []) ∧
    (∀ c next data, state.outcome p c = .ok (next, data) →
      ∀ identifier, Erased next identifier → Gone next identifier ∧
        (data.conversations.get? identifier = none ∨ Erased state identifier ∧
          data.conversations.get? identifier = c.data.conversations.get? identifier)) ∧
    (∀ (data : History) identifier next data', data.project p state identifier = .ok (next, data') →
      Erased next identifier → data'.conversations.get? identifier = none) ∧
    (∀ (data : History) identifier revision next data',
      data.erase p state identifier revision = .ok (next, data') → Erased next identifier) ∧
    (∀ (data captured : History) seed, data.capture p seed state = .ok captured →
      ∃ next, captured.sync = some next ∧
        ∀ item ∈ data.tombstones.entries, item.2.privacyErased = true →
          captured.conversations.get? item.1 = none → Erased next item.1) ∧
    (∀ (data : History) rows next data', data.merge p state rows = .ok (next, data') →
      ∀ row ∈ rows, row.2.erased = true → Erased next row.1) ∧
    ∀ identifier (record merged : Record Conversation) (records : List (Record Conversation)),
      records.foldlM (Records.merge (scope p) identifier) record = .ok merged →
        (merged.erased = true ↔ record.erased = true ∨ ∃ other ∈ records, other.erased = true) := by
  have hwiped := (h.wiped hp (wiped_created p actor)).1
  refine ⟨?_, ?_, ?_, ?_, ?_, ?_, ?_⟩
  · intro next hrun identifier herased
    obtain ⟨hnext, hstays⟩ := hrun.wiped hp hwiped
    have hgone := hnext.gone identifier (hstays identifier herased)
    refine ⟨hgone, fun row hrow hid => ?_⟩
    rw [export_shown hrow, hid]
    exact ⟨hgone.erased, hgone.heads⟩
  · intro c next data hcall identifier herased
    have herases := hwiped.outcome hp hcall
    exact ⟨herases.wiped.gone identifier herased, herases.rows identifier herased⟩
  · intro data identifier next data' hproject
    exact (hwiped.project hp hproject).2
  · intro data identifier revision next data' herase
    exact (hwiped.erase hp herase).2
  · intro data captured seed hcapture
    obtain ⟨next, hsync, _, hprivacy⟩ := hwiped.capture hp hcapture
    exact ⟨next, hsync, hprivacy⟩
  · intro data rows next data' hmerge
    exact (hwiped.merge hp hmerge).2
  · intro identifier record merged records hfold
    exact merged_erased hfold

/-- A history that the owner asked to forget a conversation of. -/
def sampleForgotten : History :=
  { History.empty with tombstones := Dict.empty.set "chat" ⟨1, true⟩ }

def sampleSync : SyncState := ⟨String.ofList (List.replicate 64 'a'), .empty, .empty⟩

/-- What a paired device wrote of the conversation. -/
def sampleEdit (counter : Nat) : String × Record Conversation :=
  ("chat", ⟨Dict.empty.set (String.ofList (List.replicate 64 'b')) counter,
    [⟨String.ofList (List.replicate 64 'b'), counter, some ⟨"chat", "Notes", "provider::chat",
      "Chat", "provider", "home", "", "", [], 0, none, none⟩⟩], false⟩)

theorem erasure_is_permanent_sample :
    ∃ shown next last : SyncState × History,
      sampleSync.outcome textPlatform (.merge .empty [sampleEdit 1]) = .ok shown ∧
      (shown.1.shown "chat").record.heads.length = 1 ∧
      shown.1.outcome textPlatform (.capture sampleForgotten false) = .ok next ∧
      next.1.outcome textPlatform (.merge sampleForgotten [sampleEdit 2]) = .ok last ∧
      ∀ later, Run textPlatform last.1 later → Gone later "chat" := by
  have hsome : (sampleSync.outcome textPlatform (.merge .empty [sampleEdit 1])).toOption.any
      (fun shown => decide ((shown.1.shown "chat").record.heads.length = 1) &&
        (shown.1.outcome textPlatform (.capture sampleForgotten false)).toOption.any fun next =>
          (next.1.shown "chat").record.erased && (next.1.outcome textPlatform
            (.merge sampleForgotten [sampleEdit 2])).toOption.isSome) = true := by
    decide +kernel
  obtain ⟨shown, hmerge, hsome⟩ := toOption_any hsome
  rw [Bool.and_eq_true, decide_eq_true_eq] at hsome
  obtain ⟨next, hcapture, hfacts⟩ := toOption_any hsome.2
  rw [Bool.and_eq_true] at hfacts
  obtain ⟨last, hlast⟩ := toOption_isSome hfacts.2
  have hrun : Run textPlatform sampleSync next.1 := .call (.call .refl _ hmerge) _ hcapture
  refine ⟨shown, next, last, hmerge, hsome.1, hcapture, hlast, fun later hlater => ?_⟩
  have hafter : Run textPlatform next.1 later := .append (.call .refl _ hlast) hlater
  exact ((erasure_is_permanent textPlatform_faithful sampleSync.actor hrun).1 later hafter "chat"
    hfacts.1).1

end Sync

end Ask
