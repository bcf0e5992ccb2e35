import Mathlib.Logic.Relation
import Rynmesh.ReadingAccepted

/-!
# Erased reading history stays erased

An erasure covers the records that it knows (`coveredBy`), and leaves barriers above them.

* `Quiet` is what the causal state keeps about covered records: an entity at or above each
  of them, and no value under their ids;
* `Kept` says the same of the document, its receipt and its rows;
* `Later.kept` is the run lemma: enabling, records of other items, further erasures and
  stale merges keep it.
-/

namespace ReadingPrivacy

open Checked Reading Consumption
open SyncValues (ScopeName)
open Records (Valid merge_iff mem_join join_clockAt join_heads_erased)

variable {lib : Library} {covered : List Row} {state next : ReadingState}

/-! ### Records below a barrier -/

/-- A record is causally at or below another. -/
def AtMost (record other : Records.Record Json) : Prop :=
  ∀ actor, record.clockAt actor ≤ other.clockAt actor

theorem AtMost.trans {a b c : Records.Record Json} (h : AtMost a b) (h' : AtMost b c) :
    AtMost a c :=
  fun actor => (h actor).trans (h' actor)

/-- A record without a value. -/
def Blank (record : Records.Record Json) : Prop :=
  ∀ head ∈ record.heads, head.value = none

variable {identifier : String}

theorem atMost_merge {scope : Records.Scope Json} {left right merged : Records.Record Json}
    (h : Records.merge scope identifier left right = .ok merged) :
    AtMost left merged ∧ AtMost right merged := by
  rw [(merge_iff.mp h).2.2.2]
  refine ⟨fun actor => ?_, fun actor => ?_⟩
  · rw [join_clockAt]
    exact Nat.le_max_left _ _
  · rw [join_clockAt]
    exact Nat.le_max_right _ _

theorem blank_merge {scope : Records.Scope Json} {left right merged : Records.Record Json}
    (h : Records.merge scope identifier left right = .ok merged) (hblank : Blank left)
    (hbelow : AtMost right left) : Blank merged := by
  obtain ⟨⟨hleft, hright⟩, _, hlive, heq⟩ := merge_iff.mp h
  intro head hmem
  rw [heq] at hmem
  cases herased : (left.join right).erased with
  | true =>
    rw [join_heads_erased herased] at hmem
    cases hmem
  | false =>
    have hagree := (hlive (by rw [← Records.join_erased, herased])).1
    obtain ⟨hcounter, hkeeps, _⟩ := (mem_join hleft hright hagree herased head).mp hmem
    refine hblank head (hkeeps ?_)
    have hle := hbelow head.actor
    omega

/-! ### The causal state -/

/-- The ids that are covered. -/
def ids (covered : List Row) : List String := covered.map Row.id

theorem mem_ids {row : Row} (h : row ∈ covered) : row.id ∈ ids covered :=
  List.mem_map.mpr ⟨row, h, rfl⟩

/-- What the causal state keeps about covered records. -/
structure Quiet (lib : Library) (covered : List Row) (state : ReadingState) : Prop where
  filed : ∀ key entity, state.entities.get? key = some entity →
    key = lib.entityKey entity.scope entity.id
  above : ∀ row ∈ covered, row.scope ∈ state.scopes → ∃ entity,
    state.entities.get? (lib.entityKey row.scope row.id) = some entity ∧
      AtMost row.record entity.record
  blank : ∀ key entity, state.entities.get? key = some entity → entity.id ∈ ids covered →
    Blank entity.record ∧ Blank entity.projected

theorem Quiet.put (hlib : lib.Collisionless) (h : Quiet lib covered state) {entity : Entity}
    {key : String} (hnamed : key = lib.entityKey entity.scope entity.id)
    (habove : ∀ row ∈ covered, row.scope ∈ state.scopes → row.scope = entity.scope →
      row.id = entity.id → AtMost row.record entity.record)
    (hblank : entity.id ∈ ids covered → Blank entity.record ∧ Blank entity.projected) :
    Quiet lib covered { state with entities := state.entities.set key entity } := by
  refine ⟨Dict.forall_get?_set hnamed h.filed, ?_, Dict.forall_get?_set hblank h.blank⟩
  · intro row hmem hscope
    rw [Dict.get?_set]
    by_cases hkey : lib.entityKey row.scope row.id = key
    · obtain ⟨hsame, hid⟩ := hlib.entityKey _ _ _ _ (hkey.trans hnamed)
      rw [if_pos hkey]
      exact ⟨entity, rfl, habove row hmem hscope hsame hid⟩
    · rw [if_neg hkey]
      exact h.above row hmem hscope

theorem Quiet.entity (hlib : lib.Collisionless) (h : Quiet lib covered state) (scope : ScopeName)
    (identifier : String) : (state.entity lib scope identifier).scope = scope ∧
      (state.entity lib scope identifier).id = identifier := by
  unfold ReadingState.entity
  cases hget : state.entities.get? (lib.entityKey scope identifier) with
  | none => exact ⟨rfl, rfl⟩
  | some entity =>
    obtain ⟨hscope, hid⟩ := hlib.entityKey _ _ _ _ (h.filed _ _ hget)
    exact ⟨hscope.symm, hid.symm⟩

variable {scope : ScopeName}

theorem Quiet.write (hlib : lib.Collisionless) (h : Quiet lib covered state) {value : Option Json}
    {expectedRevision : Option String}
    (hwrite : state.write lib scope identifier value expectedRevision = .ok next)
    (hother : identifier ∉ ids covered) : Quiet lib covered next ∧ next.scopes = state.scopes := by
  obtain ⟨base, updated, merged, conflict, hwrote⟩ := write_wrote hwrite
  obtain ⟨hscope, hid⟩ := h.entity hlib scope identifier
  rw [hwrote.result]
  refine ⟨h.put hlib (congrArg₂ lib.entityKey hscope hid).symm ?_ ?_, rfl⟩
  · intro row hmem _ _ hsame
    exact absurd (hsame.trans hid ▸ mem_ids hmem) hother
  · intro hcovered
    exact absurd (hid ▸ hcovered) hother

/-- A row of the history is of an item that is not covered. -/
def Fresh (covered : List Row) (row : Json) : Prop :=
  ∃ name, row.get? "item_id" = some (.str name) ∧ name ∉ ids covered

variable {row : Json}

theorem Quiet.capture (hlib : lib.Collisionless) (h : Quiet lib covered state)
    {expectedRevision : Option String}
    (hcapture : state.capture lib row scope expectedRevision = .ok next)
    (hrow : Fresh covered row) :
    Quiet lib covered next ∧ next.scopes = state.scopes := by
  rcases capture_ok hcapture with rfl | ⟨_, item, name, _, _, hget, hname, hwrite, rfl⟩
  · exact ⟨h, rfl⟩
  · obtain ⟨other, hitem, hother⟩ := hrow
    obtain rfl : item = .str other := Option.mem_unique hget hitem
    obtain rfl : other = name := Option.some.inj hname
    obtain ⟨hquiet, hscopes⟩ := h.write hlib hwrite hother
    exact ⟨⟨hquiet.filed, hquiet.above, hquiet.blank⟩, hscopes⟩

theorem Quiet.captureWanted (hlib : lib.Collisionless) (h : Quiet lib covered state) {wanted : Bool}
    (hcapture : state.captureWanted lib wanted row scope = .ok next) (hrow : Fresh covered row) :
    Quiet lib covered next ∧ next.scopes = state.scopes := by
  unfold ReadingState.captureWanted at hcapture
  split at hcapture
  · exact h.capture hlib hcapture hrow
  · injection hcapture with hcapture
    rw [← hcapture]
    exact ⟨h, rfl⟩

theorem Quiet.captureAdded (hlib : lib.Collisionless) (h : Quiet lib covered state)
    {added : List ScopeName} (hcapture : state.captureAdded lib added row = .ok next)
    (hrow : Fresh covered row) : Quiet lib covered next ∧ next.scopes = state.scopes := by
  simp only [ReadingState.captureAdded, bind_ok] at hcapture
  obtain ⟨bookmarked, hfirst, hsecond⟩ := hcapture
  obtain ⟨hmiddle, hscopes⟩ := h.captureWanted hlib hfirst hrow
  obtain ⟨hlast, hscopes'⟩ := hmiddle.captureWanted hlib hsecond hrow
  exact ⟨hlast, hscopes'.trans hscopes⟩

variable {actor : String} {selected : List ScopeName}

theorem Quiet.enable (hlib : lib.Collisionless) {rows : List Json}
    (h : Quiet lib covered (state.withScopes selected))
    (henable : state.enable lib actor selected rows = .ok next)
    (hrows : ∀ row ∈ rows, Fresh covered row) : Quiet lib covered next := by
  simp only [ReadingState.enable, bind_ok, scopes_ok] at henable
  obtain ⟨_, _, selected', ⟨_, rfl⟩, hfold⟩ := henable
  refine foldlM_keeps ?_ h hfold
  intro current row after hmem hquiet hstep
  exact (hquiet.captureAdded hlib hstep (hrows row hmem)).1

theorem blank_of_isBarrier {record : Records.Record Json} (h : isBarrier actor record = true) :
    Blank record := by
  unfold isBarrier at h
  intro head hmem
  split at h
  · next only heq =>
    rw [heq, List.mem_singleton] at hmem
    rw [Bool.and_eq_true, decide_eq_true_eq] at h
    rw [hmem]
    exact h.1
  · cases h

/-- The barriers of a receipt are above the records that are covered. -/
def Fences (lib : Library) (covered : List Row) (receipt : Receipt) : Prop :=
  ∀ row ∈ covered, ∃ barrier,
    receipt.barriers.get? (lib.entityKey row.scope row.id) = some barrier ∧
      AtMost row.record barrier.record

variable {receipt : Receipt}

theorem Quiet.seeded (hlib : lib.Collisionless) (h : Quiet lib covered state)
    (haccepted : AcceptedReceipt lib receipt) (hfences : Fences lib covered receipt)
    (selected : List ScopeName) :
    Quiet lib covered ((seeded receipt state
      (selected.filter fun scope => scope ∉ state.scopes)).withScopes selected) := by
  have hget : ∀ key entity, (Consumption.seeded receipt state
      (selected.filter fun scope => scope ∉ state.scopes)).entities.get? key = some entity →
      (∃ row, receipt.barriers.get? key = some row ∧ entity = sealedEntity row) ∨
        state.entities.get? key = some entity := by
    intro key entity hget
    rw [seeded_get?, Option.or_eq_some_iff] at hget
    rcases hget with hbarrier | ⟨_, hold⟩
    · obtain ⟨row, hrow, heq⟩ := Option.map_eq_some_iff.mp hbarrier
      exact .inl ⟨row, (Option.filter_eq_some_iff.mp hrow).1, heq.symm⟩
    · exact .inr hold
  refine ⟨?_, ?_, ?_⟩
  · intro key entity hentity
    rcases hget key entity hentity with ⟨row, hrow, heq⟩ | hold
    · rw [heq]
      exact (haccepted.barriers key row hrow).1.named
    · exact h.filed key entity hold
  · intro row hmem hscope
    obtain ⟨barrier, hbarrier, hbelow⟩ := hfences row hmem
    have hsame : barrier.scope = row.scope := by
      have hfiled := (haccepted.barriers _ _ hbarrier).1
      exact (hfiled.eq hlib).1
    have hscopes : row.scope ∈ state.scopes ∨ row.scope ∈ selected := by
      have hwithin := of_decide_eq_true (List.mem_filter.mp hscope).2
      rwa [(seeded_rest receipt state _).2.1] at hwithin
    show ∃ entity, (Consumption.seeded receipt state
      (selected.filter fun scope => scope ∉ state.scopes)).entities.get?
        (lib.entityKey row.scope row.id) = some entity ∧ _
    rw [seeded_get?, hbarrier]
    by_cases hthere : row.scope ∈ state.scopes
    · obtain ⟨entity, hentity, habove⟩ := h.above row hmem hthere
      refine ⟨entity, ?_, habove⟩
      rw [hentity]
      simp [Option.filter, hsame, hthere]
    · refine ⟨sealedEntity barrier, ?_, hbelow⟩
      simp [Option.filter, hsame, hthere, hscopes.resolve_left hthere]
  · intro key entity hentity hcovered
    rcases hget key entity hentity with ⟨row, hrow, heq⟩ | hold
    · rw [heq]
      have hblank := blank_of_isBarrier (haccepted.barriers key row hrow).2
      exact ⟨hblank, hblank⟩
    · exact h.blank key entity hold hcovered

/-! ### Merges -/

/-- A row that may come late: one of a covered id is at or below a covered record. -/
def Stale (covered : List Row) (row : Row) : Prop :=
  row.id ∈ ids covered → ∃ old ∈ covered, old.scope = row.scope ∧ old.id = row.id ∧
    AtMost row.record old.record

theorem Quiet.mergeRow (hlib : lib.Collisionless) (h : Quiet lib covered state) {row : Row}
    (hscope : row.scope ∈ state.scopes) (hstale : Stale covered row)
    (hmerge : state.mergeRow lib row = .ok next) :
    Quiet lib covered next ∧ next.scopes = state.scopes := by
  simp only [ReadingState.mergeRow, bind_ok, key_ok, pure_ok] at hmerge
  obtain ⟨key, ⟨hentity, hkey⟩, merged, hmerged, shown, _, heq⟩ := hmerge
  have hprior : ((state.entities.get? key).getD (absent row.scope row.id)) =
      state.entity lib row.scope row.id := by
    rw [hkey]
    rfl
  rw [hprior] at hmerged heq
  rw [← heq]
  refine ⟨h.put hlib hkey ?_ ?_, rfl⟩
  · intro old hmem hold hsame hid
    obtain ⟨entity, hget, habove⟩ := h.above old hmem hold
    rw [hsame, hid] at hget
    have hfound : state.entity lib row.scope row.id = entity := by
      unfold ReadingState.entity
      rw [hget]
      rfl
    rw [hfound] at hmerged
    exact habove.trans (atMost_merge hmerged).1
  · intro hcovered
    obtain ⟨old, hmem, hsame, hid, hbelow⟩ := hstale hcovered
    obtain ⟨entity, hget, habove⟩ := h.above old hmem (by rw [hsame]; exact hscope)
    rw [hsame, hid] at hget
    have hfound : state.entity lib row.scope row.id = entity := by
      unfold ReadingState.entity
      rw [hget]
      rfl
    obtain ⟨hname, hname'⟩ := hlib.entityKey _ _ _ _ (h.filed _ _ hget)
    obtain ⟨hblank, hblank'⟩ := h.blank _ _ hget (by rw [← hname']; exact hcovered)
    rw [hfound] at hmerged ⊢
    have hnew := blank_merge hmerged hblank (hbelow.trans habove)
    refine ⟨hnew, ?_⟩
    show Blank (if shown.conflict = true then entity.projected else merged)
    split
    · exact hblank'
    · exact hnew

theorem Quiet.mergeRows (hlib : lib.Collisionless) {rows : List Row} {seen : List String}
    (h : Quiet lib covered state) (hselected : ∀ scope ∈ selected, scope ∈ state.scopes)
    (hstale : ∀ row ∈ rows, Stale covered row)
    (hmerge : ReadingState.mergeRows lib selected state seen rows = .ok next) :
    Quiet lib covered next := by
  refine (ReadingState.mergeRows_induction
    (P := fun s => Quiet lib covered s ∧ s.scopes = state.scopes) ⟨h, rfl⟩ hmerge ?_).1
  intro row hmem hscope s t ⟨hquiet, hscopes⟩ hrow
  obtain ⟨hquiet, hsame⟩ :=
    hquiet.mergeRow hlib (hscopes ▸ hselected _ hscope) (hstale row hmem) hrow
  exact ⟨hquiet, hsame.trans hscopes⟩

theorem Quiet.merge (hlib : lib.Collisionless) (h : Quiet lib covered state) {rows : List Row}
    {receipts : List RowReceipt} (hstale : ∀ row ∈ rows, Stale covered row)
    (hmerge : state.merge lib rows selected = .ok (next, receipts)) : Quiet lib covered next := by
  simp only [ReadingState.merge, bind_ok, scopes_ok, require_ok, pure_ok, Prod.mk.injEq] at hmerge
  obtain ⟨selected', ⟨_, rfl⟩, _, hselected, merged, hrows, _, _, hnext, _⟩ := hmerge
  rw [← hnext]
  exact h.mergeRows hlib hselected hstale hrows

/-! ### Rows -/

/-- The rows of the history are of items that are not covered, each under its id. -/
def FreshRows (covered : List Row) (rows : Dict String Json) : Prop :=
  ∀ key row, rows.get? key = some row → row.get? "item_id" = some (.str key) ∧ key ∉ ids covered

variable {rows : Dict String Json}

theorem FreshRows.fresh (h : FreshRows covered rows) (hmem : row ∈ rows.values) :
    Fresh covered row := by
  obtain ⟨key, hget⟩ := Dict.mem_values_iff.mp hmem
  exact ⟨key, h key row hget⟩

theorem FreshRows.set (h : FreshRows covered rows) {key : String}
    (hitem : row.get? "item_id" = some (.str key)) (hother : key ∉ ids covered) :
    FreshRows covered (rows.set key row) := by
  exact Dict.forall_get?_set ⟨hitem, hother⟩ h

theorem setUnder_item (row : Json) {name : String} (key : String) (value : Json)
    (hname : "item_id" ≠ name) :
    (setUnder row name key value).get? "item_id" = row.get? "item_id" :=
  Json.get?_withField_ne _ _ hname

theorem position_item (shown : Shown) (scope : ScopeName) (row : Json) :
    (shown.position scope row).get? "item_id" = row.get? "item_id" := by
  unfold Shown.position
  split
  · rw [Json.get?_withField_ne _ _ (by decide)]
  · split
    · rw [Json.get?_withField_ne _ _ (by decide), Json.get?_withField_ne _ _ (by decide),
        Json.get?_withField_ne _ _ (by decide)]
    · rw [Json.get?_withField_ne _ _ (by decide), Json.get?_withField_ne _ _ (by decide)]

theorem derived_item (shown : Shown) (scope : ScopeName) (row : Json) :
    (shown.derived scope row).get? "item_id" = row.get? "item_id" := by
  unfold Shown.derived
  split
  · rw [setUnder_item _ _ _ (by decide), setUnder_item _ _ _ (by decide)]
  · rw [Json.get?_withField_ne _ _ (by decide), setUnder_item _ _ _ (by decide),
      setUnder_item _ _ _ (by decide)]

theorem remoteRow_item (identifier : String) (item : Json) :
    (remoteRow identifier item).get? "item_id" = some (.str identifier) := by
  simp [remoteRow]

/-- The rows are of one item. -/
def RowsOf (identifier : String) (rows : Dict String Json) : Prop :=
  ∀ key row, rows.get? key = some row →
    key = identifier ∧ row.get? "item_id" = some (.str identifier)

theorem RowsOf.set (h : RowsOf identifier rows)
    (hitem : row.get? "item_id" = some (.str identifier)) :
    RowsOf identifier (rows.set identifier row) := by
  exact Dict.forall_get?_set ⟨rfl, hitem⟩ h

theorem RowsOf.overlay (h : RowsOf identifier rows) (shown : Shown) (scope : ScopeName) :
    RowsOf identifier (shown.overlay scope identifier rows) := by
  unfold Shown.overlay
  split
  · next row hget =>
    refine h.set ?_
    rw [derived_item, position_item]
    exact (h _ _ hget).2
  · split
    · refine h.set ?_
      rw [derived_item, position_item, remoteRow_item]
    · exact h

theorem RowsOf.projectItem (hlib : lib.Collisionless) {projected : Dict String Json}
    (h : RowsOf identifier rows)
    (hfiled : ∀ key entity, state.entities.get? key = some entity →
      key = lib.entityKey entity.scope entity.id)
    (hproject : projectItem lib state identifier rows = .ok projected) :
    RowsOf identifier projected := by
  simp only [Consumption.projectItem, bind_ok, key_ok] at hproject
  obtain ⟨bookmark, ⟨_, hbookmark⟩, position, ⟨_, hposition⟩, hfold⟩ := hproject
  refine foldlM_keeps ?_ h hfold
  intro current entity after hmem hcurrent hstep
  simp only [projectEntity, bind_ok, pure_ok] at hstep
  obtain ⟨_, _, _, _, heq⟩ := hstep
  have hid : entity.id = identifier := by
    obtain ⟨key, hkey, hget⟩ := List.mem_filterMap.mp hmem
    have hnamed := hfiled key entity hget
    rcases List.mem_cons.mp hkey with hfirst | hsecond
    · rw [hfirst, hbookmark] at hnamed
      exact (hlib.entityKey _ _ _ _ hnamed).2.symm
    · rw [List.mem_singleton.mp hsecond, hposition] at hnamed
      exact (hlib.entityKey _ _ _ _ hnamed).2.symm
  rw [← heq, hid]
  exact hcurrent.overlay _ _

variable {p : Consumption.Platform}

theorem FreshRows.targeted (hlib : p.toLibrary.Collisionless) {rows' : Dict String Json}
    (h : FreshRows covered rows) {sync : Option ReadingState}
    (hfiled : ∀ state, sync = some state → ∀ key entity, state.entities.get? key = some entity →
      key = p.entityKey entity.scope entity.id) (hother : identifier ∉ ids covered)
    (htargeted : targeted p rows identifier sync = .ok rows') : FreshRows covered rows' := by
  unfold Consumption.targeted at htargeted
  cases sync with
  | none =>
    injection htargeted with htargeted
    rw [← htargeted]
    exact h
  | some state =>
    simp only [bind_ok, pure_ok] at htargeted
    obtain ⟨projected, hproject, heq⟩ := htargeted
    have htarget : RowsOf identifier projected := by
      refine RowsOf.projectItem hlib ?_ (hfiled state rfl) hproject
      split
      · next row hget => exact RowsOf.set (fun _ _ hnone => by cases hnone) (h _ _ hget).1
      · intro key row hnone
        cases hnone
    have hentries : ∀ entry ∈ projected.entries,
        entry.1 = identifier ∧ entry.2.get? "item_id" = some (.str identifier) :=
      fun entry hmem => htarget _ _ (Dict.get?_eq_some_iff.mpr hmem)
    rw [← heq]
    clear hproject htarget heq
    generalize projected.entries = entries at hentries
    induction entries generalizing rows with
    | nil => exact h
    | cons entry rest ih =>
      obtain ⟨hkey, hitem⟩ := hentries entry (.head _)
      refine ih (h.set ?_ ?_) fun other hmem => hentries other (.tail _ hmem)
      · rw [hkey]
        exact hitem
      · rw [hkey]
        exact hother

theorem newest_mem {rows ordered : List Json} (h : newest p rows = .ok ordered)
    (hmem : row ∈ ordered) : row ∈ rows := by
  simp only [newest, bind_ok, pure_ok] at h
  obtain ⟨times, _, heq⟩ := h
  rw [← heq] at hmem
  obtain ⟨entry, hentry, hrow⟩ := List.mem_map.mp hmem
  rw [List.mem_insertionSort] at hentry
  rw [← hrow]
  exact (List.of_mem_zip hentry).2

/-- Saving the rows leaves them fresh. -/
theorem FreshRows.saved (hstr : ∀ text, p.str (.str text) = text) (h : FreshRows covered rows)
    {saved : Dict String Json} (hsaved : savedRows p rows.values = .ok saved) :
    FreshRows covered saved := by
  simp only [savedRows, bind_ok] at hsaved
  obtain ⟨ordered, hordered, hfold⟩ := hsaved
  refine foldlM_keeps (P := FreshRows covered) ?_ ?_ hfold
  · intro current row after hmem hcurrent hstep
    simp only [bind_ok, demand_ok, pure_ok] at hstep
    obtain ⟨identifier, hget, heq⟩ := hstep
    obtain ⟨name, hitem, hother⟩ := h.fresh (newest_mem hordered (List.mem_of_mem_take hmem))
    have hsame : identifier = .str name := Option.mem_unique hget hitem
    rw [← heq, hsame, hstr]
    refine hcurrent.set ?_ hother
    rw [Json.get?_without, if_neg (by decide), Json.get?_without, if_neg (by decide),
      Json.get?_without, if_neg (by decide)]
    exact hitem
  · intro key row hnone
    cases hnone

theorem apply_item {action : Action} {progress stamp row' : Json}
    (h : action.apply p progress stamp row = .ok row') :
    row'.get? "item_id" = row.get? "item_id" := by
  cases action with
  | opened =>
    simp only [Action.apply, bind_ok, pure_ok] at h
    obtain ⟨count, _, heq⟩ := h
    rw [← heq, Json.get?_withField_ne _ _ (by decide), Json.get?_withField_ne _ _ (by decide)]
    split
    · rfl
    · rw [Json.get?_withField_ne _ _ (by decide)]
  | bookmark | unbookmark =>
    injection h with h
    rw [← h, Json.get?_withField_ne _ _ (by decide)]
  | progress =>
    simp only [Action.apply, bind_ok, pure_ok] at h
    obtain ⟨value, _, heq⟩ := h
    rw [← heq]
    split
    · rw [Json.get?_withField_ne _ _ (by decide), Json.get?_withField_ne _ _ (by decide)]
    · rw [Json.get?_withField_ne _ _ (by decide)]
  | completed =>
    injection h with h
    rw [← h, Json.get?_withField_ne _ _ (by decide), Json.get?_withField_ne _ _ (by decide)]

theorem row_item {change : Change} {action : Action} {item row' : Json}
    (h : change.row p action item row = .ok row') : row'.get? "item_id" = row.get? "item_id" := by
  simp only [Change.row, bind_ok] at h
  obtain ⟨versioned, hversioned, happly⟩ := h
  rw [apply_item happly, Json.get?_withField_ne _ _ (by decide)]
  unfold Change.versioned at hversioned
  split at hversioned
  · injection hversioned with hversioned
    rw [← hversioned, Json.get?_withField_ne _ _ (by decide)]
  · simp only [bind_ok, pure_ok] at hversioned
    obtain ⟨_, _, _, _, heq⟩ := hversioned
    rw [← heq, Json.get?_withField_ne _ _ (by decide), Json.get?_withField_ne _ _ (by decide)]

/-! ### Calls -/

/-- What a document keeps about covered records. -/
structure Kept (lib : Library) (covered : List Row) (document : Document) : Prop where
  accepted : AcceptedDocument lib document
  receipt : ∃ receipt, document.receipt = some receipt ∧ Fences lib covered receipt
  sync : ∀ state, document.sync = some state → Quiet lib covered state
  rows : FreshRows covered document.rows

variable {document written : Document} {suffix : Option String}

theorem Kept.saved (h : Kept lib covered document) (hrows : FreshRows covered rows)
    {sync : Option ReadingState}
    (hsync : ∀ state, sync = some state → AcceptedState lib state ∧ Quiet lib covered state ∧
      ∀ receipt, document.receipt = some receipt → state.actor = receipt.actor)
    (hsaved : document.saved rows sync = (suffix, written)) :
    Kept lib covered written ∧ written.receipt = document.receipt := by
  obtain ⟨receipt, hreceipt, hfences⟩ := h.receipt
  cases document with
  | legacy header old | synced previous header old state => cases hreceipt
  | erased header old state other =>
    have hsame : written = .erased header rows sync other := (Prod.ext_iff.mp hsaved).2.symm
    rw [hsame]
    refine ⟨⟨⟨?_, h.accepted.receipt, ?_⟩, ⟨receipt, hreceipt, hfences⟩, ?_, hrows⟩, rfl⟩
    · intro found hfound
      exact (hsync found hfound).1
    · intro found kept hfound hkept
      exact (hsync found hfound).2.2 kept hkept
    · intro found hfound
      exact (hsync found hfound).2.1

theorem quiet_created (h : create actor = .ok state) : Quiet lib covered state := by
  simp only [create, bind_ok, pure_ok] at h
  obtain ⟨_, _, heq⟩ := h
  rw [← heq]
  refine ⟨?_, ?_, ?_⟩
  · intro key entity hget
    cases hget
  · intro row _ hscope
    cases hscope
  · intro key entity hget
    cases hget

theorem seedBarriers_parts {sync : Option ReadingState} {rows : List Json}
    (h : seedBarriers lib receipt sync actor selected rows = .ok next) :
    actor = receipt.actor ∧ next.entities.entries.length ≤ MAX_ENTITIES ∧
      ∃ start, (sync = some start ∨ sync = none ∧ create actor = .ok start) ∧
        (seeded receipt start (selected.filter fun scope => scope ∉ start.scopes)).enable lib actor
          selected rows = .ok next := by
  unfold seedBarriers at h
  cases sync with
  | none =>
    simp only [bind_ok, require_ok, scopes_ok, pure_ok] at h
    obtain ⟨_, hactor, _, ⟨_, rfl⟩, start, hstart, enabled, henable, _, hcapacity, heq⟩ := h
    exact ⟨hactor, heq ▸ hcapacity, start, .inr ⟨rfl, hstart⟩, heq ▸ henable⟩
  | some start =>
    simp only [bind_ok, require_ok, scopes_ok, pure_ok] at h
    obtain ⟨_, hactor, _, ⟨_, rfl⟩, _, rfl, enabled, henable, _, hcapacity, heq⟩ := h
    exact ⟨hactor, heq ▸ hcapacity, start, .inl rfl, heq ▸ henable⟩

/-- Barriers seeded from the receipt make a quiet state. -/
theorem Kept.seedBarriers (hlib : lib.Collisionless) (h : Kept lib covered document)
    (hreceipt : document.receipt = some receipt)
    (hseed : seedBarriers lib receipt document.sync actor selected document.rows.values =
      .ok next) : AcceptedState lib next ∧ Quiet lib covered next ∧ next.actor = receipt.actor := by
  obtain ⟨other, hother, hfences⟩ := h.receipt
  have hsame : other = receipt := Option.mem_unique hother hreceipt
  rw [hsame] at hfences
  have haccepted := h.accepted.receipt receipt hreceipt
  obtain ⟨hactor, hcapacity, start, hstart, henable⟩ := seedBarriers_parts hseed
  have hboth : Quiet lib covered start ∧ Sane lib receipt.actor start := by
    rcases hstart with hsync | ⟨_, hcreate⟩
    · refine ⟨h.sync start hsync, ?_⟩
      rw [← h.accepted.actor start receipt hsync hreceipt]
      exact (h.accepted.sync start hsync).sane
    · refine ⟨quiet_created hcreate, ?_⟩
      rw [← hactor]
      exact sane_created hcreate
  have hsane := (hboth.2.seeded haccepted selected).enabled hlib henable
  exact ⟨hsane.accepted hcapacity, (hboth.1.seeded hlib haccepted hfences selected).enable hlib
    henable fun row hmem => h.rows.fresh hmem, hsane.actor⟩

theorem enableErased_write {outcome : Outcome Unit}
    (h : enableErased lib actor selected document receipt = .ok outcome)
    (hwrite : outcome.write = some (suffix, written)) :
    ∃ state, seedBarriers lib receipt document.sync actor selected document.rows.values =
      .ok state ∧ document.saved document.rows (some state) = (suffix, written) := by
  have hdone : ∀ {done : Bool}, (if done then return ⟨none, .ok ()⟩
      else do
        let state ← seedBarriers lib receipt document.sync actor selected document.rows.values
        return saving document document.rows (some state) (.ok ()) :
          Except String (Outcome Unit)) = .ok outcome →
      ∃ state, seedBarriers lib receipt document.sync actor selected document.rows.values =
        .ok state ∧ document.saved document.rows (some state) = (suffix, written) := by
    intro done hcall
    split at hcall
    · injection hcall with hcall
      rw [← hcall] at hwrite
      cases hwrite
    · simp only [bind_ok, pure_ok] at hcall
      obtain ⟨state, hseed, heq⟩ := hcall
      rw [← heq] at hwrite
      exact ⟨state, hseed, Option.some.inj hwrite⟩
  unfold enableErased at h
  cases hsync : document.sync with
  | none | some state =>
    rw [hsync] at h hdone
    simp only [bind_ok] at h
    obtain ⟨_, _, done, _, hcall⟩ := h
    exact hdone hcall

/-- Enabling sync keeps the invariant. -/
theorem Kept.enableSync (hlib : lib.Collisionless) (h : Kept lib covered document)
    {outcome : Outcome Unit} (hcall : enableSync lib actor selected document = .ok outcome)
    (hwrite : outcome.write = some (suffix, written)) :
    Kept lib covered written ∧ written.receipt = document.receipt := by
  obtain ⟨receipt, hreceipt, _⟩ := h.receipt
  cases document with
  | legacy header old | synced previous header old state => cases hreceipt
  | erased header old sync other =>
    obtain ⟨state, hseed, hsaved⟩ := enableErased_write hcall hwrite
    obtain ⟨haccepted, hquiet, hactor⟩ := h.seedBarriers hlib rfl hseed
    refine h.saved h.rows ?_ hsaved
    intro found hfound
    rw [← Option.some.inj hfound]
    refine ⟨haccepted, hquiet, fun kept hkept => ?_⟩
    rw [← Option.some.inj hkept]
    exact hactor

/-- A captured change of a fresh row leaves the covered ones quiet. -/
theorem Quiet.changed (hlib : p.toLibrary.Collisionless) (h : Quiet p.toLibrary covered state)
    {change : Change} {action : Action} (hrow : Fresh covered row)
    (hcapture : change.capture p action identifier row state = .ok next) :
    Quiet p.toLibrary covered next := by
  unfold Change.capture at hcapture
  split at hcapture
  · injection hcapture with hcapture
    rw [← hcapture]
    exact h
  · split at hcapture
    · next after hafter =>
      injection hcapture with hcapture
      rw [← hcapture]
      exact (h.capture hlib hafter hrow).1
    · split at hcapture
      · cases hcapture
      · simp only [ReadingState.recordCaptureFailure, bind_ok, pure_ok] at hcapture
        obtain ⟨_, _, heq⟩ := hcapture
        rw [← heq]
        exact ⟨h.filed, h.above, h.blank⟩

/-- A recorded change of another item keeps the invariant. -/
theorem Kept.record (hlib : p.toLibrary.Collisionless) (hstr : ∀ text, p.str (.str text) = text)
    (h : Kept p.toLibrary covered document) {change : Change}
    (hother : itemId p change.item ∉ ids covered) {outcome : Outcome Json}
    (hcall : record p change document = .ok outcome)
    (hwrite : outcome.write = some (suffix, written)) :
    Kept p.toLibrary covered written ∧ written.receipt = document.receipt := by
  simp only [Consumption.record, bind_ok, pure_ok] at hcall
  obtain ⟨action, _, item, _, _, _, rows, hrows, row, hrow, sync, hsync, saved, hsaved, heq⟩ :=
    hcall
  have htargeted : FreshRows covered rows :=
    h.rows.targeted hlib (fun state hstate => (h.sync state hstate).filed) hother hrows
  have hitem : row.get? "item_id" = some (.str (itemId p change.item)) := by
    rw [row_item hrow]
    cases hget : rows.get? (itemId p change.item) with
    | none => simp [newRow]
    | some old => exact (htargeted _ _ hget).1
  rw [← heq] at hwrite
  refine h.saved ((htargeted.set hitem hother).saved hstr hsaved) ?_ (Option.some.inj hwrite)
  intro state hstate
  unfold Change.synced at hsync
  split at hsync
  · next before hbefore =>
    obtain ⟨after, hafter, hsome⟩ := map_ok.mp hsync
    rw [← hsome] at hstate
    rw [← Option.some.inj hstate]
    obtain ⟨haccepted, hactor⟩ := (h.accepted.sync before hbefore).changed hlib hafter
    refine ⟨haccepted, (h.sync before hbefore).changed hlib ⟨_, hitem, hother⟩ hafter, ?_⟩
    intro receipt hreceipt
    exact hactor.trans (h.accepted.actor before receipt hbefore hreceipt)
  · simp only [bind_ok, pure_ok] at hsync
    obtain ⟨_, _, hnone⟩ := hsync
    rw [← hnone] at hstate
    cases hstate

/-- A batch of stale rows keeps the invariant. -/
theorem Kept.receive (hlib : p.toLibrary.Collisionless) (h : Kept p.toLibrary covered document)
    {batch : List Row} {expectedActor : Option String} (hstale : ∀ row ∈ batch, Stale covered row)
    {outcome : Outcome (List RowReceipt)}
    (hcall : receive p batch selected expectedActor document = .ok outcome)
    (hwrite : outcome.write = some (suffix, written)) :
    Kept p.toLibrary covered written ∧ written.receipt = document.receipt := by
  simp only [Consumption.receive, bind_ok, demand_ok, pure_ok] at hcall
  obtain ⟨_, _, state, hstate, _, _, merged, hmerge, _, _, heq⟩ := hcall
  rw [← heq] at hwrite
  obtain ⟨haccepted, hactor⟩ := (h.accepted.sync state hstate).merge hlib hmerge
  refine h.saved h.rows ?_ (Option.some.inj hwrite)
  intro found hfound
  rw [← Option.some.inj hfound]
  refine ⟨haccepted, (h.sync state hstate).merge hlib hstale hmerge, fun receipt hreceipt => ?_⟩
  exact hactor.trans (h.accepted.actor state receipt hstate hreceipt)

/-! ### Erasures -/

/-- The records that an erasure covers. -/
def coveredBy (document : Document) (extra : Dict String Row) : List Row :=
  ((sources document extra).flatMap fun source =>
      source.records.map fun record => ⟨source.scope, source.id, record⟩) ++
    (before document).values

variable {extra : Dict String Row}

theorem mem_coveredBy (hsync : document.sync = some state) {entity : Entity}
    (h : entity ∈ state.entities.values) :
    ⟨entity.scope, entity.id, entity.record⟩ ∈ coveredBy document extra := by
  refine List.mem_append_left _ (List.mem_flatMap.mpr ⟨Source.ofEntity entity, ?_, ?_⟩)
  · unfold sources
    rw [hsync]
    exact List.mem_append_left _ (List.mem_map.mpr ⟨entity, h, rfl⟩)
  · exact List.mem_map.mpr ⟨entity.record, (.head _), rfl⟩

/-- A join is above what it started from. -/
theorem atMost_fold {scope : Records.Scope Json} {items : List (Records.Record Json)}
    {start joined : Records.Record Json}
    (h : items.foldlM (Records.merge scope identifier) start = .ok joined) :
    AtMost start joined ∧ ∀ record ∈ items, AtMost record joined := by
  induction items generalizing start with
  | nil =>
    simp only [List.foldlM_nil, pure_ok] at h
    rw [h]
    exact ⟨fun _ => Nat.le_refl _, fun record hmem => by cases hmem⟩
  | cons item rest ih =>
    simp only [List.foldlM_cons, bind_ok] at h
    obtain ⟨middle, hmerge, hrest⟩ := h
    obtain ⟨hstart, hall⟩ := ih hrest
    obtain ⟨hleft, hright⟩ := atMost_merge hmerge
    refine ⟨hleft.trans hstart, fun record hmem => ?_⟩
    rcases List.mem_cons.mp hmem with heq | hmem
    · rw [heq]
      exact hright.trans hstart
    · exact hall record hmem

theorem atMost_written (record : Records.Record Json) (actor : String) :
    AtMost record (record.written actor none false) := by
  intro other
  rw [Records.clockAt_written]
  split
  · next heq =>
    rw [heq]
    exact Nat.le_succ _
  · exact Nat.le_refl _

theorem source_filed (h : Reviewed lib document extra) {source : Source}
    (hmem : source ∈ sources document extra) : Records.isEntityId source.id = true := by
  rcases List.mem_append.mp hmem with hentity | hrow
  · cases hsync : document.sync with
    | none =>
      rw [hsync] at hentity
      cases hentity
    | some state =>
      rw [hsync] at hentity
      obtain ⟨entity, hvalue, heq⟩ := List.mem_map.mp hentity
      obtain ⟨key, hget⟩ := Dict.mem_values_iff.mp hvalue
      rw [← heq]
      exact ((h.document.sync state hsync).entities key entity hget).1.entity
  · obtain ⟨row, hvalue, heq⟩ := List.mem_map.mp hrow
    obtain ⟨key, hget⟩ := Dict.mem_values_iff.mp hvalue
    rw [← heq]
    exact (h.extra key row hget).entity

variable {result : Dict String Row}

/-- The new barrier is above the one before. -/
theorem Sealed.above_before (hlib : lib.Collisionless) (hreviewed : Reviewed lib document extra)
    (h : Sealed lib actor document extra result) {barrier : Row}
    (hget : (before document).get? (lib.entityKey scope identifier) = some barrier) :
    ∃ above, result.get? (lib.entityKey scope identifier) = some above ∧
      AtMost barrier.record above.record := by
  rw [before_get?] at hget
  have hfiled := barrierOf_filed hreviewed hget
  have hentity : Records.isEntityId identifier = true := (hfiled.eq hlib).2 ▸ hfiled.entity
  have hknows : Knows document extra (lib.entityKey scope identifier) :=
    .inr (by rw [hget]; exact Option.some_ne_none _)
  obtain ⟨joined, hknown, hresult⟩ := h.covers scope identifier hentity hknows
  refine ⟨_, hresult, ?_⟩
  unfold known at hknown
  rw [hget] at hknown
  exact (atMost_fold hknown).1.trans (atMost_written _ _)

/-- The new barrier is above every record that was erased. -/
theorem Sealed.above_source (hreviewed : Reviewed lib document extra)
    (h : Sealed lib actor document extra result) {source : Source}
    (hmem : source ∈ sources document extra) {record : Records.Record Json}
    (hrecord : record ∈ source.records) :
    ∃ above, result.get? (lib.entityKey source.scope source.id) = some above ∧
      AtMost record above.record := by
  have hbeside : record ∈ recordsBeside document extra (lib.entityKey source.scope source.id) := by
    rw [← flatMap_records, ← sources_filter hreviewed]
    refine List.mem_flatMap.mpr ⟨source, List.mem_filter.mpr ⟨hmem, ?_⟩, hrecord⟩
    exact decide_eq_true rfl
  have hknows : Knows document extra (lib.entityKey source.scope source.id) :=
    .inl (List.ne_nil_of_mem hbeside)
  obtain ⟨joined, hknown, hresult⟩ := h.covers _ _ (source_filed hreviewed hmem) hknows
  refine ⟨_, hresult, ?_⟩
  exact ((atMost_fold hknown).2 record hbeside).trans (atMost_written _ _)

theorem erasedState_get? {key : String} {entity : Entity} :
    (erasedState result state).entities.get? key = some entity ↔
      ∃ row, result.get? key = some row ∧ row.scope ∈ state.scopes ∧ entity = sealedEntity row := by
  unfold erasedState
  rw [Dict.get?_mapValues, Dict.get?_filter, Option.map_eq_some_iff]
  constructor
  · rintro ⟨row, hrow, heq⟩
    obtain ⟨hget, hscope⟩ := Option.filter_eq_some_iff.mp hrow
    exact ⟨row, hget, of_decide_eq_true hscope, heq.symm⟩
  · rintro ⟨row, hget, hscope, heq⟩
    exact ⟨row, Option.filter_eq_some_iff.mpr ⟨hget, decide_eq_true hscope⟩, heq.symm⟩

theorem before_filed (h : Reviewed lib document extra) {row : Row}
    (hmem : row ∈ (before document).values) :
    (before document).get? (lib.entityKey row.scope row.id) = some row := by
  obtain ⟨key, hget⟩ := Dict.mem_values_iff.mp hmem
  have hfiled := barrierOf_filed h (before_get? document key ▸ hget)
  rw [← hfiled.named]
  exact hget

theorem Sealed.fences (hlib : lib.Collisionless) (hreviewed : Reviewed lib document extra)
    (h : Sealed lib actor document extra result)
    (hold : ∀ row ∈ covered, ∃ barrier,
      (before document).get? (lib.entityKey row.scope row.id) = some barrier ∧
        AtMost row.record barrier.record) (hreceipt : receipt.barriers = result) :
    Fences lib (result.values ++ (coveredBy document extra ++ covered)) receipt := by
  intro row hmem
  rw [hreceipt]
  rcases List.mem_append.mp hmem with hnew | hmem
  · obtain ⟨key, hget⟩ := Dict.mem_values_iff.mp hnew
    have hnamed := (h.filed key row hget).1.named
    rw [← hnamed]
    exact ⟨row, hget, fun _ => Nat.le_refl _⟩
  · rcases List.mem_append.mp hmem with hmem | hmem
    · rcases List.mem_append.mp hmem with hsource | hbefore
      · obtain ⟨source, hsource, hrow⟩ := List.mem_flatMap.mp hsource
        obtain ⟨record, hrecord, heq⟩ := List.mem_map.mp hrow
        rw [← heq]
        exact h.above_source hreviewed hsource hrecord
      · exact h.above_before hlib hreviewed (before_filed hreviewed hbefore)
    · obtain ⟨barrier, hget, hbelow⟩ := hold row hmem
      obtain ⟨above, habove, hle⟩ := h.above_before hlib hreviewed hget
      exact ⟨above, habove, hbelow.trans hle⟩

theorem Sealed.quiet (hlib : lib.Collisionless) (h : Sealed lib actor document extra result)
    (hreceipt : receipt.barriers = result) (hfences : Fences lib covered receipt) :
    Quiet lib covered (erasedState result state) := by
  refine ⟨?_, ?_, ?_⟩
  · intro key entity hget
    obtain ⟨row, hrow, _, heq⟩ := erasedState_get?.mp hget
    rw [heq]
    exact (h.filed key row hrow).1.named
  · intro row hmem hscope
    obtain ⟨barrier, hbarrier, hbelow⟩ := hfences row hmem
    rw [hreceipt] at hbarrier
    obtain ⟨hsame, _⟩ := ((h.filed _ _ hbarrier).1).eq hlib
    refine ⟨sealedEntity barrier, erasedState_get?.mpr ⟨barrier, hbarrier, ?_, rfl⟩, hbelow⟩
    rw [hsame]
    exact hscope
  · intro key entity hget _
    obtain ⟨row, hrow, _, heq⟩ := erasedState_get?.mp hget
    have hblank := blank_of_isBarrier (h.filed key row hrow).2.1
    rw [heq]
    exact ⟨hblank, hblank⟩

theorem Sealed.accepted (h : Sealed lib actor document extra result)
    (haccepted : AcceptedState lib state) (hcapacity : result.entries.length ≤ MAX_ENTITIES) :
    AcceptedState lib (erasedState result state) := by
  refine ⟨haccepted.actor, haccepted.scopes, ?_, haccepted.failures, ?_⟩
  · refine le_trans ?_ hcapacity
    show (List.map _ (List.filter _ result.entries)).length ≤ result.entries.length
    rw [List.length_map]
    exact List.length_filter_le _ _
  · intro key entity hget
    obtain ⟨row, hrow, hscope, heq⟩ := erasedState_get?.mp hget
    have hfiled := (h.filed key row hrow).1
    rw [heq]
    exact ⟨hfiled, hscope, hfiled.valid⟩

theorem erasedDocument_parts (document : Document) (result : Dict String Row) (receipt : Receipt) :
    (erasedDocument document result receipt).2.rows = .empty ∧
      (erasedDocument document result receipt).2.receipt = some receipt ∧
      (erasedDocument document result receipt).2.sync =
        document.sync.map (erasedState result) := by
  cases document with
  | legacy header rows => exact ⟨rfl, rfl, rfl⟩
  | synced previous header rows state => cases previous <;> exact ⟨rfl, rfl, rfl⟩
  | erased header rows sync old => exact ⟨rfl, rfl, rfl⟩

/-- An erasure establishes the invariant for what it covers. -/
theorem Sealed.kept (hlib : lib.Collisionless) (hreviewed : Reviewed lib document extra)
    (h : Sealed lib actor document extra result)
    (hold : ∀ row ∈ covered, ∃ barrier,
      (before document).get? (lib.entityKey row.scope row.id) = some barrier ∧
        AtMost row.record barrier.record) (hreceipt : receipt.barriers = result)
    (haccepted : AcceptedReceipt lib receipt)
    (hactor : ∀ state, document.sync = some state → state.actor = receipt.actor)
    (hwritten : written = (erasedDocument document result receipt).2) :
    Kept lib ((before written).values ++ (coveredBy document extra ++ covered)) written ∧
      written.receipt = some receipt := by
  obtain ⟨hrows, hkept, hsync⟩ := erasedDocument_parts document result receipt
  rw [← hwritten] at hrows hkept hsync
  have hvalues : (before written).values = result.values := by
    unfold before
    rw [hkept, ← hreceipt]
    rfl
  have hfences := h.fences hlib hreviewed hold hreceipt
  rw [hvalues]
  refine ⟨⟨⟨?_, ?_, ?_⟩, ⟨receipt, hkept, hfences⟩, ?_, ?_⟩, hkept⟩
  · intro state hstate
    rw [hsync, Option.map_eq_some_iff] at hstate
    obtain ⟨old, hold, heq⟩ := hstate
    rw [← heq]
    exact h.accepted (hreviewed.document.sync old hold) (hreceipt ▸ haccepted.capacity)
  · intro found hfound
    rw [hkept] at hfound
    rw [← Option.some.inj hfound]
    exact haccepted
  · intro state found hstate hfound
    rw [hsync, Option.map_eq_some_iff] at hstate
    obtain ⟨old, hold, heq⟩ := hstate
    rw [hkept] at hfound
    rw [← heq, ← Option.some.inj hfound]
    exact hactor old hold
  · intro state hstate
    rw [hsync, Option.map_eq_some_iff] at hstate
    obtain ⟨old, _, heq⟩ := hstate
    rw [← heq]
    exact h.quiet hlib hreceipt hfences
  · rw [hrows]
    nofun

/-- What an erasure of its own makes of the document. -/
structure Erases (p : Platform) (actor token : String) (extra : Dict String Row)
    (document : Document) (covered : List Row) (count : Nat) (written : Document) : Prop where
  kept : Kept p.toLibrary
    ((before written).values ++ (coveredBy document extra ++ covered)) written
  receipt : ∃ receipt, written.receipt = some receipt ∧ receipt.reviewToken = token ∧
    receipt.actor = actor ∧ receipt.additionalRevision = p.rowsFingerprint extra ∧
    receipt.identities = count

/-- **An erasure** leaves barriers above all that it covers. -/
theorem eraseReviewed_erases {p : Platform} (hlib : p.toLibrary.Collisionless) {token : String}
    {outcome : Outcome Nat} (hreviewed : Reviewed p.toLibrary document extra)
    (hold : ∀ row ∈ covered, ∃ barrier,
      (before document).get? (p.entityKey row.scope row.id) = some barrier ∧
        AtMost row.record barrier.record)
    (hcall : eraseReviewed p actor token extra document = .ok outcome) :
    ∃ suffix written count, outcome = ⟨some (suffix, written), .ok count⟩ ∧
      Erases p actor token extra document covered count written := by
  simp only [eraseReviewed, checkIdentity, bind_ok, require_ok, pure_ok, receipt_check_ok] at hcall
  obtain ⟨_, ⟨_, hactor, _⟩, _, _, result, hresult, _, _, _, hreceipt, heq⟩ := hcall
  have hsealed := barriers_sealed hlib hreviewed hresult
  obtain ⟨hkept, hwritten⟩ := hsealed.kept hlib hreviewed hold rfl hreceipt hactor rfl
  exact ⟨_, _, _, heq.symm, hkept, _, hwritten, rfl, rfl, rfl, rfl⟩

/-! ### Runs -/

/-- A reading history with what its erasures covered, and how many there were. -/
structure Life where
  disk : Disk
  covered : List Row
  erasures : Nat

/-- The barriers that the file holds. -/
def barriersOf (disk : Disk) : Dict String Row := before (disk.file.getD .empty)

/-- What may happen after an erasure: scopes are enabled, other items are recorded, rows come
late, and further erasures are made, repeated or refused. -/
inductive Step (p : Platform) : Life → Life → Prop
  | enabled {life : Life} {io : Io} {actor : String} {selected : List ScopeName}
      {answer : Except String Unit} {next : Disk}
      (h : life.disk.run p.toLibrary io (enableSync p.toLibrary actor selected) = (answer, next)) :
      Step p life { life with disk := next }
  | recorded {life : Life} {io : Io} {change : Change} {answer : Except String Json} {next : Disk}
      (hother : itemId p.toPlatform change.item ∉ ids life.covered)
      (h : life.disk.run p.toLibrary io (record p.toPlatform change) = (answer, next)) :
      Step p life { life with disk := next }
  | received {life : Life} {first io : Io} {batch : List Row} {selected : List ScopeName}
      {expectedActor : Option String} {enable : Bool} {answer : Except String (List RowReceipt)}
      {next : Disk} (hstale : ∀ row ∈ batch, Stale life.covered row)
      (h : life.disk.syncReceive p.toPlatform first io batch selected expectedActor enable =
        (answer, next)) :
      Step p life { life with disk := next }
  | erased {life : Life} {io : Io} {actor token : String} {rows : Option (List Row)}
      {extra : Dict String Row} {document : Document} {count : Nat} {next : Disk}
      (hload : life.disk.load p.toLibrary = .ok document)
      (hextra : additional p.toLibrary rows = .ok extra)
      (hnew : ∀ receipt, document.receipt = some receipt → receipt.reviewToken ≠ token)
      (h : eraseSource p io life.disk actor token rows = (.ok count, next)) :
      Step p life
        ⟨next, (barriersOf next).values ++ (coveredBy document extra ++ life.covered),
          life.erasures + 1⟩
  | repeated {life : Life} {io : Io} {actor token : String} {rows : Option (List Row)}
      {document : Document} {receipt : Receipt} {count : Nat} {next : Disk}
      (hload : life.disk.load p.toLibrary = .ok document)
      (hreceipt : document.receipt = some receipt) (hsame : receipt.reviewToken = token)
      (h : eraseSource p io life.disk actor token rows = (.ok count, next)) :
      Step p life { life with disk := next }
  | refused {life : Life} {io : Io} {actor token : String} {rows : Option (List Row)}
      {error : String} {next : Disk}
      (h : eraseSource p io life.disk actor token rows = (.error error, next)) :
      Step p life { life with disk := next }

/-- The file keeps what was covered. -/
def Life.Holds (p : Platform) (life : Life) : Prop :=
  ∃ document, life.disk.file = some document ∧ Kept p.toLibrary life.covered document

/-- The receipt that the file holds. -/
def receiptOf (disk : Disk) : Option Receipt := disk.file.bind Document.receipt

section Runs

variable {α : Type} {io : Io} {disk after : Disk} {call : Document → Except String (Outcome α)}

theorem backUp_file {suffix : Option String} (h : disk.backUp io suffix = .ok after) :
    after.file = disk.file := by
  unfold Disk.backUp at h
  split at h
  · simp only [bind_ok, pure_ok] at h
    obtain ⟨_, _, heq⟩ := h
    rw [← heq]
  · injection h with h
    rw [← h]

/-- A call on the disk fails, or stores what it returned. -/
theorem run_file {answer : Except String α} (h : disk.run lib io call = (answer, after)) :
    (after.file = disk.file ∧ ∀ a, answer = .ok a → ∃ document outcome,
      disk.load lib = .ok document ∧ call document = .ok outcome ∧ outcome.write = none ∧
        outcome.answer = .ok a ∧ after = disk) ∨
    ∃ document outcome suffix written, disk.load lib = .ok document ∧
      call document = .ok outcome ∧ outcome.write = some (suffix, written) ∧
        after.file = some written ∧ answer = outcome.answer := by
  unfold Disk.run at h
  cases hcall : disk.load lib >>= call with
  | error e =>
    rw [hcall] at h
    injection h with hanswer hafter
    rw [← hafter]
    refine .inl ⟨rfl, fun a ha => ?_⟩
    rw [← hanswer] at ha
    cases ha
  | ok outcome =>
    rw [hcall] at h
    obtain ⟨document, hload, houtcome⟩ := bind_ok.mp hcall
    cases outcome with
    | mk write result =>
      cases write with
      | none =>
        injection h with hanswer hafter
        rw [← hafter]
        exact .inl ⟨rfl, fun a ha =>
          ⟨document, _, hload, houtcome, rfl, hanswer.trans ha, rfl⟩⟩
      | some write =>
        obtain ⟨suffix, written⟩ := write
        simp only at h
        cases hbackup : disk.backUp io suffix with
        | error e =>
          rw [hbackup] at h
          injection h with hanswer hafter
          rw [← hafter]
          refine .inl ⟨rfl, fun a ha => ?_⟩
          rw [← hanswer] at ha
          cases ha
        | ok backed =>
          rw [hbackup] at h
          simp only at h
          cases hsave : backed.save io written with
          | error e =>
            rw [hsave] at h
            injection h with hanswer hafter
            rw [← hafter]
            refine .inl ⟨backUp_file hbackup, fun a ha => ?_⟩
            rw [← hanswer] at ha
            cases ha
          | ok saved =>
            rw [hsave] at h
            injection h with hanswer hafter
            simp only [Disk.save, bind_ok, pure_ok] at hsave
            obtain ⟨_, _, heq⟩ := hsave
            rw [← hafter, ← heq]
            exact .inr ⟨document, _, suffix, written, hload, houtcome, rfl, rfl,
              hanswer.symm⟩

/-- A call that keeps the invariant of documents keeps that of the disk. -/
theorem Life.Holds.run {p : Platform} {life : Life} (h : life.Holds p)
    {answer : Except String α} (hrun : life.disk.run p.toLibrary io call = (answer, after))
    (hkeeps : ∀ document outcome suffix written, Kept p.toLibrary life.covered document →
      call document = .ok outcome → outcome.write = some (suffix, written) →
        Kept p.toLibrary life.covered written ∧ written.receipt = document.receipt) :
    Life.Holds p { life with disk := after } ∧ receiptOf after = receiptOf life.disk := by
  obtain ⟨document, hfile, hkept⟩ := h
  rcases run_file hrun with ⟨hsame, _⟩ | ⟨loaded, outcome, suffix, written, hload, hcall, hwrite,
      hafter, _⟩
  · refine ⟨⟨document, hsame.trans hfile, hkept⟩, ?_⟩
    unfold receiptOf
    rw [hsame]
  · have hdocument : document = loaded := by
      have heq := (load_ok.mp hload).2
      rw [hfile] at heq
      exact heq
    rw [hdocument] at hkept hfile
    obtain ⟨hwritten, hreceipt⟩ := hkeeps loaded outcome suffix written hkept hcall hwrite
    refine ⟨⟨written, hafter, hwritten⟩, ?_⟩
    unfold receiptOf
    rw [hafter, hfile]
    exact hreceipt

end Runs

section Steps

variable {p : Platform} {io : Io} {disk after : Disk} {actor token : String}
  {rows : Option (List Row)} {extra : Dict String Row} {count : Nat}

/-- An erasure is one that was made before, or one of its own. -/
theorem erase_parts {outcome : Outcome Nat}
    (h : erase p actor token extra document = .ok outcome) :
    (∃ receipt, document.receipt = some receipt ∧ receipt.reviewToken = token ∧
      receipt.actor = actor ∧ receipt.additionalRevision = p.rowsFingerprint extra ∧
      outcome = ⟨none, .ok receipt.identities⟩) ∨
    (∀ receipt, document.receipt = some receipt → receipt.reviewToken ≠ token) ∧
      eraseReviewed p actor token extra document = .ok outcome := by
  unfold erase at h
  split at h
  · next receipt hreceipt =>
    simp only [bind_ok, require_ok, pure_ok] at h
    obtain ⟨_, ⟨hactor, hrows⟩, heq⟩ := h
    obtain ⟨hsome, htoken⟩ := Option.filter_eq_some_iff.mp hreceipt
    exact .inl ⟨receipt, hsome, of_decide_eq_true htoken, hactor, hrows, heq.symm⟩
  · next hnone =>
    refine .inr ⟨fun receipt hreceipt htoken => ?_, h⟩
    have hfilter := Option.filter_eq_none_iff.mp hnone receipt hreceipt
    exact hfilter (decide_eq_true htoken)

theorem erase_repeated (hreceipt : document.receipt = some receipt)
    (htoken : receipt.reviewToken = token) (hactor : receipt.actor = actor)
    (hrows : receipt.additionalRevision = p.rowsFingerprint extra) :
    erase p actor token extra document = .ok ⟨none, .ok receipt.identities⟩ := by
  have hfilter : (document.receipt.filter fun receipt => receipt.reviewToken = token) =
      some receipt := Option.filter_eq_some_iff.mpr ⟨hreceipt, decide_eq_true htoken⟩
  unfold erase
  rw [hfilter]
  simp only [require_of, hactor, hrows, and_self, ok_bind]
  rfl

/-- What an erasure that succeeds did. -/
theorem eraseSource_ok (h : eraseSource p io disk actor token rows = (.ok count, after)) :
    ∃ extra document, additional p.toLibrary rows = .ok extra ∧
      disk.load p.toLibrary = .ok document ∧
      ((∃ receipt, document.receipt = some receipt ∧ receipt.reviewToken = token ∧ after = disk) ∨
        (∀ receipt, document.receipt = some receipt → receipt.reviewToken ≠ token) ∧
          ∃ suffix written, eraseReviewed p actor token extra document =
            .ok ⟨some (suffix, written), .ok count⟩ ∧ after.file = some written) := by
  unfold eraseSource at h
  cases hrequest : checkRequest p.toLibrary token rows with
  | error e =>
    rw [hrequest] at h
    cases h
  | ok extra =>
    rw [hrequest] at h
    simp only [checkRequest, bind_ok] at hrequest
    obtain ⟨_, _, hextra⟩ := hrequest
    rcases run_file h with ⟨_, hall⟩ | ⟨document, outcome, suffix, written, hload, hcall, hwrite,
        hafter, hanswer⟩
    · obtain ⟨document, outcome, hload, hcall, hwrite, _, hsame⟩ := hall count rfl
      refine ⟨extra, document, hextra, hload, ?_⟩
      rcases erase_parts hcall with ⟨receipt, hreceipt, htoken, _⟩ | ⟨_, hreviewed⟩
      · exact .inl ⟨receipt, hreceipt, htoken, hsame⟩
      · simp only [eraseReviewed, bind_ok, pure_ok] at hreviewed
        obtain ⟨_, _, _, _, _, _, _, _, _, _, heq⟩ := hreviewed
        rw [← heq] at hwrite
        cases hwrite
    · refine ⟨extra, document, hextra, hload, ?_⟩
      rcases erase_parts hcall with ⟨receipt, _, _, _, _, heq⟩ | ⟨hnew, hreviewed⟩
      · rw [heq] at hwrite
        cases hwrite
      · refine .inr ⟨hnew, suffix, written, ?_, hafter⟩
        rw [hreviewed]
        cases outcome with
        | mk write result =>
          have hwrite : write = some (suffix, written) := hwrite
          rw [hwrite, hanswer]

/-- An erasure that raises leaves the stored document. -/
theorem eraseSource_error {error : String}
    (h : eraseSource p io disk actor token rows = (.error error, after)) :
    after.file = disk.file := by
  unfold eraseSource at h
  cases hrequest : checkRequest p.toLibrary token rows with
  | error e =>
    rw [hrequest] at h
    injection h with _ hafter
    rw [← hafter]
  | ok extra =>
    rw [hrequest] at h
    rcases run_file h with ⟨hsame, _⟩ | ⟨document, outcome, suffix, written, _, hcall, hwrite, _,
        hanswer⟩
    · exact hsame
    · rcases erase_parts hcall with ⟨receipt, _, _, _, _, heq⟩ | ⟨_, hreviewed⟩
      · rw [heq] at hwrite
        cases hwrite
      · simp only [eraseReviewed, bind_ok, pure_ok] at hreviewed
        obtain ⟨_, _, _, _, _, _, _, _, _, _, heq⟩ := hreviewed
        rw [← heq] at hanswer
        cases hanswer

/-- **One erasure of its own**: what it covers is kept from then on. -/
theorem eraseSource_holds (hp : p.Faithful) (covered : List Row)
    (hload : disk.load p.toLibrary = .ok document)
    (hextra : additional p.toLibrary rows = .ok extra)
    (hnew : ∀ receipt, document.receipt = some receipt → receipt.reviewToken ≠ token)
    (hold : ∀ row ∈ covered, ∃ barrier,
      (before document).get? (p.entityKey row.scope row.id) = some barrier ∧
        AtMost row.record barrier.record)
    (h : eraseSource p io disk actor token rows = (.ok count, after)) :
    ∃ written, after.file = some written ∧
      Erases p actor token extra document covered count written := by
  obtain ⟨extra', document', hextra', hload', hcases⟩ := eraseSource_ok h
  have hsame := Except.ok.inj (hextra'.symm.trans hextra)
  have hdocument := Except.ok.inj (hload'.symm.trans hload)
  rw [hsame, hdocument] at hcases
  rcases hcases with ⟨receipt, hreceipt, htoken, _⟩ | ⟨_, suffix, written, hreviewed, hafter⟩
  · exact absurd htoken (hnew receipt hreceipt)
  · obtain ⟨suffix', written', count', heq, herases⟩ := eraseReviewed_erases hp.library
      ⟨(load_ok.mp hload).1, additional_filed hextra⟩ hold hreviewed
    injection heq with hwrite hanswer
    have hwritten := (Prod.ext_iff.mp (Option.some.inj hwrite)).2
    have hcount := Except.ok.inj hanswer
    have hwritten : written = written' := hwritten
    rw [hwritten] at hafter
    rw [hcount]
    exact ⟨written', hafter, herases⟩

variable {life later : Life}

theorem Life.Holds.fenced (h : life.Holds p) (hload : life.disk.load p.toLibrary = .ok document) :
    ∀ row ∈ life.covered, ∃ barrier,
      (before document).get? (p.entityKey row.scope row.id) = some barrier ∧
        AtMost row.record barrier.record := by
  obtain ⟨stored, hfile, hkept⟩ := h
  have hdocument : stored = document := by
    have heq := (load_ok.mp hload).2
    rw [hfile] at heq
    exact heq
  obtain ⟨receipt, hreceipt, hfences⟩ := hkept.receipt
  rw [hdocument] at hreceipt
  intro row hmem
  obtain ⟨barrier, hget, hbelow⟩ := hfences row hmem
  refine ⟨barrier, ?_, hbelow⟩
  unfold before
  rw [hreceipt]
  exact hget

theorem Life.Holds.enabled (hp : p.Faithful) (h : life.Holds p) {answer : Except String Unit}
    (hrun : life.disk.run p.toLibrary io (enableSync p.toLibrary actor selected) =
      (answer, after)) :
    Life.Holds p { life with disk := after } ∧ receiptOf after = receiptOf life.disk :=
  h.run hrun fun _ _ _ _ hkept hcall hwrite => hkept.enableSync hp.library hcall hwrite

theorem Life.Holds.received (hp : p.Faithful) (h : life.Holds p) {first : Io} {batch : List Row}
    {expectedActor : Option String} {enable : Bool} {answer : Except String (List RowReceipt)}
    (hstale : ∀ row ∈ batch, Stale life.covered row)
    (hrun : life.disk.syncReceive p.toPlatform first io batch selected expectedActor enable =
      (answer, after)) :
    Life.Holds p { life with disk := after } ∧ receiptOf after = receiptOf life.disk := by
  have hreceive : ∀ {middle : Disk}, Life.Holds p { life with disk := middle } →
      ∀ {answer : Except String (List RowReceipt)} {after : Disk},
        middle.run p.toLibrary io (receive p.toPlatform batch selected expectedActor) =
          (answer, after) →
        Life.Holds p { life with disk := after } ∧ receiptOf after = receiptOf middle := by
    intro middle hholds answer after hrun
    exact hholds.run hrun fun _ _ _ _ hkept hcall hwrite =>
      hkept.receive hp.library hstale hcall hwrite
  unfold Disk.syncReceive at hrun
  split at hrun
  · injection hrun with _ hafter
    rw [← hafter]
    exact ⟨h, rfl⟩
  · split at hrun
    · split at hrun
      · next hfirst =>
        injection hrun with _ hafter
        rw [← hafter]
        exact h.enabled hp hfirst
      · next hfirst =>
        obtain ⟨hmiddle, hreceipt⟩ := h.enabled hp hfirst
        obtain ⟨hlast, hreceipt'⟩ := hreceive hmiddle hrun
        exact ⟨hlast, hreceipt'.trans hreceipt⟩
    · exact hreceive h hrun

theorem barriersOf_file {disk : Disk} (hfile : disk.file = some document) :
    barriersOf disk = before document := by
  unfold barriersOf
  rw [hfile]
  rfl

/-- **One step** keeps what was covered, and but for a further erasure the receipt. -/
theorem Step.holds (hp : p.Faithful) (hstr : ∀ text, p.str (.str text) = text)
    (hstep : Step p life later) (h : life.Holds p) :
    later.Holds p ∧ (∃ further, later.covered = further ++ life.covered) ∧
      life.erasures ≤ later.erasures ∧
      (later.erasures = life.erasures → receiptOf later.disk = receiptOf life.disk) := by
  cases hstep with
  | enabled hrun =>
    obtain ⟨hholds, hreceipt⟩ := h.enabled hp hrun
    exact ⟨hholds, ⟨[], rfl⟩, Nat.le_refl _, fun _ => hreceipt⟩
  | recorded hother hrun =>
    obtain ⟨hholds, hreceipt⟩ := h.run hrun fun _ _ _ _ hkept hcall hwrite =>
      hkept.record hp.library hstr hother hcall hwrite
    exact ⟨hholds, ⟨[], rfl⟩, Nat.le_refl _, fun _ => hreceipt⟩
  | received hstale hrun =>
    obtain ⟨hholds, hreceipt⟩ := h.received hp hstale hrun
    exact ⟨hholds, ⟨[], rfl⟩, Nat.le_refl _, fun _ => hreceipt⟩
  | @erased io actor token rows extra document count next hload hextra hnew hcall =>
    obtain ⟨written, hafter, herases⟩ := eraseSource_holds hp life.covered hload hextra hnew
      (h.fenced hload) hcall
    refine ⟨⟨written, hafter, ?_⟩, ⟨(barriersOf next).values ++ coveredBy document extra, ?_⟩,
      Nat.le_succ _, fun hsame => absurd hsame (Nat.succ_ne_self _)⟩
    · show Kept p.toLibrary ((barriersOf next).values ++ _) written
      rw [barriersOf_file hafter]
      exact herases.kept
    · rw [List.append_assoc]
  | @repeated io actor token rows document receipt count next hload hreceipt hsame hcall =>
    have hdisk : next = life.disk := by
      obtain ⟨_, document', _, hload', hcases⟩ := eraseSource_ok hcall
      have hdocument := Except.ok.inj (hload'.symm.trans hload)
      rw [hdocument] at hcases
      rcases hcases with ⟨_, _, _, heq⟩ | ⟨hnew, _⟩
      · exact heq
      · exact absurd hsame (hnew receipt hreceipt)
    rw [hdisk]
    exact ⟨h, ⟨[], rfl⟩, Nat.le_refl _, fun _ => rfl⟩
  | refused hcall =>
    have hfile := eraseSource_error hcall
    obtain ⟨document, hstored, hkept⟩ := h
    refine ⟨⟨document, hfile.trans hstored, hkept⟩, ⟨[], rfl⟩, Nat.le_refl _, fun _ => ?_⟩
    unfold receiptOf
    rw [hfile]

/-- **A whole run** keeps what was covered. -/
theorem runs_hold (hp : p.Faithful) (hstr : ∀ text, p.str (.str text) = text) (h : life.Holds p)
    (hrun : Relation.ReflTransGen (Step p) life later) :
    later.Holds p ∧ (∃ further, later.covered = further ++ life.covered) ∧
      life.erasures ≤ later.erasures ∧
      (later.erasures = life.erasures → receiptOf later.disk = receiptOf life.disk) := by
  induction hrun with
  | refl => exact ⟨h, ⟨[], rfl⟩, Nat.le_refl _, fun _ => rfl⟩
  | tail _ hstep ih =>
    obtain ⟨hholds, ⟨further, hcovered⟩, hle, hreceipt⟩ := ih
    obtain ⟨hlast, ⟨more, hmore⟩, hle', hreceipt'⟩ := hstep.holds hp hstr hholds
    refine ⟨hlast, ⟨more ++ further, ?_⟩, hle.trans hle', fun hsame => ?_⟩
    · rw [hmore, hcovered, List.append_assoc]
    · exact (hreceipt' (by omega)).trans (hreceipt (by omega))

end Steps

end ReadingPrivacy
