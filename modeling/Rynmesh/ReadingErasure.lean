import Rynmesh.CausalRoom
import Rynmesh.KeyedFold
import Rynmesh.LocalWrites
import Rynmesh.ReadingPrivacy

/-!
# What an erasure of the reading history leaves

* `AcceptedDocument` is what the checks of a file establish;
* `barriers_iff` says when the barriers of an erasure can be made;
* `Barriers` says what they cover.
-/

namespace ReadingPrivacy

open Checked Reading Consumption
open SyncValues (ScopeName)
open Records (Valid validate_ok isActorId isEntityId merge_iff Above)

variable {lib : Library} {actor : String}

/-! ### The checks of a file -/

/-- A record that is stored under the key of its scope and id. -/
structure Filed (lib : Library) (key : String) (scope : ScopeName) (identifier : String)
    (record : Records.Record Json) : Prop where
  listed : scope ∈ SCOPES
  entity : isEntityId identifier = true
  named : key = lib.entityKey scope identifier
  valid : Valid (lib.scope scope) identifier record

structure AcceptedState (lib : Library) (state : ReadingState) : Prop where
  actor : isActorId state.actor = true
  scopes : state.scopes.Nodup ∧ ∀ scope ∈ state.scopes, scope ∈ SCOPES
  capacity : state.entities.entries.length ≤ MAX_ENTITIES
  failures : state.failures.entries.length ≤ MAX_FAILURES
  entities : ∀ key entity, state.entities.get? key = some entity →
    Filed lib key entity.scope entity.id entity.record ∧ entity.scope ∈ state.scopes ∧
      Valid (lib.scope entity.scope) entity.id entity.projected

structure AcceptedReceipt (lib : Library) (receipt : Receipt) : Prop where
  actor : isActorId receipt.actor = true
  tokens : isToken receipt.reviewToken = true ∧ isToken receipt.additionalRevision = true
  capacity : receipt.barriers.entries.length ≤ MAX_ENTITIES
  barriers : ∀ key row, receipt.barriers.get? key = some row →
    Filed lib key row.scope row.id row.record ∧ isBarrier receipt.actor row.record = true
  identities : receipt.identities ≤ MAX_ENTITIES

structure AcceptedDocument (lib : Library) (document : Document) : Prop where
  sync : ∀ state, document.sync = some state → AcceptedState lib state
  receipt : ∀ receipt, document.receipt = some receipt → AcceptedReceipt lib receipt
  actor : ∀ state receipt, document.sync = some state → document.receipt = some receipt →
    state.actor = receipt.actor

variable {scope : ScopeName} {identifier : String}

theorem key_ok {key : String} :
    Reading.key lib scope identifier = .ok key ↔
      isEntityId identifier = true ∧ key = lib.entityKey scope identifier := by
  simp only [Reading.key, bind_ok, require_ok, pure_ok, exists_const]
  exact and_congr Iff.rfl eq_comm

variable {u : Unit}

theorem discard_ok {α : Type} {x : Except String α} : discard x = .ok u ↔ ∃ a, x = .ok a := by
  cases x with
  | ok a => exact ⟨fun _ => ⟨a, rfl⟩, fun _ => rfl⟩
  | error e =>
    constructor
    · intro h
      have hfalse : (.error e : Except String Unit) = .ok u := h
      cases hfalse
    · rintro ⟨a, ha⟩
      cases ha

theorem scopes_ok {value result : List ScopeName} : scopes value = .ok result ↔
    (value.Nodup ∧ ∀ scope ∈ value, scope ∈ SCOPES) ∧ result = value := by
  simp only [scopes, bind_ok, require_ok, pure_ok, exists_const]
  exact and_congr Iff.rfl eq_comm

theorem checkEntity_ok {state : ReadingState} {entry : String × Entity} :
    checkEntity lib state entry = .ok u ↔
      Filed lib entry.1 entry.2.scope entry.2.id entry.2.record ∧
        entry.2.scope ∈ state.scopes ∧
        Valid (lib.scope entry.2.scope) entry.2.id entry.2.projected := by
  unfold checkEntity
  simp only [bind_ok, require_ok, key_ok, validate_ok]
  constructor
  · rintro ⟨_, hscope, _, ⟨hentity, rfl⟩, _, hkey, _, henabled, _, hvalid, hprojected⟩
    exact ⟨⟨hscope, hentity, hkey, hvalid⟩, henabled, hprojected⟩
  · rintro ⟨hfiled, henabled, hprojected⟩
    exact ⟨(), hfiled.listed, _, ⟨hfiled.entity, rfl⟩, (), hfiled.named, (), henabled, (),
      hfiled.valid, hprojected⟩

theorem checkState_ok {state : ReadingState} :
    checkState lib state = .ok u ↔ AcceptedState lib state := by
  unfold checkState
  simp only [bind_ok, require_ok, discard_ok, scopes_ok, List.forM_eq_forM, forM_ok,
    checkEntity_ok]
  constructor
  · rintro ⟨_, hactor, _, ⟨_, hscopes, _⟩, _, hcapacity, _, hfailures, hentities⟩
    refine ⟨hactor, hscopes, hcapacity, hfailures, ?_⟩
    intro key entity hget
    exact hentities (key, entity) (Dict.get?_eq_some_iff.mp hget)
  · intro h
    refine ⟨(), h.actor, (), ⟨_, h.scopes, rfl⟩, (), h.capacity, (), h.failures, ?_⟩
    intro entry hmem
    exact h.entities entry.1 entry.2 (Dict.get?_eq_some_iff.mpr hmem)

theorem checkBarrier_ok {entry : String × Row} :
    checkBarrier lib actor entry = .ok u ↔
      Filed lib entry.1 entry.2.scope entry.2.id entry.2.record ∧
        isBarrier actor entry.2.record = true := by
  unfold checkBarrier
  simp only [bind_ok, require_ok, key_ok, validate_ok]
  constructor
  · rintro ⟨_, hscope, _, ⟨hentity, rfl⟩, _, hkey, _, hvalid, hbarrier⟩
    exact ⟨⟨hscope, hentity, hkey, hvalid⟩, hbarrier⟩
  · rintro ⟨hfiled, hbarrier⟩
    exact ⟨(), hfiled.listed, _, ⟨hfiled.entity, rfl⟩, (), hfiled.named, (), hfiled.valid, hbarrier⟩

theorem receipt_check_ok {receipt : Receipt} :
    receipt.check lib = .ok u ↔ AcceptedReceipt lib receipt := by
  unfold Receipt.check
  simp only [bind_ok, require_ok, List.forM_eq_forM, forM_ok, checkBarrier_ok]
  constructor
  · rintro ⟨_, hactor, _, ⟨htoken, hrevision, hcapacity⟩, _, hbarriers, hidentities⟩
    refine ⟨hactor, ⟨htoken, hrevision⟩, hcapacity, ?_, hidentities⟩
    intro key row hget
    exact hbarriers (key, row) (Dict.get?_eq_some_iff.mp hget)
  · intro h
    refine ⟨(), h.actor, (), ⟨h.tokens.1, h.tokens.2, h.capacity⟩, (), ?_, h.identities⟩
    intro entry hmem
    exact h.barriers entry.1 entry.2 (Dict.get?_eq_some_iff.mpr hmem)

variable {document : Document}

theorem document_check_ok : document.check lib = .ok u ↔ AcceptedDocument lib document := by
  cases document with
  | legacy header rows =>
    refine ⟨fun _ => ⟨?_, ?_, ?_⟩, fun _ => rfl⟩
    · nofun
    · nofun
    · nofun
  | synced previous header rows sync =>
    show checkState lib sync = .ok u ↔ _
    rw [checkState_ok]
    constructor
    · intro h
      refine ⟨?_, ?_, ?_⟩
      · intro state hsync
        injection hsync with hsync
        rw [← hsync]
        exact h
      · nofun
      · nofun
    · intro h
      exact h.sync sync rfl
  | erased header rows sync receipt =>
    cases sync with
    | none =>
      show receipt.check lib = .ok u ↔ _
      rw [receipt_check_ok]
      constructor
      · intro h
        refine ⟨?_, ?_, ?_⟩
        · nofun
        · intro other hreceipt
          injection hreceipt with hreceipt
          rw [← hreceipt]
          exact h
        · nofun
      · intro h
        exact h.receipt receipt rfl
    | some sync =>
      simp only [Document.check, bind_ok, require_ok, receipt_check_ok, checkState_ok]
      constructor
      · rintro ⟨_, hreceipt, _, hactor, hstate⟩
        refine ⟨?_, ?_, ?_⟩
        · intro state hsync
          injection hsync with hsync
          rw [← hsync]
          exact hstate
        · intro other hother
          injection hother with hother
          rw [← hother]
          exact hreceipt
        · intro state other hsync hother
          injection hsync with hsync
          injection hother with hother
          rw [← hsync, ← hother]
          exact hactor
      · intro h
        exact ⟨(), h.receipt receipt rfl, (), h.actor sync receipt rfl rfl, h.sync sync rfl⟩

variable {disk : Disk}

theorem load_ok : disk.load lib = .ok document ↔
    AcceptedDocument lib document ∧ disk.file.getD .empty = document := by
  simp only [Disk.load, bind_ok, document_check_ok, pure_ok]
  constructor
  · rintro ⟨_, hcheck, heq⟩
    exact ⟨heq ▸ hcheck, heq⟩
  · rintro ⟨hcheck, heq⟩
    exact ⟨(), heq ▸ hcheck, heq⟩

variable {rows : Option (List Row)}

theorem additional_filed {extra : Dict String Row} (h : additional lib rows = .ok extra)
    (key : String) (row : Row) (hget : extra.get? key = some row) :
    Filed lib key row.scope row.id row.record := by
  cases rows with
  | none =>
    injection h with h
    rw [← h] at hget
    cases hget
  | some rows =>
    simp only [additional, bind_ok] at h
    obtain ⟨_, _, hfold⟩ := h
    refine foldlM_ok_induction (fun _ (result : Dict String Row) => ∀ key row,
      result.get? key = some row → Filed lib key row.scope row.id row.record) ?_ rows [] _ _
      ?_ hfold key row hget
    · intro _ result row next hfiled hstep
      simp only [addRow, bind_ok, require_ok, key_ok, validate_ok, pure_ok] at hstep
      obtain ⟨_, hscope, key, ⟨hentity, hkey⟩, _, _, _, hvalid, heq⟩ := hstep
      rw [← heq]
      exact Dict.forall_get?_set ⟨hscope, hentity, hkey, hvalid⟩ hfiled
    · nofun

/-! ### What an erasure knows -/

theorem texts (lib : Library) (scope : ScopeName) : (lib.scope scope).Texts :=
  ⟨_, fun _ => rfl, rfl⟩

/-- The key of a record that an erasure covers. -/
def Source.key (lib : Library) (source : Source) : String :=
  lib.entityKey source.scope source.id

def Source.records (source : Source) : List (Records.Record Json) :=
  source.record :: source.projected.toList

/-- `gather` on the entry of the record's key. -/
def joinSource (lib : Library) (prior : Option Row) (source : Source) : Except String Row := do
  require "sync_entity_invalid" (isEntityId source.id = true)
  let joined ← source.records.foldlM (Records.merge (lib.scope source.scope) source.id)
    ((prior.map Row.record).getD Records.empty)
  return ⟨source.scope, source.id, joined⟩

theorem gather_eq : gather lib = stepKeyed (Source.key lib) (joinSource lib) := by
  funext known source
  unfold gather stepKeyed joinSource Reading.key Source.records Source.key
  by_cases hentity : isEntityId source.id = true
  · rw [require_of hentity]
    cases source.projected with
    | none =>
      simp only [ok_bind, Option.toList_none, List.foldlM_cons, List.foldlM_nil, bind_assoc,
        pure_bind]
    | some projected =>
      simp only [ok_bind, Option.toList_some, List.foldlM_cons, List.foldlM_nil, bind_assoc,
        pure_bind, bind_pure]
  · have hfails : (require "sync_entity_invalid" (isEntityId source.id = true) :
        Except String PUnit) = .error "sync_entity_invalid" := by
      unfold require
      rw [if_neg hentity]
    rw [hfails]
    rfl

/-- The barrier of an earlier erasure, or nothing. -/
def barrierOf (document : Document) (key : String) : Option Row :=
  document.receipt.bind fun receipt => receipt.barriers.get? key

/-- The records of an entity beside its barrier: in the source, with what is shown of it,
and in the replica. -/
def recordsBeside (document : Document) (extra : Dict String Row) (key : String) :
    List (Records.Record Json) :=
  ((document.sync.bind fun state => state.entities.get? key).map fun entity =>
      [entity.record, entity.projected]).getD [] ++
    ((extra.get? key).map Row.record).toList

/-- All that an erasure knows of an entity, joined. -/
def known (lib : Library) (document : Document) (extra : Dict String Row) (scope : ScopeName)
    (identifier : String) : Except String (Records.Record Json) :=
  (recordsBeside document extra (lib.entityKey scope identifier)).foldlM
    (Records.merge (lib.scope scope) identifier)
    (((barrierOf document (lib.entityKey scope identifier)).map Row.record).getD Records.empty)

/-- What is known of an entity can be joined, and has room for a deletion. -/
def Erasable (lib : Library) (actor : String) (document : Document) (extra : Dict String Row)
    (scope : ScopeName) (identifier : String) : Prop :=
  ∃ joined, known lib document extra scope identifier = .ok joined ∧ joined.Room actor

section Known

variable {document : Document} {extra : Dict String Row}

theorem entry_fold (hentity : isEntityId identifier = true) {items : List Source}
   
    (hitems : ∀ item ∈ items, item.scope = scope ∧ item.id = identifier)
    {prior entry : Option Row} :
    items.foldlM (stepEntry (joinSource lib)) prior = .ok entry ↔
      ∃ joined, (items.flatMap Source.records).foldlM (Records.merge (lib.scope scope) identifier)
        ((prior.map Row.record).getD Records.empty) = .ok joined ∧
          entry = if items = [] then prior else some ⟨scope, identifier, joined⟩ := by
  induction items generalizing prior with
  | nil =>
    simp only [List.foldlM_nil, pure_ok, List.flatMap_nil, if_pos]
    constructor
    · intro h
      exact ⟨_, rfl, h.symm⟩
    · rintro ⟨_, _, heq⟩
      exact heq.symm
  | cons item rest ih =>
    obtain ⟨hscope, hid⟩ := hitems item (.head _)
    have hfirst : ∀ row, joinSource lib prior item = .ok row ↔ ∃ joined,
        item.records.foldlM (Records.merge (lib.scope scope) identifier)
          ((prior.map Row.record).getD Records.empty) = .ok joined ∧
          row = ⟨scope, identifier, joined⟩ := by
      intro row
      unfold joinSource
      rw [hscope, hid, require_of hentity]
      simp only [ok_bind, bind_ok, pure_ok]
      exact exists_congr fun joined => and_congr Iff.rfl eq_comm
    rw [List.foldlM_cons, bind_ok, List.flatMap_cons, List.foldlM_append]
    simp only [bind_ok, stepEntry_ok, hfirst, reduceCtorEq, if_false]
    constructor
    · rintro ⟨next, ⟨row, ⟨joined, hjoined, hrow⟩, hnext⟩, hrest⟩
      rw [hnext, hrow] at hrest
      obtain ⟨whole, hwhole, hentry⟩ :=
        (ih fun item hmem => hitems item (.tail _ hmem)).mp hrest
      refine ⟨whole, ⟨joined, hjoined, hwhole⟩, ?_⟩
      rw [hentry]
      split
      · next hnil =>
        rw [hnil] at hwhole
        simp only [List.flatMap_nil, List.foldlM_nil, pure_ok, Option.map_some,
          Option.getD_some] at hwhole
        rw [hwhole]
      · rfl
    · rintro ⟨whole, ⟨joined, hjoined, hwhole⟩, hentry⟩
      refine ⟨_, ⟨_, ⟨joined, hjoined, rfl⟩, rfl⟩,
        (ih fun item hmem => hitems item (.tail _ hmem)).mpr
          ⟨whole, hwhole, ?_⟩⟩
      rw [hentry]
      split
      · next hnil =>
        rw [hnil] at hwhole
        simp only [List.flatMap_nil, List.foldlM_nil, pure_ok] at hwhole
        rw [← hwhole]
      · rfl

/-- What an erasure works on: an accepted file and rows of the replica. -/
structure Reviewed (lib : Library) (document : Document) (extra : Dict String Row) : Prop where
  document : AcceptedDocument lib document
  extra : ∀ key row, extra.get? key = some row → Filed lib key row.scope row.id row.record

theorem sources_filter (h : Reviewed lib document extra) (key : String) :
    ((sources document extra).filter fun source => source.key lib = key) =
      ((document.sync.bind fun state => state.entities.get? key).map Source.ofEntity).toList ++
        ((extra.get? key).map Source.ofRow).toList := by
  have hrows := values_filter (fun row : Row => lib.entityKey row.scope row.id)
    (fun k row hget => (h.extra k row hget).named) key
  unfold sources
  rw [List.filter_append]
  congr 1
  · cases hsync : document.sync with
    | none => rfl
    | some state =>
      have hentities := values_filter
        (fun entity : Entity => lib.entityKey entity.scope entity.id)
        (fun k entity hget => ((h.document.sync state hsync).entities k entity hget).1.named) key
      rw [List.filter_map]
      show List.map Source.ofEntity (state.entities.values.filter fun entity =>
        lib.entityKey entity.scope entity.id = key) = _
      rw [hentities, Option.bind_some]
      cases state.entities.get? key <;> rfl
  · rw [List.filter_map]
    show List.map Source.ofRow (extra.values.filter fun row =>
      lib.entityKey row.scope row.id = key) = _
    rw [hrows]
    cases extra.get? key <;> rfl

theorem barrierOf_filed (h : Reviewed lib document extra) {key : String} {row : Row}
    (hget : barrierOf document key = some row) : Filed lib key row.scope row.id row.record := by
  obtain ⟨receipt, hreceipt, hrow⟩ := Option.bind_eq_some_iff.mp hget
  exact ((h.document.receipt receipt hreceipt).barriers key row hrow).1

variable {record : Records.Record Json}

theorem Filed.eq (hlib : lib.Collisionless) {other : ScopeName} {name : String}
    (h : Filed lib (lib.entityKey scope identifier) other name record) :
    other = scope ∧ name = identifier := by
  obtain ⟨hscope, hid⟩ := hlib.entityKey _ _ _ _ h.named
  exact ⟨hscope.symm, hid.symm⟩

theorem source_eq (hlib : lib.Collisionless) (h : Reviewed lib document extra) :
    ∀ source ∈ ((document.sync.bind fun state =>
        state.entities.get? (lib.entityKey scope identifier)).map Source.ofEntity).toList ++
      ((extra.get? (lib.entityKey scope identifier)).map Source.ofRow).toList,
      source.scope = scope ∧ source.id = identifier := by
  intro source hmem
  rcases List.mem_append.mp hmem with hmem | hmem
  · rw [Option.mem_toList, Option.map_eq_some_iff] at hmem
    obtain ⟨entity, hentity, heq⟩ := hmem
    obtain ⟨state, hsync, hget⟩ := Option.bind_eq_some_iff.mp hentity
    rw [← heq]
    exact (((h.document.sync state hsync).entities _ _ hget).1).eq hlib
  · rw [Option.mem_toList, Option.map_eq_some_iff] at hmem
    obtain ⟨row, hget, heq⟩ := hmem
    rw [← heq]
    exact (h.extra _ _ hget).eq hlib

theorem flatMap_records (document : Document) (extra : Dict String Row) (key : String) :
    ((((document.sync.bind fun state => state.entities.get? key).map Source.ofEntity).toList ++
      ((extra.get? key).map Source.ofRow).toList).flatMap Source.records) =
      recordsBeside document extra key := by
  unfold recordsBeside
  cases (document.sync.bind fun state => state.entities.get? key) <;>
    cases extra.get? key <;> rfl

/-- The barriers of the erasure before. -/
def before (document : Document) : Dict String Row :=
  (document.receipt.map Receipt.barriers).getD .empty

theorem before_get? (document : Document) (key : String) :
    (before document).get? key = barrierOf document key := by
  unfold before barrierOf
  cases document.receipt <;> rfl

theorem gathered_entry (hlib : lib.Collisionless) (h : Reviewed lib document extra)
    (hentity : isEntityId identifier = true) {entry : Option Row} :
    ((sources document extra).filter fun source =>
        source.key lib = lib.entityKey scope identifier).foldlM (stepEntry (joinSource lib))
      ((before document).get? (lib.entityKey scope identifier)) = .ok entry ↔
      ∃ joined, known lib document extra scope identifier = .ok joined ∧
        entry = if recordsBeside document extra (lib.entityKey scope identifier) = [] ∧
            barrierOf document (lib.entityKey scope identifier) = none then none
          else some ⟨scope, identifier, joined⟩ := by
  have hempty : (((document.sync.bind fun state =>
        state.entities.get? (lib.entityKey scope identifier)).map Source.ofEntity).toList ++
      ((extra.get? (lib.entityKey scope identifier)).map Source.ofRow).toList) = [] ↔
      recordsBeside document extra (lib.entityKey scope identifier) = [] := by
    unfold recordsBeside
    cases (document.sync.bind fun state =>
      state.entities.get? (lib.entityKey scope identifier)) <;>
      cases extra.get? (lib.entityKey scope identifier) <;> simp
  rw [sources_filter h, entry_fold hentity (source_eq hlib h), flatMap_records, before_get?]
  refine exists_congr fun joined => and_congr_right fun hjoined => ?_
  simp only [hempty]
  cases hbarrier : barrierOf document (lib.entityKey scope identifier) with
  | none => simp
  | some row =>
    obtain ⟨hscope, hid⟩ := (barrierOf_filed h hbarrier).eq hlib
    by_cases hnil : recordsBeside document extra (lib.entityKey scope identifier) = []
    · rw [hnil, hbarrier] at hjoined
      simp only [List.foldlM_nil, pure_ok, Option.map_some, Option.getD_some] at hjoined
      rw [if_pos hnil, if_neg (by simp), ← hjoined, ← hscope, ← hid]
    · rw [if_neg hnil, if_neg (by simp)]

/-- The records of an entity are known by its key. -/
def Knows (document : Document) (extra : Dict String Row) (key : String) : Prop :=
  recordsBeside document extra key ≠ [] ∨ barrierOf document key ≠ none

/-- **What the loop over the sources leaves** of an entity. -/
theorem gathered (hlib : lib.Collisionless) (h : Reviewed lib document extra)
    {joins : Dict String Row}
    (hfold : (sources document extra).foldlM (gather lib) (before document) = .ok joins) :
    (∀ scope identifier, isEntityId identifier = true →
      ∃ joined, known lib document extra scope identifier = .ok joined ∧
        (Knows document extra (lib.entityKey scope identifier) →
          joins.get? (lib.entityKey scope identifier) = some ⟨scope, identifier, joined⟩) ∧
        (¬ Knows document extra (lib.entityKey scope identifier) →
          joins.get? (lib.entityKey scope identifier) = none)) ∧
    ∀ key row, joins.get? key = some row → row.scope ∈ SCOPES ∧ isEntityId row.id = true ∧
      key = lib.entityKey row.scope row.id ∧ Knows document extra key := by
  rw [gather_eq] at hfold
  have hall : ∀ scope identifier, isEntityId identifier = true →
      ∃ joined, known lib document extra scope identifier = .ok joined ∧
        (Knows document extra (lib.entityKey scope identifier) →
          joins.get? (lib.entityKey scope identifier) = some ⟨scope, identifier, joined⟩) ∧
        (¬ Knows document extra (lib.entityKey scope identifier) →
          joins.get? (lib.entityKey scope identifier) = none) := by
    intro scope identifier hentity
    obtain ⟨joined, hjoined, hget⟩ := (gathered_entry hlib h hentity).mp
      (foldKeyed_get? hfold (lib.entityKey scope identifier))
    refine ⟨joined, hjoined, ?_, ?_⟩
    · intro hknows
      rw [hget, if_neg]
      intro hnone
      rcases hknows with hbeside | hbarrier
      · exact hbeside hnone.1
      · exact hbarrier hnone.2
    · intro hnot
      unfold Knows at hnot
      rw [not_or, not_not, not_not] at hnot
      rw [hget, if_pos hnot]
  refine ⟨hall, ?_⟩
  intro key row hget
  have hkey : ∃ scope identifier record, Filed lib key scope identifier record := by
    have hmem := (foldKeyed_mem_keys hfold key).mp (Dict.mem_keys_of_get? hget)
    rcases hmem with hbefore | hsource
    · obtain ⟨old, hold⟩ := Dict.mem_keys_iff.mp hbefore
      rw [before_get?] at hold
      exact ⟨_, _, _, barrierOf_filed h hold⟩
    · obtain ⟨source, hmem, heq⟩ := List.mem_map.mp hsource
      have hfilter : source ∈ (sources document extra).filter fun source =>
          source.key lib = key := List.mem_filter.mpr ⟨hmem, decide_eq_true heq⟩
      rw [sources_filter h] at hfilter
      rcases List.mem_append.mp hfilter with hfilter | hfilter
      · rw [Option.mem_toList, Option.map_eq_some_iff] at hfilter
        obtain ⟨entity, hentity, _⟩ := hfilter
        obtain ⟨state, hsync, hentity⟩ := Option.bind_eq_some_iff.mp hentity
        exact ⟨_, _, _, ((h.document.sync state hsync).entities _ _ hentity).1⟩
      · rw [Option.mem_toList, Option.map_eq_some_iff] at hfilter
        obtain ⟨other, hother, _⟩ := hfilter
        exact ⟨_, _, _, h.extra _ _ hother⟩
  obtain ⟨scope, identifier, record, hfiled⟩ := hkey
  obtain ⟨joined, _, hknows, hnot⟩ := hall scope identifier hfiled.entity
  rw [← hfiled.named, hget] at hknows hnot
  have hyes : Knows document extra key := by
    by_contra hno
    cases hnot hno
  have hrow := Option.some.inj (hknows hyes)
  rw [hrow]
  exact ⟨hfiled.listed, hfiled.entity, hfiled.named, hyes⟩

/-! ### Barriers -/

theorem known_valid (h : Reviewed lib document extra) (hlib : lib.Collisionless)
    (hentity : isEntityId identifier = true) {joined : Records.Record Json}
    (hknown : known lib document extra scope identifier = .ok joined) :
    Valid (lib.scope scope) identifier joined := by
  have hstart : Valid (lib.scope scope) identifier
      (((barrierOf document (lib.entityKey scope identifier)).map Row.record).getD
        Records.empty) := by
    cases hbarrier : barrierOf document (lib.entityKey scope identifier) with
    | none => exact Records.valid_empty hentity (lib.canonical scope).size_empty
    | some row =>
      have hfiled := barrierOf_filed h hbarrier
      obtain ⟨hscope, hid⟩ := hfiled.eq hlib
      rw [← hscope, ← hid]
      exact hfiled.valid
  exact foldlM_ok_induction (fun _ record => Valid (lib.scope scope) identifier record)
    (fun _ _ _ _ _ hmerge => Records.merge_valid (lib.canonical scope) hmerge) _ [] _ _ hstart
    hknown

theorem live_of_valid (hscope : scope ∈ SCOPES) (h : Valid (lib.scope scope) identifier record) :
    record.erased = false := by
  cases herased : record.erased with
  | false => rfl
  | true =>
    have hconversations := (h.erased herased).1
    simp only [Library.scope, SyncValues.syncScope, decide_eq_true_eq] at hconversations
    rw [hconversations] at hscope
    exact absurd hscope (by decide)

theorem write_iff (hscope : scope ∈ SCOPES) (hactor : isActorId actor = true)
    (h : Valid (lib.scope scope) identifier record) :
    (∃ updated, Records.write (lib.scope scope) identifier record actor none false = .ok updated) ↔
      record.Room actor := by
  have hnever : false = true → (lib.scope scope).isConversations = true :=
    nofun
  rw [← h.written_none_iff (texts lib scope) hactor hnever]
  simp only [Records.write_none_iff]
  constructor
  · rintro ⟨_, _, _, _, _, hwritten, _⟩
    exact hwritten
  · intro hwritten
    exact ⟨_, h, hactor, live_of_valid hscope h, hnever, hwritten, rfl⟩

/-- `deleteKnown` on the entry of a key. -/
def deletedRow (lib : Library) (actor : String) (row : Row) : Except String Row := do
  let record ← Records.write (lib.scope row.scope) row.id row.record actor none false
  return ⟨row.scope, row.id, record⟩

/-- The loop that puts the deletions on top. -/
theorem deleteKnown_eq : deleteKnown lib actor = stepKeyed Prod.fst
    (fun _ (entry : String × Row) => deletedRow lib actor entry.2) := by
  funext joins entry
  unfold deleteKnown stepKeyed deletedRow
  simp only [bind_assoc, pure_bind]

variable {result : Dict String Row}

theorem deleted_get? {joins : Dict String Row}
    (h : joins.entries.foldlM (deleteKnown lib actor) joins = .ok result) :
    (∀ key row, joins.get? key = some row → ∃ record,
      Records.write (lib.scope row.scope) row.id row.record actor none false = .ok record ∧
        result.get? key = some ⟨row.scope, row.id, record⟩) ∧
    ∀ key row, result.get? key = some row → ∃ old, joins.get? key = some old ∧
      row.scope = old.scope ∧ row.id = old.id ∧
        Records.write (lib.scope old.scope) old.id old.record actor none false =
          .ok row.record := by
  rw [deleteKnown_eq] at h
  have hall : ∀ key row, joins.get? key = some row → ∃ record,
      Records.write (lib.scope row.scope) row.id row.record actor none false = .ok record ∧
        result.get? key = some ⟨row.scope, row.id, record⟩ := by
    intro key row hget
    have hentry := foldKeyed_get? h key
    rw [entries_filter, hget] at hentry
    simp only [Option.toList_some, List.map_cons, List.map_nil, List.foldlM_cons,
      List.foldlM_nil, bind_ok, pure_ok, stepEntry_ok] at hentry
    obtain ⟨_, ⟨written, hwritten, rfl⟩, heq⟩ := hentry
    unfold deletedRow at hwritten
    simp only [bind_ok, pure_ok] at hwritten
    obtain ⟨record, hrecord, hrow⟩ := hwritten
    exact ⟨record, hrecord, by rw [← heq, ← hrow]⟩
  refine ⟨hall, ?_⟩
  intro key row hget
  have hmem := (foldKeyed_mem_keys h key).mp (Dict.mem_keys_of_get? hget)
  have hold : key ∈ joins.keys := hmem.elim id id
  obtain ⟨old, hold⟩ := Dict.mem_keys_iff.mp hold
  obtain ⟨record, hrecord, hresult⟩ := hall key old hold
  have hrow := Option.mem_unique hget hresult
  rw [hrow]
  exact ⟨old, hold, rfl, rfl, hrecord⟩

/-- The keys that an erasure knows. -/
def knownKeys (document : Document) (extra : Dict String Row) : List String :=
  ((before document).keys ++ ((document.sync.map fun state => state.entities.keys).getD [] ++
    extra.keys)).dedup

theorem mem_knownKeys (key : String) : key ∈ knownKeys document extra ↔
    Knows document extra key := by
  unfold knownKeys Knows recordsBeside
  rw [List.mem_dedup, List.mem_append, List.mem_append, Dict.mem_keys_iff, Dict.mem_keys_iff,
    before_get?]
  have hsync : key ∈ (document.sync.map fun state => state.entities.keys).getD [] ↔
      (document.sync.bind fun state => state.entities.get? key) ≠ none := by
    cases document.sync with
    | none => simp
    | some state =>
      rw [Option.map_some, Option.getD_some, Option.bind_some, Dict.mem_keys_iff,
        Option.ne_none_iff_exists']
  rw [hsync, ← Option.ne_none_iff_exists', ← Option.ne_none_iff_exists']
  cases (document.sync.bind fun state => state.entities.get? key) <;>
    cases extra.get? key <;> simp

/-- **The barriers of an erasure** can be made exactly where all that is known of each entity
can be joined and has room for the deletion. -/
theorem barriers_iff (hlib : lib.Collisionless) (h : Reviewed lib document extra)
    (hactor : isActorId actor = true)
    (hcapacity : (knownKeys document extra).length ≤ MAX_ENTITIES) :
    (∃ result, barriers lib actor document extra = .ok result) ↔
      ∀ scope ∈ SCOPES, ∀ identifier, isEntityId identifier = true →
        Erasable lib actor document extra scope identifier := by
  unfold barriers
  simp only [bind_ok, require_ok]
  change (∃ result joins, (sources document extra).foldlM (gather lib) (before document) =
    .ok joins ∧ _) ↔ _
  constructor
  · rintro ⟨result, joins, hfold, _, _, hdelete⟩
    obtain ⟨hgathered, _⟩ := gathered hlib h hfold
    intro scope hscope identifier hentity
    obtain ⟨joined, hjoined, hknows, _⟩ := hgathered scope identifier hentity
    refine ⟨joined, hjoined, ?_⟩
    by_cases hk : Knows document extra (lib.entityKey scope identifier)
    · obtain ⟨record, hrecord, _⟩ := (deleted_get? hdelete).1 _ _ (hknows hk)
      exact (write_iff hscope hactor (known_valid h hlib hentity hjoined)).mp ⟨record, hrecord⟩
    -- an entity without records has all room
    unfold Knows at hk
    rw [not_or, not_not, not_not] at hk
    unfold known at hjoined
    rw [hk.1, hk.2] at hjoined
    simp only [List.foldlM_nil, pure_ok, Option.map_none, Option.getD_none] at hjoined
    rw [← hjoined]
    refine ⟨?_, .inr ?_⟩
    · show 0 < Records.maxCounter
      decide
    · show 0 < Records.maxActors
      decide
  · intro hall
    have hfold : ∃ joins, (sources document extra).foldlM (gather lib) (before document) =
        .ok joins := by
      rw [gather_eq, foldKeyed_ok_iff]
      intro key
      by_cases hkey : ∃ scope ∈ SCOPES, ∃ identifier, isEntityId identifier = true ∧
          key = lib.entityKey scope identifier
      · obtain ⟨scope, hscope, identifier, hentity, rfl⟩ := hkey
        obtain ⟨joined, hjoined, _⟩ := hall scope hscope identifier hentity
        exact ⟨_, (gathered_entry hlib h hentity).mpr ⟨joined, hjoined, rfl⟩⟩
      · have hnil : ((sources document extra).filter fun source => source.key lib = key) = [] := by
          rw [sources_filter h, List.append_eq_nil_iff]
          constructor
          · rw [Option.toList_eq_nil_iff, Option.map_eq_none_iff, Option.eq_none_iff_forall_ne_some]
            intro entity hentity
            obtain ⟨state, hsync, hget⟩ := Option.bind_eq_some_iff.mp hentity
            have hfiled := ((h.document.sync state hsync).entities _ _ hget).1
            exact hkey ⟨_, hfiled.listed, _, hfiled.entity, hfiled.named⟩
          · rw [Option.toList_eq_nil_iff, Option.map_eq_none_iff, Option.eq_none_iff_forall_ne_some]
            intro row hget
            have hfiled := h.extra _ _ hget
            exact hkey ⟨_, hfiled.listed, _, hfiled.entity, hfiled.named⟩
        rw [hnil]
        exact ⟨_, rfl⟩
    obtain ⟨joins, hjoins⟩ := hfold
    obtain ⟨hgathered, hfiled⟩ := gathered hlib h hjoins
    have hlength : joins.entries.length ≤ MAX_ENTITIES := by
      refine le_trans ?_ hcapacity
      have hsubset : joins.keys ⊆ knownKeys document extra := by
        intro key hmem
        obtain ⟨row, hrow⟩ := Dict.mem_keys_iff.mp hmem
        exact (mem_knownKeys key).mpr (hfiled key row hrow).2.2.2
      have hle := (List.subperm_of_subset joins.keys_nodup hsubset).length_le
      rwa [Dict.keys, List.length_map] at hle
    have hdelete : ∃ result, joins.entries.foldlM (deleteKnown lib actor) joins = .ok result := by
      refine (foldlM_ok_iff (P := fun entry => ∃ record, Records.write (lib.scope entry.2.scope)
        entry.2.id entry.2.record actor none false = .ok record) (fun _ _ => True) ?_
        (fun _ _ _ _ _ _ => trivial) trivial).mpr ?_
      · intro current entry rest _
        unfold deleteKnown
        simp only [bind_ok, pure_ok]
        constructor
        · rintro ⟨_, record, hrecord, _⟩
          exact ⟨record, hrecord⟩
        · rintro ⟨record, hrecord⟩
          exact ⟨_, record, hrecord, rfl⟩
      · intro entry hmem
        have hget := Dict.get?_eq_some_iff.mpr hmem
        obtain ⟨hscope, hentity, hnamed, hk⟩ := hfiled _ _ hget
        obtain ⟨joined, hjoined, hknows, _⟩ := hgathered _ _ hentity
        rw [hnamed] at hget hk
        have hrow := Option.mem_unique hget (hknows hk)
        obtain ⟨other, hother, hroom⟩ := hall _ hscope _ hentity
        have hsame := Except.ok.inj (hjoined.symm.trans hother)
        rw [← hsame] at hroom
        have hrecord : entry.2.record = joined := congrArg Row.record hrow
        rw [hrecord]
        exact (write_iff hscope hactor (known_valid h hlib hentity hjoined)).mpr hroom
    obtain ⟨result, hresult⟩ := hdelete
    exact ⟨result, joins, hjoins, (), hlength, hresult⟩

/-- What the barriers of an erasure are: a deletion by the owner on top of all that is known
of each entity. -/
structure Sealed (lib : Library) (actor : String) (document : Document)
    (extra result : Dict String Row) : Prop where
  filed : ∀ key row, result.get? key = some row →
    Filed lib key row.scope row.id row.record ∧ isBarrier actor row.record = true ∧
      Knows document extra key
  covers : ∀ scope identifier, isEntityId identifier = true →
    Knows document extra (lib.entityKey scope identifier) →
      ∃ joined, known lib document extra scope identifier = .ok joined ∧
        result.get? (lib.entityKey scope identifier) =
          some ⟨scope, identifier, joined.written actor none false⟩

theorem isBarrier_written (record : Records.Record Json) (actor : String) :
    isBarrier actor (record.written actor none false) = true := by
  simp [isBarrier, Records.Record.written]

theorem barriers_sealed (hlib : lib.Collisionless) (h : Reviewed lib document extra)
    (hbarriers : barriers lib actor document extra = .ok result) :
    Sealed lib actor document extra result := by
  unfold barriers at hbarriers
  simp only [bind_ok, require_ok] at hbarriers
  obtain ⟨joins, hfold, _, _, hdelete⟩ := hbarriers
  change (sources document extra).foldlM (gather lib) (before document) = .ok joins at hfold
  obtain ⟨hgathered, hrows⟩ := gathered hlib h hfold
  obtain ⟨hdeleted, hback⟩ := deleted_get? hdelete
  refine ⟨?_, ?_⟩
  · intro key row hget
    obtain ⟨old, hold, hscope, hid, hwrite⟩ := hback key row hget
    obtain ⟨hlisted, hentity, hnamed, hknows⟩ := hrows key old hold
    obtain ⟨_, _, _, _, hwritten, heq⟩ := Records.write_none_iff.mp hwrite
    refine ⟨⟨hscope ▸ hlisted, hid ▸ hentity, by rw [hscope, hid]; exact hnamed, ?_⟩, ?_, hknows⟩
    · rw [hscope, hid, heq]
      exact hwritten
    · rw [heq]
      exact isBarrier_written _ _
  · intro scope identifier hentity hknows
    obtain ⟨joined, hjoined, hget, _⟩ := hgathered scope identifier hentity
    obtain ⟨record, hrecord, hresult⟩ := hdeleted _ _ (hget hknows)
    obtain ⟨_, _, _, _, _, heq⟩ := Records.write_none_iff.mp hrecord
    exact ⟨joined, hjoined, by rw [hresult, heq]⟩

/-! ### Erasing -/

/-- The ids that an erasure counts. -/
def knownIds (document : Document) (extra : Dict String Row) : List String :=
  (document.rows.keys ++ ((before document).values.map Row.id ++
    (sources document extra).map Source.id)).dedup

theorem identities_le (hlib : lib.Collisionless) (h : Reviewed lib document extra)
    (hsealed : Sealed lib actor document extra result) :
    identities document result ≤ (knownIds document extra).length := by
  unfold identities knownIds
  refine (List.subperm_of_subset (List.nodup_dedup _) ?_).length_le
  intro id hmem
  rw [List.mem_dedup, List.mem_append] at hmem ⊢
  rcases hmem with hrow | hid
  · exact .inl hrow
  · refine .inr ?_
    obtain ⟨row, hrow, rfl⟩ := List.mem_map.mp hid
    obtain ⟨key, hget⟩ := Dict.mem_values_iff.mp hrow
    obtain ⟨hfiled, _, hknows⟩ := hsealed.filed key row hget
    rw [hfiled.named] at hknows
    rw [List.mem_append]
    rcases hknows with hbeside | hbarrier
    · have hsources := flatMap_records document extra (lib.entityKey row.scope row.id)
      rw [← sources_filter h] at hsources
      have hnonempty : ((sources document extra).filter fun source =>
          source.key lib = lib.entityKey row.scope row.id) ≠ [] := by
        intro hnil
        rw [hnil] at hsources
        exact hbeside hsources.symm
      obtain ⟨source, hsource⟩ := List.exists_mem_of_ne_nil _ hnonempty
      refine .inr (List.mem_map.mpr ⟨source, (List.mem_filter.mp hsource).1, ?_⟩)
      rw [sources_filter h] at hsource
      exact (source_eq hlib h source hsource).2
    · obtain ⟨old, hold⟩ := Option.ne_none_iff_exists'.mp hbarrier
      have heq := ((barrierOf_filed h hold).eq hlib).2
      rw [← before_get?] at hold
      exact .inl (List.mem_map.mpr ⟨old, Dict.mem_values_iff.mpr ⟨_, hold⟩, heq⟩)

end Known

/-- Fingerprints are tokens, those of entities and values do not collide, and none is that of
a document that holds it. -/
structure Platform.Faithful (p : Platform) : Prop where
  library : p.toLibrary.Collisionless
  token : ∀ actor document extra, isToken (p.review actor document extra) = true
  revision : ∀ extra, isToken (p.rowsFingerprint extra) = true
  fresh : ∀ actor document extra receipt, document.receipt = some receipt →
    receipt.reviewToken ≠ p.review actor document extra

/-- All writes of a call succeed. -/
structure Io.Works (io : Io) : Prop where
  backup : ∀ suffix, io.backup suffix = .ok ()
  save : ∀ document, io.save document = .ok ()

theorem run_ok {α : Type} {io : Io} (hio : Io.Works io) (hload : disk.load lib = .ok document)
    {call : Document → Except String (Outcome α)} :
    (∃ answer next, disk.run lib io call = (.ok answer, next)) ↔
      ∃ outcome answer, call document = .ok outcome ∧ outcome.answer = .ok answer := by
  unfold Disk.run
  rw [hload, ok_bind]
  cases hcall : call document with
  | error e => simp
  | ok outcome =>
    obtain ⟨write, answer⟩ := outcome
    have hbackup : ∀ suffix, ∃ backed, disk.backUp io suffix = .ok backed := by
      intro suffix
      unfold Disk.backUp
      cases suffix with
      | none => exact ⟨disk, rfl⟩
      | some suffix =>
        cases disk.file with
        | none => exact ⟨disk, rfl⟩
        | some old =>
          exact ⟨_, bind_ok.mpr ⟨(), hio.backup suffix, rfl⟩⟩
    cases write with
    | none => simp
    | some write =>
      obtain ⟨suffix, written⟩ := write
      obtain ⟨backed, hbacked⟩ := hbackup suffix
      have hsave : backed.save io written = .ok { backed with file := some written } := by
        unfold Disk.save
        rw [hio.save]
        rfl
      simp [hbacked, hsave]

theorem preview_ok {p : Platform} {token : String} :
    preview p actor rows disk = .ok token ↔ ∃ extra document,
      additional p.toLibrary rows = .ok extra ∧ disk.load p.toLibrary = .ok document ∧
        checkIdentity actor document = .ok () ∧ token = p.review actor document extra := by
  unfold preview
  simp only [bind_ok, pure_ok]
  constructor
  · rintro ⟨extra, hextra, document, hload, _, hidentity, heq⟩
    exact ⟨extra, document, hextra, hload, hidentity, heq.symm⟩
  · rintro ⟨extra, document, hextra, hload, hidentity, heq⟩
    exact ⟨extra, hextra, document, hload, (), hidentity, heq.symm⟩

/-- **An erasure with the current token** succeeds exactly where all that is known of each
entity can be joined and has room for the deletion. -/
theorem eraseSource_iff {p : Platform} (hp : p.Faithful) (hactor : isActorId actor = true) {io : Io}
    (hio : Io.Works io) {extra : Dict String Row} {token : String}
    (hload : disk.load p.toLibrary = .ok document)
    (hextra : additional p.toLibrary rows = .ok extra)
    (htoken : preview p actor rows disk = .ok token)
    (hcapacity : (knownKeys document extra).length ≤ MAX_ENTITIES)
    (hids : (knownIds document extra).length ≤ MAX_ENTITIES) :
    (∃ count next, eraseSource p io disk actor token rows = (.ok count, next)) ↔
      ∀ scope ∈ SCOPES, ∀ identifier, isEntityId identifier = true →
        Erasable p.toLibrary actor document extra scope identifier := by
  obtain ⟨extra', document', hextra', hload', hidentity, heq⟩ := preview_ok.mp htoken
  rw [hextra] at hextra'
  rw [hload] at hload'
  obtain rfl := Except.ok.inj hextra'
  obtain rfl := Except.ok.inj hload'
  have hreviewed : Reviewed p.toLibrary document extra :=
    ⟨(load_ok.mp hload).1, additional_filed hextra⟩
  have hrequest : checkRequest p.toLibrary token rows = .ok extra := by
    unfold checkRequest
    rw [heq, require_of (hp.token _ _ _), ok_bind]
    exact hextra
  have hnone : (document.receipt.filter fun receipt => receipt.reviewToken = token) = none := by
    rw [Option.filter_eq_none_iff]
    intro receipt hreceipt
    rw [decide_eq_true_eq, heq]
    exact hp.fresh actor document extra receipt hreceipt
  have hcall : erase p actor token extra document = eraseReviewed p actor token extra document := by
    unfold erase
    rw [hnone]
  unfold eraseSource
  rw [hrequest]
  show (∃ count next, disk.run p.toLibrary io (erase p actor token extra) = (.ok count, next)) ↔ _
  rw [run_ok hio hload, hcall, ← barriers_iff hp.library hreviewed hactor hcapacity]
  unfold eraseReviewed
  simp only [bind_ok, require_ok, pure_ok]
  constructor
  · rintro ⟨_, _, ⟨_, _, _, _, result, hresult, _⟩, _⟩
    exact ⟨result, hresult⟩
  · rintro ⟨result, hresult⟩
    have hsealed := barriers_sealed hp.library hreviewed hresult
    have hcount : identities document result ≤ MAX_ENTITIES :=
      (identities_le hp.library hreviewed hsealed).trans hids
    have hlength : result.entries.length ≤ MAX_ENTITIES := by
      refine le_trans ?_ hcapacity
      have hsubset : result.keys ⊆ knownKeys document extra := by
        intro key hmem
        obtain ⟨row, hrow⟩ := Dict.mem_keys_iff.mp hmem
        exact (mem_knownKeys key).mpr (hsealed.filed key row hrow).2.2
      have hle := (List.subperm_of_subset result.keys_nodup hsubset).length_le
      rwa [Dict.keys, List.length_map] at hle
    refine ⟨_, _, ⟨(), hidentity, (), heq.symm, result, hresult, (), hcount, (), ?_, rfl⟩, rfl⟩
    refine receipt_check_ok.mpr ⟨hactor, ⟨?_, hp.revision extra⟩, hlength, ?_, hcount⟩
    · rw [heq]
      exact hp.token _ _ _
    · intro key row hget
      exact ⟨(hsealed.filed key row hget).1, (hsealed.filed key row hget).2.1⟩

/-! ### A platform for samples -/

def sampleToken (c : Char) : String := String.ofList (List.replicate 64 c)

def textLibrary : Library :=
  { Reading.textLibrary with
    str := fun value => value.asStr?.getD (String.ofList value.encode)
    splitLink := fun link => some ⟨"", "", link, "", "", none, none⟩ }

/-- The token of a review, which is never that of the receipt. -/
def sampleReview (previous : Option String) : String :=
  if previous = some (sampleToken 'b') then sampleToken 'c'
  else if previous = some (sampleToken 'c') then sampleToken 'd'
  else sampleToken 'b'

def textPlatform : Platform where
  toLibrary := textLibrary
  lower := id
  float := fun value =>
    match value with
    | .float number text => .ok (.float number text)
    | _ => .error "TypeError"
  int := fun value =>
    match value with
    | .int number => .ok number
    | _ => .error "TypeError"
  batchSize := List.length
  maxItems := 5000
  review := fun _ document _ => sampleReview (document.receipt.map Receipt.reviewToken)
  rowsFingerprint := fun _ => sampleToken 'd'

theorem textPlatform_faithful : textPlatform.Faithful where
  library := ⟨Reading.textLibrary_collisionless.entityKey, Reading.textLibrary_collisionless.values⟩
  token := by
    intro actor document extra
    show isToken (sampleReview _) = true
    unfold sampleReview
    split
    · decide +kernel
    · split
      · decide +kernel
      · decide +kernel
  revision := fun _ => by
    show isToken (sampleToken 'd') = true
    decide +kernel
  fresh := by
    intro actor document extra receipt hreceipt heq
    have hsame : receipt.reviewToken = sampleReview (some receipt.reviewToken) := by
      rw [← Option.map_some, ← hreceipt]
      exact heq
    unfold sampleReview at hsame
    split at hsame
    · next hb =>
      rw [hsame] at hb
      exact absurd hb (by decide +kernel)
    · next hb =>
      split at hsame
      · next hc =>
        rw [hsame] at hc
        exact absurd hc (by decide +kernel)
      · rw [hsame] at hb
        exact hb rfl

end ReadingPrivacy
