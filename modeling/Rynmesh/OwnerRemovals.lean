import Rynmesh.AskErasure
import Rynmesh.LocalWrites
import Rynmesh.ReadingErasure

/-!
# Removals by the owner

Which entities stop the owner from clearing the reading history, from erasing or deleting a
conversation, and from erasing the source of the reading history.

* `clear_iff`: the reading history is cleared where each of its records has room;
* `erase_iff`: a conversation is erased where its record is erased already or has room;
* `removed_iff`: a deletion is captured where it fits.
-/

namespace Reading

open Checked SyncValues Records

variable {lib : Library} {state next : ReadingState} {used : List Used} {scope : ScopeName}
  {identifier : String}

/-! ### The reading history -/

theorem merged_live {row : Row} {left right merged : Record Json} (hscope : row.scope ∈ SCOPES)
    (h : Records.merge (lib.scope row.scope) row.id left right = .ok merged) :
    merged.erased = false :=
  ReadingPrivacy.live_of_valid hscope (merge_valid (lib.canonical row.scope) h)

theorem Reached.live (hlib : lib.Collisionless) (h : Reached lib state used) :
    isActorId state.actor = true ∧
      ∀ key entity, state.entities.get? key = some entity → entity.record.erased = false := by
  induction h with
  | created hcreate =>
    simp only [create, bind_ok, require_ok, pure_ok] at hcreate
    obtain ⟨_, hactor, heq⟩ := hcreate
    rw [← heq]
    refine ⟨hactor, ?_⟩
    nofun
  | @wrote state next used scope identifier value expectedRevision h hwrite ih =>
    obtain ⟨base, updated, merged, conflict, hwrote⟩ := write_wrote hwrite
    have hprior := hwrote.live ((h.sound hlib).projects hlib hwrote.entity)
    obtain ⟨cleaned, hclean⟩ := hwrote.clean
    obtain ⟨hupdated, _⟩ := Records.write_ok hclean hwrote.written
    rw [hwrote.result]
    refine ⟨ih.1, Dict.forall_get?_set ?_ ih.2⟩
    show merged.erased = false
    rw [(merge_iff.mp hwrote.joined).2.2.2, join_erased, hprior, hupdated]
    rfl
  | @merged state next used row h hscope hmerge ih =>
    simp only [ReadingState.mergeRow, key, bind_ok, require_ok, pure_ok] at hmerge
    obtain ⟨key, _, merged, hmerged, shown, _, heq⟩ := hmerge
    rw [← heq]
    exact ⟨ih.1, Dict.forall_get?_set (merged_live hscope hmerged) ih.2⟩
  | @resolved state used key entity h hget resolution ih =>
    exact ⟨ih.1, Dict.forall_get?_set (ih.2 key entity hget) ih.2⟩
  | widened _ selected ih | noted _ failures ih => exact ih

/-- An entity of the state, filed under its key, whose record is live. -/
structure Stored (lib : Library) (state : ReadingState) (entity : Entity) : Prop where
  filed : state.entities.get? (lib.entityKey entity.scope entity.id) = some entity
  valid : Valid (lib.scope entity.scope) entity.id entity.record
  live : entity.record.erased = false

theorem Reached.stored (hlib : lib.Collisionless) (h : Reached lib state used) {entity : Entity}
    (hmem : entity ∈ state.entities.values) : Stored lib state entity := by
  obtain ⟨key, hget⟩ := Dict.mem_values_iff.mp hmem
  obtain ⟨hkey, hprojects⟩ := (h.sound hlib).entities key entity hget
  exact ⟨by rw [← hkey]; exact hget, hprojects.valid, (h.live hlib).2 key entity hget⟩

/-- **A reviewed removal** of one entity succeeds exactly where its record has room. -/
theorem removal_iff (hactor : isActorId state.actor = true) {entity : Entity}
    (h : Stored lib state entity) :
    (∃ next, state.write lib entity.scope entity.id none (some (lib.fingerprint entity.record)) =
      .ok next) ↔ entity.record.Room state.actor := by
  have hnever : false = true → (lib.scope entity.scope).isConversations = true :=
    nofun
  have hremoved := removed_iff (ReadingPrivacy.texts lib entity.scope) h.valid hactor hnever
  unfold ReadingState.write key
  rw [require_of h.valid.entity]
  simp only [ok_bind, pure_bind, h.filed, Option.isSome_some, true_or, require_of,
    Option.getD_some, Entity.base]
  constructor
  · rintro ⟨next, hnext⟩
    simp only [bind_ok] at hnext
    obtain ⟨updated, hwrite, merged, hmerge, _⟩ := hnext
    exact (hremoved.mp ⟨updated, merged, hwrite, hmerge⟩).2
  · intro hroom
    obtain ⟨updated, merged, hwrite, hmerge⟩ := hremoved.mpr ⟨h.live, hroom⟩
    have hview := view_ok (merge_valid (lib.canonical entity.scope) hmerge)
    simp only [hwrite, ok_bind, hmerge, hview]
    exact ⟨_, rfl⟩

theorem write_actor {value : Option Json} {expectedRevision : Option String}
    (h : state.write lib scope identifier value expectedRevision = .ok next) :
    next.actor = state.actor ∧ ∀ key, key ≠ lib.entityKey scope identifier →
      next.entities.get? key = state.entities.get? key := by
  obtain ⟨base, updated, merged, conflict, hwrote⟩ := write_wrote h
  rw [hwrote.result]
  refine ⟨rfl, fun key hkey => ?_⟩
  unfold ReadingState.put
  rw [Dict.get?_set, if_neg hkey]

/-- **The reading history is cleared** exactly where each of its records has room. -/
theorem clear_iff (hlib : lib.Collisionless) (h : Reached lib state used) :
    (∃ next, state.clear lib = .ok next) ↔
      ∀ entity ∈ state.entities.values, entity.record.Room state.actor := by
  have hactor := (h.live hlib).1
  refine foldlM_ok_iff (fun rest current => current.actor = state.actor ∧
    (rest.map fun entity => lib.entityKey entity.scope entity.id).Nodup ∧
      ∀ entity ∈ rest, Stored lib current entity) ?_ ?_ ?_
  · rintro current entity rest ⟨hsame, _, hstored⟩
    rw [← hsame] at hactor ⊢
    exact removal_iff hactor (hstored entity (.head _))
  · intro current entity rest next hinv hnext
    obtain ⟨hsame, hnodup, hstored⟩ := hinv
    obtain ⟨hkept, hothers⟩ := write_actor hnext
    rw [List.map_cons, List.nodup_cons] at hnodup
    refine ⟨hkept.trans hsame, hnodup.2, ?_⟩
    intro other hmem
    have hold := hstored other (.tail _ hmem)
    have hne : lib.entityKey other.scope other.id ≠ lib.entityKey entity.scope entity.id := by
      intro heq
      exact hnodup.1 (List.mem_map.mpr ⟨other, hmem, heq⟩)
    exact ⟨(hothers _ hne).trans hold.filed, hold.valid, hold.live⟩
  · refine ⟨rfl, ?_, fun entity hmem => h.stored hlib hmem⟩
    have hkeys : (state.entities.values.map fun entity => lib.entityKey entity.scope entity.id) =
        state.entities.keys := by
      unfold Dict.values Dict.keys
      rw [List.map_map]
      refine List.map_congr_left fun entry hmem => ?_
      exact (((h.sound hlib).entities entry.1 entry.2 (Dict.get?_eq_some_iff.mpr hmem)).1).symm
    rw [hkeys]
    exact state.entities.keys_nodup

end Reading

namespace Ask

open Checked Records

variable {p : Platform} {state next : SyncState} {identifier : String}

namespace Sync

/-! ### Erased conversations -/

theorem entity_of_get {entity : Entity} (h : state.entities.get? identifier = some entity) :
    state.entity identifier = .ok entity ∧ state.shown identifier = entity := by
  unfold SyncState.entity SyncState.shown
  rw [h]
  exact ⟨rfl, rfl⟩

variable {data : History}

theorem project_erased {entity : Entity} (hget : state.entities.get? identifier = some entity)
    (hvalid : Valid (scope p) identifier entity.record) (herased : entity.record.erased = true) :
    ∃ result, data.project p state identifier = .ok result := by
  unfold History.project
  rw [(entity_of_get hget).1, ok_bind, view_ok hvalid, ok_bind, viewed_deleted _ herased,
    if_pos rfl,
    viewed_erased, herased]
  unfold History.projectDeleted History.keptDraft
  rw [if_pos rfl, ok_bind]
  split
  · exact ⟨_, rfl⟩
  · exact ⟨_, rfl⟩

/-- **A conversation is erased** exactly where its record is erased already or has room. -/
theorem erase_iff (hp : p.Faithful) (htexts : (scope p).Texts) (h : Wiped p state)
    (hactor : isActorId state.actor = true) {entity : Entity}
    (hget : state.entities.get? identifier = some entity) :
    (∃ result, data.erase p state identifier (p.recordFingerprint entity.record) = .ok result) ↔
      entity.record.erased = true ∨ entity.record.Room state.actor := by
  obtain ⟨used, hsound⟩ := h.sound
  have hvalid := (hsound.entities identifier entity hget).valid
  have hremoved : (∃ updated merged,
      Records.write (scope p) identifier entity.record state.actor none true = .ok updated ∧
        Records.merge (scope p) identifier entity.record updated = .ok merged) ↔
      entity.record.erased = false ∧ entity.record.Room state.actor :=
    Records.removed_iff htexts hvalid hactor fun _ => rfl
  obtain ⟨hentity, hshown⟩ := entity_of_get hget
  unfold History.erase
  rw [hget, demand_some, ok_bind, require_of rfl, ok_bind]
  by_cases herased : entity.record.erased = true
  · rw [if_pos herased]
    exact ⟨fun _ => .inl herased, fun _ => ⟨_, rfl⟩⟩
  rw [if_neg herased]
  constructor
  · rintro ⟨result, hresult⟩
    simp only [bind_ok] at hresult
    obtain ⟨written, hwrite, _⟩ := hresult
    obtain ⟨updated, record, hwrote⟩ := write_wrote hwrite
    have hwritten := hwrote.written
    have hjoined := hwrote.joined
    rw [hshown] at hwritten hjoined
    exact .inr (hremoved.mp ⟨updated, record, hwritten, hjoined⟩).2
  · intro hroom
    have hlive : entity.record.erased = false := Bool.eq_false_iff.mpr herased
    obtain ⟨updated, record, hwritten, hjoined⟩ :=
      hremoved.mpr ⟨hlive, hroom.resolve_left herased⟩
    have hwrite : state.write p identifier none true =
        .ok (state.put identifier (entity.wrote record updated none true)) := by
      unfold SyncState.write
      rw [hentity, ok_bind]
      have hbase : entity.base state.actor true = entity.record := rfl
      rw [hbase, hwritten, ok_bind, hjoined]
      rfl
    have hrecord : record.erased = true := by
      rw [(merge_iff.mp hjoined).2.2.2, join_erased, (write_none_iff.mp hwritten).2.2.2.2.2]
      exact Bool.or_true _
    have hwritten : (state.put identifier (entity.wrote record updated none true)).entities.get?
        identifier = some (entity.wrote record updated none true) := by
      rw [(Sets.put _ _ _).entities, if_pos rfl]
    rw [hwrite, ok_bind]
    exact project_erased hwritten (merge_valid hp.sizes hjoined) hrecord

/-! ### Deleted conversations -/

theorem isEntityId_of_isIdentity (h : isIdentity identifier = true) :
    isEntityId identifier = true := by
  unfold isIdentity at h
  unfold isEntityId
  simp only [Bool.and_eq_true, decide_eq_true_eq, List.all_eq_true] at h ⊢
  obtain ⟨⟨hpositive, hlength⟩, hall⟩ := h
  refine ⟨⟨hpositive, by omega⟩, fun c hc => ?_⟩
  have hchar := hall c hc
  rw [show c.isAlphanum = ((decide ('A'.val ≤ c.val ∧ c.val ≤ 'Z'.val) ||
    decide ('a'.val ≤ c.val) && decide (c.val ≤ 'z'.val)) ||
    decide ('0'.val ≤ c.val) && decide (c.val ≤ '9'.val)) from rfl] at hchar
  simp only [Bool.or_eq_true, Bool.and_eq_true, decide_eq_true_eq, UInt32.le_iff_toNat_le] at hchar
  rcases hchar with (((hchar | hchar) | hchar) | rfl) | rfl
  · exact le_trans (by decide) hchar.1
  · exact le_trans (by decide) hchar.1
  · exact le_trans (by decide) hchar.1
  · decide
  · decide

/-- Only one entity is touched. -/
structure Frame (state next : SyncState) (identifier : String) : Prop where
  actor : next.actor = state.actor
  others : ∀ other, other ≠ identifier → next.entities.get? other = state.entities.get? other

theorem Frame.refl (state : SyncState) (identifier : String) : Frame state state identifier :=
  ⟨rfl, fun _ _ => rfl⟩

theorem Frame.put {middle : SyncState} (h : Frame state middle identifier) (entity : Entity) :
    Frame state (middle.put identifier entity) identifier := by
  refine ⟨h.actor, fun other hother => ?_⟩
  rw [(Sets.put _ _ _).entities, if_neg hother, h.others other hother]

theorem Frame.keys (h : Frame state next identifier) {ids : List String}
    (hkeys : state.entities.keys ⊆ ids) (hmem : identifier ∈ ids) : next.entities.keys ⊆ ids := by
  intro other hother
  by_cases hsame : other = identifier
  · rw [hsame]
    exact hmem
  · rw [Dict.mem_keys_iff, h.others other hsame, ← Dict.mem_keys_iff] at hother
    exact hkeys hother

theorem write_frame {value : Option Conversation} {erase : Bool}
    (h : state.write p identifier value erase = .ok next) : Frame state next identifier := by
  obtain ⟨updated, record, hwrote⟩ := write_wrote h
  rw [hwrote.result]
  exact (Frame.refl state identifier).put _

theorem follow_frame {value : Option Conversation}
    (h : state.follow p identifier value = .ok next) : Frame state next identifier := by
  unfold SyncState.follow at h
  split at h
  · split at h
    · injection h with h
      rw [← h]
      exact .refl _ _
    · exact write_frame h
  · exact write_frame h

theorem captureOne_frame {runs : Dict String RunRecord} {seed : Bool}
    {current result : SyncState × Dict String Conversation} {item : String × Conversation}
    (h : SyncState.captureOne p runs seed current item = .ok result) :
    Frame current.1 result.1 item.1 ∧
      ∀ other, other ≠ item.1 → result.2.get? other = current.2.get? other := by
  unfold SyncState.captureOne at h
  split at h
  · injection h with h
    rw [← h]
    exact ⟨.refl _ _, fun _ _ => rfl⟩
  · simp only [bind_ok] at h
    obtain ⟨value, _, followed, hfollow, entity, _, shown, _, h⟩ := h
    have hframe := follow_frame hfollow
    split at h
    · simp only [pure_ok] at h
      rw [← h]
      exact ⟨hframe, fun _ _ => rfl⟩
    · split at h
      · simp only [pure_ok] at h
        rw [← h]
        refine ⟨hframe.put _, fun other hother => ?_⟩
        rw [Dict.get?_erase, if_neg hother]
      · simp only [pure_ok] at h
        rw [← h]
        exact ⟨hframe.put _, fun _ _ => rfl⟩

variable {conversations : Dict String Conversation}

theorem captureTombstone_frame {item : String × Tombstone}
    (h : SyncState.captureTombstone p conversations state item = .ok next) :
    Frame state next item.1 := by
  have hsame : (.ok state : Except String SyncState) = .ok next → Frame state next item.1 := by
    intro heq
    injection heq with heq
    rw [← heq]
    exact .refl _ _
  unfold SyncState.captureTombstone at h
  split at h
  · exact hsame h
  · split at h
    · split at h
      · split at h
        · exact hsame h
        · exact write_frame h
      · exact write_frame h
    · split at h
      · split at h
        · exact hsame h
        · exact write_frame h
      · exact write_frame h

/-- There is a place for the entity. -/
def HasRoom (state : SyncState) (identifier : String) : Prop :=
  (state.entities.get? identifier).isSome = true ∨ state.entities.entries.length < maxEntities

theorem HasRoom.of_subset {ids : List String} (hids : ids.length ≤ maxEntities)
    (hkeys : state.entities.keys ⊆ ids) (hmem : identifier ∈ ids) : HasRoom state identifier := by
  by_cases hkey : identifier ∈ state.entities.keys
  · obtain ⟨entity, hget⟩ := Dict.mem_keys_iff.mp hkey
    exact .inl (by rw [hget]; rfl)
  · refine .inr (lt_of_lt_of_le ?_ hids)
    have hnodup := List.nodup_cons.mpr ⟨hkey, state.entities.keys_nodup⟩
    have hlength := (List.subperm_of_subset hnodup
      (List.cons_subset.mpr ⟨hmem, hkeys⟩)).length_le
    rwa [List.length_cons, Dict.keys, List.length_map] at hlength

theorem HasRoom.entity (h : HasRoom state identifier) :
    state.entity identifier = .ok (state.shown identifier) := by
  unfold SyncState.entity SyncState.shown
  cases hget : state.entities.get? identifier with
  | some entity => rfl
  | none =>
    have hlength := h.resolve_left (by rw [hget]; decide)
    rw [require_of hlength]
    rfl

theorem HasRoom.write_iff (h : HasRoom state identifier) {value : Option Conversation}
    {erase : Bool} : (∃ next, state.write p identifier value erase = .ok next) ↔
      ∃ updated record, Records.write (scope p) identifier
          ((state.shown identifier).base state.actor erase) state.actor value erase = .ok updated ∧
        Records.merge (scope p) identifier (state.shown identifier).record updated =
          .ok record := by
  unfold SyncState.write
  rw [h.entity, ok_bind]
  simp only [bind_ok, pure_ok]
  constructor
  · rintro ⟨_, updated, hwrite, record, hmerge, _⟩
    exact ⟨updated, record, hwrite, hmerge⟩
  · rintro ⟨updated, record, hwrite, hmerge⟩
    exact ⟨_, updated, hwrite, record, hmerge, rfl⟩

/-- What a tombstone of a conversation asks of the entity. -/
def TombstoneFits (p : Platform) (conversations : Dict String Conversation) (state : SyncState)
    (item : String × Tombstone) : Prop :=
  ∃ next, SyncState.captureTombstone p conversations state item = .ok next

theorem tombstoneFits_iff {other : SyncState} {item : String × Tombstone}
    (hactor : other.actor = state.actor)
    (hget : other.entities.get? item.1 = state.entities.get? item.1) (hroom : HasRoom state item.1)
    (hroom' : HasRoom other item.1) :
    TombstoneFits p conversations other item ↔ TombstoneFits p conversations state item := by
  have hshown : other.shown item.1 = state.shown item.1 := by
    unfold SyncState.shown
    rw [hget]
  have hwrite : ∀ erase, (∃ next, other.write p item.1 none erase = .ok next) ↔
      ∃ next, state.write p item.1 none erase = .ok next := by
    intro erase
    rw [hroom.write_iff, hroom'.write_iff, hshown, hactor]
  have hstays : (∃ next, (.ok other : Except String SyncState) = .ok next) ↔
      ∃ next, (.ok state : Except String SyncState) = .ok next :=
    ⟨fun _ => ⟨_, rfl⟩, fun _ => ⟨_, rfl⟩⟩
  unfold TombstoneFits SyncState.captureTombstone
  rw [hget]
  split
  · exact hstays
  split
  · split
    · split
      · exact hstays
      · exact hwrite true
    · exact hwrite true
  · split
    · split
      · exact hstays
      · exact hwrite false
    · exact hwrite false

theorem tombstones_iff {ids : List String} (hids : ids.length ≤ maxEntities)
    (hkeys : state.entities.keys ⊆ ids) {items : List (String × Tombstone)}
    (hnodup : (items.map Prod.fst).Nodup) (hitems : ∀ item ∈ items, item.1 ∈ ids) :
    (∃ last, items.foldlM (SyncState.captureTombstone p conversations) state = .ok last) ↔
      ∀ item ∈ items, TombstoneFits p conversations state item := by
  refine foldlM_ok_iff (fun rest current => current.actor = state.actor ∧
    current.entities.keys ⊆ ids ∧ (rest.map Prod.fst).Nodup ∧ ∀ item ∈ rest, item.1 ∈ ids ∧
      current.entities.get? item.1 = state.entities.get? item.1) ?_ ?_
    ⟨rfl, hkeys, hnodup, fun item hmem => ⟨hitems item hmem, rfl⟩⟩
  · rintro current item rest ⟨hactor, hcurrent, _, hrest⟩
    obtain ⟨hmem, hget⟩ := hrest item (.head _)
    exact tombstoneFits_iff hactor hget (.of_subset hids hkeys hmem) (.of_subset hids hcurrent hmem)
  · intro current item rest next hinv hnext
    obtain ⟨hactor, hcurrent, hdistinct, hrest⟩ := hinv
    have hframe := captureTombstone_frame hnext
    rw [List.map_cons, List.nodup_cons] at hdistinct
    refine ⟨hframe.actor.trans hactor, hframe.keys hcurrent (hrest item (.head _)).1,
      hdistinct.2, fun other hmem => ?_⟩
    obtain ⟨hother, hget⟩ := hrest other (.tail _ hmem)
    refine ⟨hother, (hframe.others other.1 fun heq => hdistinct.1 ?_).trans hget⟩
    exact List.mem_map.mpr ⟨other, hmem, heq⟩

theorem conversations_frame {runs : Dict String RunRecord} {seed : Bool}
    {items : List (String × Conversation)} {current result : SyncState × Dict String Conversation}
    (h : items.foldlM (SyncState.captureOne p runs seed) current = .ok result) :
    result.1.actor = current.1.actor ∧
      (∀ ids, current.1.entities.keys ⊆ ids → (∀ item ∈ items, item.1 ∈ ids) →
        result.1.entities.keys ⊆ ids) ∧
      ∀ other, other ∉ items.map Prod.fst →
        result.1.entities.get? other = current.1.entities.get? other ∧
          result.2.get? other = current.2.get? other := by
  induction items generalizing current with
  | nil =>
    simp only [List.foldlM_nil, pure_ok] at h
    rw [← h]
    exact ⟨rfl, fun _ hkeys _ => hkeys, fun _ _ => ⟨rfl, rfl⟩⟩
  | cons item rest ih =>
    simp only [List.foldlM_cons, bind_ok] at h
    obtain ⟨middle, hstep, hrest⟩ := h
    obtain ⟨hframe, hrows⟩ := captureOne_frame hstep
    obtain ⟨hactor, hkeys, hothers⟩ := ih hrest
    refine ⟨hactor.trans hframe.actor, fun ids hids hmem => ?_, fun other hother => ?_⟩
    · exact hkeys ids (hframe.keys hids (hmem item (.head _)))
        fun other hother => hmem other (.tail _ hother)
    · rw [List.map_cons, List.mem_cons, not_or] at hother
      obtain ⟨hget, hrow⟩ := hothers other hother.2
      exact ⟨hget.trans (hframe.others _ hother.1), hrow.trans (hrows _ hother.1)⟩

/-- The ids of a history and of its records. -/
def ids (data : History) (state : SyncState) : List String :=
  (state.entities.keys ++ data.conversations.keys ++ data.tombstones.keys).dedup

theorem capture_iff {seed : Bool} (hcapacity : (ids data state).length ≤ maxEntities) :
    (∃ captured, data.capture p seed state = .ok captured) ↔
      ∃ first, data.conversations.entries.foldlM (SyncState.captureOne p data.runs seed)
          (state, data.conversations) = .ok first ∧
        ∀ item ∈ data.tombstones.entries, TombstoneFits p first.2 first.1 item := by
  have hentities : state.entities.keys ⊆ ids data state := by
    intro other hmem
    exact List.mem_dedup.mpr (List.mem_append_left _ (List.mem_append_left _ hmem))
  have hrows : ∀ item ∈ data.conversations.entries, item.1 ∈ ids data state := by
    intro item hmem
    refine List.mem_dedup.mpr (List.mem_append_left _ (List.mem_append_right _ ?_))
    exact List.mem_map.mpr ⟨item, hmem, rfl⟩
  have htombstones : ∀ item ∈ data.tombstones.entries, item.1 ∈ ids data state := by
    intro item hmem
    refine List.mem_dedup.mpr (List.mem_append_right _ ?_)
    exact List.mem_map.mpr ⟨item, hmem, rfl⟩
  unfold History.capture
  simp only [bind_ok, pure_ok]
  constructor
  · rintro ⟨_, first, hfirst, last, hlast, _⟩
    have hkeys := (conversations_frame hfirst).2.1 _ hentities hrows
    exact ⟨first, hfirst, (tombstones_iff hcapacity hkeys data.tombstones.keys_nodup
      htombstones).mp ⟨last, hlast⟩⟩
  · rintro ⟨first, hfirst, hfits⟩
    have hkeys := (conversations_frame hfirst).2.1 _ hentities hrows
    obtain ⟨last, hlast⟩ := (tombstones_iff hcapacity hkeys data.tombstones.keys_nodup
      htombstones).mpr hfits
    exact ⟨_, first, hfirst, last, hlast, rfl⟩

/-- The history that a deletion leaves, without a trace of the conversation. -/
def without (data : History) (identifier : String) (revision : Nat) : History :=
  { data.removed identifier revision with tombstones := data.tombstones.erase identifier }

/-- The conversation is hidden already, or its deletion fits. -/
def Deletable (p : Platform) (state : SyncState) (identifier : String) : Prop :=
  (∃ entity, state.entities.get? identifier = some entity ∧ entity.visible = none) ∨
    (state.shown identifier).record.Deletes (scope p) state.actor (state.shown identifier).projected

theorem tombstoneFits_deleted (hp : p.Faithful) (htexts : (scope p).Texts) (h : Wiped p state)
    (hactor : isActorId state.actor = true) (hidentity : isIdentity identifier = true)
    {other : SyncState} (revision : Nat) (hsame : other.actor = state.actor)
    (hget : other.entities.get? identifier = state.entities.get? identifier)
    (hrow : conversations.get? identifier = none) (hroom : HasRoom other identifier) :
    TombstoneFits p conversations other (identifier, ⟨revision, false⟩) ↔
      Deletable p state identifier := by
  obtain ⟨used, hsound⟩ := h.sound
  have hprojects := hsound.projects hp (isEntityId_of_isIdentity hidentity)
  have hshown : other.shown identifier = state.shown identifier := by
    unfold SyncState.shown
    rw [hget]
  have hwrite : (∃ next, other.write p identifier none false = .ok next) ↔
      (state.shown identifier).record.Deletes (scope p) state.actor
        (state.shown identifier).projected := by
    rw [hroom.write_iff, hshown, hsame, ← hprojects.deleted_iff htexts hactor]
    exact Iff.rfl
  unfold TombstoneFits SyncState.captureTombstone Deletable
  simp only [hrow, Option.isSome_none, Bool.false_eq_true, if_false, hget]
  cases hentity : state.entities.get? identifier with
  | none =>
    rw [hwrite]
    constructor
    · exact .inr
    · intro hall
      rcases hall with ⟨entity, hnone, _⟩ | hdeletes
      · cases hnone
      · exact hdeletes
  | some entity =>
    by_cases hvisible : entity.visible = none
    · simp only [hvisible, if_true]
      exact ⟨fun _ => .inl ⟨entity, rfl, hvisible⟩, fun _ => ⟨_, rfl⟩⟩
    simp only [hvisible, if_false]
    rw [hwrite]
    constructor
    · exact .inr
    · intro hall
      rcases hall with ⟨found, hfound, hnone⟩ | hdeletes
      · rw [← Option.some.inj hfound] at hnone
        exact absurd hnone hvisible
      · exact hdeletes

/-- **A deletion is captured** exactly where the rest of the history is, and the conversation
is hidden already or its deletion fits. -/
theorem deletion_iff (hp : p.Faithful) (htexts : (scope p).Texts) (h : Wiped p state)
    (hactor : isActorId state.actor = true) (hidentity : isIdentity identifier = true)
    {revision : Nat}
    (hcapacity : (ids (data.removed identifier revision) state).length ≤ maxEntities) :
    (∃ captured, (data.removed identifier revision).capture p false state = .ok captured) ↔
      (∃ rest, (without data identifier revision).capture p false state = .ok rest) ∧
        Deletable p state identifier := by
  have hrest : (ids (without data identifier revision) state).length ≤ maxEntities := by
    refine le_trans ?_ hcapacity
    refine (List.subperm_of_subset (List.nodup_dedup _) ?_).length_le
    intro other hmem
    have hmem := List.mem_dedup.mp hmem
    refine List.mem_dedup.mpr ?_
    rcases List.mem_append.mp hmem with hmem | hmem
    · exact List.mem_append_left _ hmem
    · refine List.mem_append_right _ (Dict.mem_keys_set.mpr (.inr ?_))
      rw [Dict.mem_keys_iff] at hmem ⊢
      obtain ⟨tombstone, hget⟩ := hmem
      show ∃ v, data.tombstones.get? other = some v
      exact ⟨tombstone, (Dict.of_get?_erase hget).2⟩
  rw [capture_iff hcapacity, capture_iff hrest, ← exists_and_right]
  refine exists_congr fun first => ?_
  rw [and_assoc]
  refine and_congr_right fun hfirst => ?_
  obtain ⟨hsame, hkeys, hothers⟩ := conversations_frame hfirst
  have hmissing : identifier ∉ ((data.removed identifier revision).conversations.entries.map
      Prod.fst) := by
    show identifier ∉ (data.conversations.erase identifier).keys
    rw [← Dict.get?_eq_none_iff, Dict.get?_erase, if_pos rfl]
  obtain ⟨hget, hrow⟩ := hothers identifier hmissing
  have hgone : first.2.get? identifier = none := by
    rw [hrow]
    exact Dict.get?_eq_none_iff.mpr hmissing
  have hroom : HasRoom first.1 identifier := by
    refine .of_subset hcapacity (hkeys _ ?_ ?_) ?_
    · intro other hmem
      exact List.mem_dedup.mpr (List.mem_append_left _ (List.mem_append_left _ hmem))
    · intro item hmem
      refine List.mem_dedup.mpr (List.mem_append_left _ (List.mem_append_right _ ?_))
      exact List.mem_map.mpr ⟨item, hmem, rfl⟩
    · exact List.mem_dedup.mpr (List.mem_append_right _ (Dict.mem_keys_set.mpr (.inl rfl)))
  rw [← tombstoneFits_deleted hp htexts h hactor hidentity revision hsame hget hgone hroom]
  constructor
  · intro hall
    refine ⟨fun item hmem => hall item ?_, hall _ ?_⟩
    · have hitem := Dict.get?_eq_some_iff.mpr hmem
      refine Dict.get?_eq_some_iff.mp ?_
      show (data.tombstones.set identifier _).get? item.1 = some item.2
      obtain ⟨hne, hold⟩ := Dict.of_get?_erase hitem
      rw [Dict.get?_set, if_neg hne]
      exact hold
    · exact Dict.get?_eq_some_iff.mp (Dict.get?_set_self _ _ _)
  · intro hall item hmem
    obtain ⟨hothers, hown⟩ := hall
    have hitem := Dict.get?_eq_some_iff.mpr hmem
    rw [show (data.removed identifier revision).tombstones =
      data.tombstones.set identifier ⟨revision, false⟩ from rfl, Dict.get?_set] at hitem
    split at hitem
    · next heq =>
      have hpair : item = (identifier, ⟨revision, false⟩) :=
        Prod.ext heq (Option.some.inj hitem).symm
      rw [hpair]
      exact hown
    · next hne =>
      refine hothers item (Dict.get?_eq_some_iff.mp ?_)
      show (data.tombstones.erase identifier).get? item.1 = some item.2
      rw [Dict.get?_erase, if_neg hne]
      exact hitem

/-- **The owner deletes a conversation** exactly where its deletion is captured. -/
theorem remove_iff (hp : p.Faithful) (htexts : (scope p).Texts) (h : Wiped p state)
    (hactor : isActorId state.actor = true) (hidentity : isIdentity identifier = true)
    {prior : Conversation} (hsync : data.sync = some state)
    (hprior : data.conversations.get? identifier = some prior) (hrevision : 1 ≤ prior.revision)
    (htombstones : data.tombstones.entries.length < 10000)
    (hcapacity : (ids (data.removed identifier (prior.revision + 1)) state).length ≤ maxEntities)
    (hsize : ∀ captured, (data.removed identifier (prior.revision + 1)).capture p false state =
      .ok captured → p.historySize captured ≤ captured.limit) :
    (∃ next, data.remove p identifier prior.revision = .ok next) ↔
      (∃ rest, (without data identifier (prior.revision + 1)).capture p false state = .ok rest) ∧
        Deletable p state identifier := by
  rw [← deletion_iff hp htexts h hactor hidentity hcapacity]
  unfold History.remove
  rw [require_of hidentity, ok_bind, require_of hrevision, ok_bind, hprior]
  simp only [require_of htombstones, require_of, ok_bind, History.write, History.recorded]
  have hsame : (data.removed identifier (prior.revision + 1)).sync = some state := hsync
  rw [hsame]
  simp only [if_true, bind_ok, require_ok, pure_ok]
  constructor
  · rintro ⟨_, captured, hcapture, _⟩
    exact ⟨captured, hcapture⟩
  · rintro ⟨captured, hcapture⟩
    exact ⟨captured, captured, hcapture, (), hsize captured hcapture, rfl⟩

end Sync

end Ask

namespace OwnerRemovals

open Reading Records

/-- **Removals by the owner need room**: a received record at a limit stops the owner from
clearing the reading history, from erasing or deleting its conversation, and from erasing the
source of the reading history; where none is, all of these succeed. -/
theorem removals_need_room {r : ReadingPrivacy.Platform} (hr : r.Faithful) {p : Ask.Platform}
    (hp : p.Faithful) (htexts : (Ask.scope p).Texts) :
    (∀ state used, Reached r.toLibrary state used → ((∃ next, state.clear r.toLibrary = .ok next) ↔
        ∀ entity ∈ state.entities.values, entity.record.Room state.actor)) ∧
    (∀ actor state, Ask.Sync.Run p ⟨actor, .empty, .empty⟩ state → isActorId state.actor = true →
      (∀ (data : Ask.History) identifier entity, state.entities.get? identifier = some entity →
        ((∃ result, data.erase p state identifier (p.recordFingerprint entity.record) =
            .ok result) ↔
          entity.record.erased = true ∨ entity.record.Room state.actor)) ∧
      ∀ (data : Ask.History) identifier (prior : Ask.Conversation),
        Ask.isIdentity identifier = true → data.sync = some state →
        data.conversations.get? identifier = some prior → 1 ≤ prior.revision →
        data.tombstones.entries.length < 10000 →
        (Ask.Sync.ids (data.removed identifier (prior.revision + 1)) state).length ≤
          Ask.maxEntities →
        (∀ captured, (data.removed identifier (prior.revision + 1)).capture p false state =
          .ok captured → p.historySize captured ≤ captured.limit) →
        ((∃ next, data.remove p identifier prior.revision = .ok next) ↔
          (∃ rest, (Ask.Sync.without data identifier (prior.revision + 1)).capture p false state =
            .ok rest) ∧ Ask.Sync.Deletable p state identifier)) ∧
    ∀ actor io (disk : Consumption.Disk) document rows extra token,
      isActorId actor = true → ReadingPrivacy.Io.Works io →
      disk.load r.toLibrary = .ok document →
      ReadingPrivacy.additional r.toLibrary rows = .ok extra →
      ReadingPrivacy.preview r actor rows disk = .ok token →
      (ReadingPrivacy.knownKeys document extra).length ≤ Reading.MAX_ENTITIES →
      (ReadingPrivacy.knownIds document extra).length ≤ Reading.MAX_ENTITIES →
      ((∃ count next, ReadingPrivacy.eraseSource r io disk actor token rows = (.ok count, next)) ↔
        ∀ scope ∈ SCOPES, ∀ identifier, isEntityId identifier = true →
          ReadingPrivacy.Erasable r.toLibrary actor document extra scope identifier) := by
  refine ⟨fun state used hreached => clear_iff hr.library hreached, ?_, ?_⟩
  · intro actor state hrun hactor
    have hwiped := (hrun.wiped hp (Ask.Sync.wiped_created p actor)).1
    refine ⟨fun data identifier entity hget =>
      Ask.Sync.erase_iff hp htexts hwiped hactor hget, ?_⟩
    intro data identifier prior hidentity hsync hprior hrevision htombstones hcapacity hsize
    exact Ask.Sync.remove_iff hp htexts hwiped hactor hidentity hsync hprior hrevision htombstones
      hcapacity hsize
  · intro actor io disk document rows extra token hactor hio hload hextra htoken hcapacity hids
    exact ReadingPrivacy.eraseSource_iff hr hactor hio hload hextra htoken hcapacity hids

/-- The bookmark of a paired device that counts for this one, as far as counters go. -/
def exhaustedRow (actor : String) : Row :=
  ⟨.bookmarks, "item", ⟨Dict.empty.set actor maxCounter, [⟨actor, maxCounter, none⟩], false⟩⟩

/-- A received bookmark keeps the owner from clearing the history. -/
theorem received_record_blocks_clear : ∃ state used, Reached ReadingPrivacy.textLibrary state used ∧
      state.entities.entries.length < Reading.MAX_ENTITIES ∧
      ¬ ∃ next, state.clear ReadingPrivacy.textLibrary = .ok next := by
  have hcreate : create sampleState.actor = .ok sampleState := by
    rfl
  have hsome : ((sampleState.withScopes [.bookmarks]).mergeRow ReadingPrivacy.textLibrary
      (exhaustedRow sampleState.actor)).toOption.any (fun state =>
        decide (state.entities.entries.length < Reading.MAX_ENTITIES) &&
          (state.clear ReadingPrivacy.textLibrary).toOption.isNone) = true := by
    decide +kernel
  obtain ⟨state, hmerge, hfacts⟩ := Checked.toOption_any hsome
  rw [Bool.and_eq_true, decide_eq_true_eq] at hfacts
  refine ⟨state, [], (Reached.widened (.created hcreate) _).merged (by decide) hmerge, hfacts.1, ?_⟩
  rintro ⟨next, hnext⟩
  rw [hnext] at hfacts
  exact absurd hfacts.2 (by simp [Except.toOption])

def sampleConversation : Ask.Conversation :=
  ⟨"chat", "", "", "", "", "", "", "", [], 1, none, none⟩

def sampleHistory : Ask.History :=
  { Ask.History.empty with
    conversations := Dict.empty.set "chat" sampleConversation
    sync := some Ask.Sync.sampleSync }

def sampleDisk : Consumption.Disk := ⟨none, .empty⟩

def sampleIo : Consumption.Io := ⟨fun _ => .ok (), fun _ => .ok ()⟩

theorem removals_need_room_sample :
    (∃ state : ReadingState, ∃ entity, state.entities.values = [entity] ∧
      ∃ next, state.clear ReadingPrivacy.textLibrary = .ok next) ∧
    (∃ state : Ask.SyncState, ∃ entity result, state.entities.get? "chat" = some entity ∧
      Ask.History.erase Ask.textPlatform Ask.Sync.sampleForgotten state "chat"
        (Ask.textPlatform.recordFingerprint entity.record) = .ok result) ∧
    (∃ next, sampleHistory.remove Ask.textPlatform "chat" 1 = .ok next) ∧
    ∃ count next, ReadingPrivacy.eraseSource ReadingPrivacy.textPlatform sampleIo sampleDisk
      sampleState.actor (ReadingPrivacy.sampleToken 'b') none = (.ok count, next) := by
  have hactor : isActorId sampleState.actor = true := by decide +kernel
  obtain ⟨hclear, hask, hsource⟩ := removals_need_room ReadingPrivacy.textPlatform_faithful
    Ask.textPlatform_faithful ⟨_, fun _ => rfl, rfl⟩
  refine ⟨?_, ?_, ?_, ?_⟩
  · have hcreate : create sampleState.actor = .ok sampleState := by
      rfl
    have hsome : (sampleState.write ReadingPrivacy.textLibrary .bookmarks "item"
        (some sampleBookmark) none).toOption.any (fun state =>
          decide (state.entities.values.length = 1) && state.entities.values.all fun entity =>
            decide (entity.record.Room state.actor)) = true := by
      decide +kernel
    obtain ⟨state, hwrite, hfacts⟩ := Checked.toOption_any hsome
    rw [Bool.and_eq_true, decide_eq_true_eq, List.all_eq_true] at hfacts
    obtain ⟨entity, hone⟩ := List.length_eq_one_iff.mp hfacts.1
    refine ⟨state, entity, hone, (hclear _ _ ((Reached.created hcreate).wrote hwrite)).mpr ?_⟩
    intro other hmem
    exact of_decide_eq_true (hfacts.2 other hmem)
  · have hsome : (Ask.Sync.sampleForgotten.capture Ask.textPlatform false
        Ask.Sync.sampleSync).toOption.any (fun captured => captured.sync.any fun next =>
          decide (next.actor = sampleState.actor) &&
            (next.entities.get? "chat").any fun entity => entity.record.erased) = true := by
      decide +kernel
    obtain ⟨captured, hcapture, hfacts⟩ := Checked.toOption_any hsome
    obtain ⟨next, hsync, hfacts⟩ := (Option.any_eq_true _ _).mp hfacts
    rw [Bool.and_eq_true, decide_eq_true_eq] at hfacts
    obtain ⟨entity, hentity, herased⟩ := (Option.any_eq_true _ _).mp hfacts.2
    have hcall : Ask.Sync.sampleSync.outcome Ask.textPlatform
        (.capture Ask.Sync.sampleForgotten false) = .ok (next, captured) := by
      rw [Ask.SyncState.outcome, hcapture]
      simp [Functor.map, Except.map, hsync]
    obtain ⟨result, hresult⟩ := ((hask _ next (.call .refl _ hcall)
      (by rw [hfacts.1]; exact hactor)).1 Ask.Sync.sampleForgotten "chat" entity hentity).mpr
        (.inl herased)
    exact ⟨next, entity, result, hentity, hresult⟩
  · refine ((hask _ Ask.Sync.sampleSync .refl hactor).2 sampleHistory "chat" sampleConversation
      (by decide +kernel) rfl rfl (by decide) (by decide) (by decide +kernel) ?_).mpr ⟨?_, .inr ?_⟩
    · intro captured hcapture
      have hsome : ((sampleHistory.removed "chat" 2).capture Ask.textPlatform false
          Ask.Sync.sampleSync).toOption.any (fun captured =>
            decide (Ask.textPlatform.historySize captured ≤ captured.limit)) = true := by
        decide +kernel
      obtain ⟨found, hfound, hle⟩ := Checked.toOption_any hsome
      have hsame : captured = found := Except.ok.inj (hcapture.symm.trans hfound)
      rw [hsame]
      exact of_decide_eq_true hle
    · exact ⟨_, rfl⟩
    · exact ⟨rfl, by decide +kernel, by decide +kernel, by decide +kernel⟩
  · refine (hsource sampleState.actor sampleIo sampleDisk .empty none .empty _ hactor
      ⟨fun _ => rfl, fun _ => rfl⟩ rfl rfl rfl (by decide) (by decide)).mpr ?_
    intro scope _ identifier _
    exact ⟨Records.empty, rfl, by decide, .inr (by decide)⟩

end OwnerRemovals
