import Rynmesh.CausalProjections

/-!
# Room for one more local write

`validate` and `merge` accept records at every limit.  A local write puts its actor
into the clock, counts on, and checks the record again.

* `Record.Room` is what a record has to leave free for that;
* `removed_iff` says that a removal over the whole record needs no more;
* `Projects.deleted_iff` says what one over a projection needs: the heads that it has not seen
  have to fit beside the new one.
-/

namespace Records

open Checked

variable {V : Type}

/-- A local write of the actor can count on, and its place in the clock is there or free. -/
def Record.Room (record : Record V) (actor : String) : Prop :=
  record.clockAt actor < maxCounter ∧
    ((record.clock.get? actor).isSome = true ∨ record.clock.entries.length < maxActors)

instance (record : Record V) (actor : String) : Decidable (record.Room actor) :=
  inferInstanceAs (Decidable (_ ∧ _))

/-- The size of a record is that of its canonical text, in which None is `null`. -/
def Scope.Texts (scope : Scope V) : Prop :=
  ∃ valueSize, (∀ record, scope.size record = record.textSize valueSize) ∧ valueSize none = 4

theorem Scope.Texts.canonical {scope : Scope V} (h : scope.Texts) : scope.Canonical := by
  obtain ⟨valueSize, hsize, _⟩ := h
  exact ⟨valueSize, hsize⟩

/-! ### Clocks -/

theorem entries_length_set {α : Type} (d : Dict String α) (k : String) (v : α) :
    (d.set k v).entries.length =
      if (d.get? k).isSome then d.entries.length else d.entries.length + 1 := by
  have hmap := congrArg List.length (Dict.map_fst_assign k v d.entries)
  rw [List.length_map] at hmap
  have hkeys : (d.get? k).isSome = true ↔ k ∈ d.entries.map Prod.fst := by
    rw [Option.isSome_iff_ne_none, ne_eq, Dict.get?_eq_none_iff, not_not, Dict.keys]
  rw [Dict.set, hmap]
  by_cases hmem : k ∈ d.entries.map Prod.fst
  · rw [if_pos hmem, if_pos (hkeys.mpr hmem), List.length_map]
  · rw [if_neg hmem, if_neg (fun h => hmem (hkeys.mp h)), List.length_append, List.length_map]
    rfl

theorem entries_length_le {a b : Dict String Nat}
    (h : ∀ actor, (a.get? actor).isSome = true → (b.get? actor).isSome = true) :
    a.entries.length ≤ b.entries.length := by
  have hkeys : a.keys ⊆ b.keys := by
    intro actor hmem
    rw [Dict.mem_keys_iff, ← Option.isSome_iff_exists] at hmem ⊢
    exact h actor hmem
  have hlength := (List.subperm_of_subset a.keys_nodup hkeys).length_le
  rwa [Dict.keys, Dict.keys, List.length_map, List.length_map] at hlength

section

variable {scope : Scope V} {identifier actor : String} {record projected : Record V}

theorem Valid.isSome_of_clockAt (h : ∀ other, projected.clockAt other ≤ record.clockAt other)
    (hprojected : Valid scope identifier projected) {other : String}
    (hsome : (projected.clock.get? other).isSome = true) :
    (record.clock.get? other).isSome = true := by
  obtain ⟨counter, hget⟩ := Option.isSome_iff_exists.mp hsome
  have hpositive := hprojected.positive other counter hget
  have hle := h other
  unfold Record.clockAt at hle
  rw [hget] at hle
  cases hother : record.clock.get? other with
  | none =>
    rw [hother] at hle
    simp only [Option.getD_some, Option.getD_none] at hle
    omega
  | some _ => rfl

theorem Valid.clockAt_le (h : Valid scope identifier record) (other : String) :
    record.clockAt other ≤ maxCounter := by
  unfold Record.clockAt
  cases hget : record.clock.get? other with
  | none => exact Nat.zero_le _
  | some counter => exact (h.clock other counter hget).2.2

theorem textSize_short {valueSize : Option V → Nat} (hnull : valueSize none = 4)
    (hactors : record.clock.entries.length ≤ maxActors)
    (hclock : ∀ actor counter, record.clock.get? actor = some counter →
      isActorId actor = true ∧ 1 ≤ counter ∧ counter ≤ maxCounter)
    (hheads : record.heads = [] ∨ ∃ head, record.heads = [head] ∧ head.value = none ∧
      record.clock.get? head.actor = some head.counter) :
    record.textSize valueSize ≤ maxRecordBytes := by
  have hentry : ∀ entry ∈ record.clock.entries, entrySize entry ≤ 83 := by
    intro entry hmem
    obtain ⟨hid, _, hmax⟩ := hclock entry.1 entry.2 (Dict.get?_eq_some_iff.mpr hmem)
    exact entrySize_le hid hmax
  have hsum : (record.clock.entries.map entrySize).sum ≤ record.clock.entries.length * 83 := by
    have hle := List.sum_le_card_nsmul (record.clock.entries.map entrySize) 83 (by
      intro size hsize
      obtain ⟨entry, hmem, heq⟩ := List.mem_map.mp hsize
      rw [← heq]
      exact hentry entry hmem)
    simpa using hle
  have hlength : (record.heads.map (Head.textSize valueSize)).sum ≤ 119 ∧
      record.heads.length ≤ 1 := by
    rcases hheads with hnil | ⟨head, hone, hvalue, hcurrent⟩
    · rw [hnil]
      exact ⟨Nat.zero_le _, Nat.zero_le _⟩
    · have hsize := hentry (head.actor, head.counter) (Dict.get?_eq_some_iff.mp hcurrent)
      unfold entrySize at hsize
      dsimp only at hsize
      rw [hone]
      simp only [List.map_cons, List.map_nil, List.sum_cons, List.sum_nil, List.length_cons,
        List.length_nil, Head.textSize, hvalue, hnull]
      omega
  unfold Record.textSize
  unfold maxActors at hactors
  unfold maxRecordBytes
  split <;> omega

/-! ### Removals over the whole record -/

variable {erase : Bool}

theorem write_none_iff [DecidableEq V] {updated : Record V} :
    write scope identifier record actor none erase = .ok updated ↔
      Valid scope identifier record ∧ isActorId actor = true ∧ record.erased = false ∧
        (erase = true → scope.isConversations = true) ∧
        Valid scope identifier (record.written actor none erase) ∧
        updated = record.written actor none erase := by
  have hclean : cleanValue scope identifier (none : Option V) = .ok none := rfl
  unfold write
  simp only [bind_ok, require_ok, validate_ok, hclean, checkBinding_ok, pure_ok]
  constructor
  · intro hall
    obtain ⟨_, hvalid, _, hactor, _, herased, _, hscope, cleaned, hnone, _, _, _, _, _, hwritten,
      heq⟩ := hall
    injection hnone with hnone
    rw [← hnone] at hwritten heq
    exact ⟨hvalid, hactor, herased, hscope, hwritten, heq.symm⟩
  · rintro ⟨hvalid, hactor, herased, hscope, hwritten, heq⟩
    refine ⟨(), hvalid, (), hactor, (), herased, (), hscope, none, rfl, (), ?_, (), ?_, (),
      hwritten, heq.symm⟩
    · intro hall
      exact hall.2.1 rfl
    · intro hconversations a b ha hb
      simp only [List.mem_append, List.mem_singleton, reduceCtorEq, or_false] at ha hb
      exact hvalid.bound hconversations a b ha hb

theorem Valid.written_none_iff (hscope : scope.Texts) (h : Valid scope identifier record)
    (hactor : isActorId actor = true) (herase : erase = true → scope.isConversations = true) :
    Valid scope identifier (record.written actor none erase) ↔ record.Room actor := by
  have hown : (record.written actor none erase).clock.get? actor =
      some (record.clockAt actor + 1) := by
    unfold Record.written
    rw [Dict.get?_set_self]
  have hlength : (record.written actor none erase).clock.entries.length ≤ maxActors ↔
      (record.clock.get? actor).isSome = true ∨ record.clock.entries.length < maxActors := by
    unfold Record.written
    rw [entries_length_set]
    have hactors := h.actors
    split
    · next hsome => exact ⟨fun _ => .inl hsome, fun _ => hactors⟩
    rename_i hnone
    constructor
    · intro hle
      exact .inr hle
    · intro hroom
      exact hroom.resolve_left hnone
  constructor
  · intro hwritten
    have hcounter := (hwritten.clock actor _ hown).2.2
    exact ⟨hcounter, hlength.mp hwritten.actors⟩
  · intro hroom
    have hclock : ∀ other counter, (record.written actor none erase).clock.get? other =
        some counter → isActorId other = true ∧ 1 ≤ counter ∧ counter ≤ maxCounter := by
      exact Dict.forall_get?_set ⟨hactor, Nat.succ_le_succ (Nat.zero_le _), hroom.1⟩ h.clock
    have hheads : (record.written actor none erase).heads = [] ∨ ∃ head : Head V,
        (record.written actor none erase).heads = [head] ∧ head.value = none ∧
          (record.written actor none erase).clock.get? head.actor = some head.counter := by
      cases erase with
      | true => exact .inl rfl
      | false => exact .inr ⟨⟨actor, record.clockAt actor + 1, none⟩, rfl, rfl, hown⟩
    refine ⟨h.entity, hlength.mpr hroom.2, ?_, hclock, ?_, ?_, ?_, ?_, ?_⟩
    · rcases hheads with hnil | ⟨head, hone, _⟩
      · rw [hnil]
        exact Nat.zero_le _
      · rw [hone]
        show 1 ≤ maxActors
        decide
    · intro head hmem
      rcases hheads with hnil | ⟨one, hone, hvalue, hcurrent⟩
      · rw [hnil] at hmem
        cases hmem
      · rw [hone, List.mem_singleton] at hmem
        rw [hmem]
        exact ⟨(hclock _ _ hcurrent).1, hcurrent, by rw [hvalue]; rfl⟩
    · rcases hheads with hnil | ⟨head, hone, _⟩
      · rw [hnil]
        exact List.nodup_nil
      · rw [hone]
        exact List.nodup_singleton _
    · intro herased
      have herased : erase = true := herased
      refine ⟨herase herased, ?_⟩
      rw [herased]
      rfl
    · obtain ⟨valueSize, hsize, hnull⟩ := hscope
      rw [hsize]
      exact textSize_short hnull (hlength.mpr hroom.2) hclock hheads
    · intro _ a b ha
      rcases hheads with hnil | ⟨head, hone, hvalue, _⟩
      · rw [hnil] at ha
        cases ha
      · rw [hone, List.map_singleton, List.mem_singleton, hvalue] at ha
        cases ha

theorem written_above (actor : String) (value : Option V) (hlive : record.erased = false) :
    Above (record.written actor value erase) record := by
  refine ⟨?_, ?_, ?_⟩
  · intro other
    rw [clockAt_written]
    split
    · next heq =>
      rw [heq]
      exact Nat.le_succ _
    · exact Nat.le_refl _
  · intro herased
    rw [hlive] at herased
    cases herased
  · intro herased head hmem hcurrent
    have herase : erase = false := herased
    rw [herase] at hmem
    have heq := List.mem_singleton.mp hmem
    rw [heq] at hcurrent
    simp at hcurrent

theorem merge_written [DecidableEq V] (hscope : scope.Canonical) (h : Valid scope identifier record)
    (hlive : record.erased = false) {value : Option V}
    (hwritten : Valid scope identifier (record.written actor value erase)) :
    ∃ merged, merge scope identifier record (record.written actor value erase) = .ok merged ∧
      merged.canonical = (record.written actor value erase).canonical := by
  have hsorted : (record.written actor value erase).heads.Pairwise
      fun a b => a.le b ∧ a.dot ≠ b.dot := by
    cases erase with
    | true => exact List.Pairwise.nil
    | false => exact List.pairwise_singleton _ _
  obtain ⟨other, hother, hcanonical⟩ :=
    (written_above actor value hlive).merge hscope hwritten h hsorted
  obtain ⟨merged, hmerged, hsame⟩ := merge_comm hscope hother
  exact ⟨merged, hmerged, hsame.trans hcanonical⟩

/-- **A removal over a whole record** succeeds exactly where it has room. -/
theorem removed_iff [DecidableEq V] (hscope : scope.Texts) (h : Valid scope identifier record)
    (hactor : isActorId actor = true) (herase : erase = true → scope.isConversations = true) :
    (∃ updated merged, write scope identifier record actor none erase = .ok updated ∧
        merge scope identifier record updated = .ok merged) ↔
      record.erased = false ∧ record.Room actor := by
  constructor
  · rintro ⟨updated, merged, hwrite, _⟩
    obtain ⟨_, _, hlive, _, hwritten, _⟩ := write_none_iff.mp hwrite
    exact ⟨hlive, (h.written_none_iff hscope hactor herase).mp hwritten⟩
  · rintro ⟨hlive, hroom⟩
    have hwritten := (h.written_none_iff hscope hactor herase).mpr hroom
    obtain ⟨merged, hmerged, _⟩ := merge_written hscope.canonical h hlive hwritten
    exact ⟨_, merged, write_none_iff.mpr ⟨h, hactor, hlive, herase, hwritten, rfl⟩, hmerged⟩

/-! ### Deletions over a projection -/

/-- A merge of live records passes the checks where its actors, its size and its bindings do. -/
theorem join_valid_iff {left right : Record V} (hleft : Valid scope identifier left)
    (hright : Valid scope identifier right) (hagree : Agree left right)
    (hlive : (left.join right).erased = false) :
    Valid scope identifier (left.join right) ↔
      (left.join right).clock.entries.length ≤ maxActors ∧
        scope.size (left.join right) ≤ maxRecordBytes ∧
        Bound scope ((left.join right).heads.map Head.value) := by
  constructor
  · intro h
    exact ⟨h.actors, h.size, h.bound⟩
  · rintro ⟨hactors, hsize, hbound⟩
    have hmem := fun head => mem_join hleft hright hagree hlive head
    have hfrom : ∀ head ∈ (left.join right).heads, head ∈ left.heads ∨ head ∈ right.heads := by
      intro head hhead
      obtain ⟨hcounter, hkeeps, hkeeps'⟩ := (hmem head).mp hhead
      by_cases hle : left.clockAt head.actor = head.counter
      · exact .inl (hkeeps hle)
      · exact .inr (hkeeps' (by omega))
    have hvalid : ∀ head ∈ (left.join right).heads,
        HeadValid scope identifier (left.join right).clock head := by
      intro head hhead
      have hcounter := ((hmem head).mp hhead).1
      have hside : isActorId head.actor = true ∧
          cleanValue scope identifier head.value = .ok head.value ∧ 1 ≤ head.counter := by
        rcases hfrom head hhead with hside | hside
        · have hvalid := hleft.heads head hside
          exact ⟨hvalid.actor, hvalid.clean, hleft.positive _ _ hvalid.current⟩
        · have hvalid := hright.heads head hside
          exact ⟨hvalid.actor, hvalid.clean, hright.positive _ _ hvalid.current⟩
      refine ⟨hside.1, ?_, hside.2.1⟩
      rw [Record.get?_clock (join_positive hleft hright), join_clockAt]
      exact ⟨hside.2.2, hcounter.symm⟩
    have hdistinct : ((left.join right).heads.map Head.actor).Nodup := by
      rw [List.Nodup, List.pairwise_map]
      refine (join_sorted hleft hright).imp_of_mem ?_
      intro a b ha hb hne hactor
      have hcounter := ((hmem a).mp ha).1
      have hcounter' := ((hmem b).mp hb).1
      refine hne.2 (Prod.ext hactor ?_)
      show a.counter = b.counter
      rw [hcounter, hcounter', hactor]
    have hwidth : (left.join right).heads.length ≤ maxActors := by
      refine le_trans ?_ hactors
      have hsubset : (left.join right).heads.map Head.actor ⊆ (left.join right).clock.keys := by
        intro other hother
        obtain ⟨head, hhead, heq⟩ := List.mem_map.mp hother
        rw [← heq]
        exact Dict.mem_keys_of_get? (hvalid head hhead).current
      have hlength := (List.subperm_of_subset hdistinct hsubset).length_le
      rwa [List.length_map, Dict.keys, List.length_map] at hlength
    refine ⟨hleft.entity, hactors, hwidth, join_counters hleft hright, hvalid, hdistinct, ?_,
      hsize, hbound⟩
    intro herased
    rw [hlive] at herased
    cases herased

/-- The record that a deletion leaves: its own head, and those that the projection has not
seen. -/
def Record.deleted (record projected : Record V) (actor : String) : Record V where
  clock := record.clock.set actor (record.clockAt actor + 1)
  heads := record.nextHead actor none :: record.heads.filter fun head =>
    head.actor ≠ actor && projected.clockAt head.actor < head.counter
  erased := false

/-- A deletion fits: it has room, and both the record that it starts from and the one that it
leaves are within the size limit. -/
structure Record.Deletes (scope : Scope V) (actor : String) (record projected : Record V) :
    Prop where
  live : record.erased = false
  room : record.Room actor
  base : scope.size (record.writeBase projected actor) ≤ maxRecordBytes
  size : scope.size (record.deleted projected actor) ≤ maxRecordBytes

theorem Projects.erased_iff (h : Projects scope identifier record projected) :
    projected.erased = record.erased := by
  cases hany : record.erased with
  | true => exact h.erased hany
  | false =>
    cases hother : projected.erased with
    | false => rfl
    | true =>
      rw [h.above.erased hother] at hany
      cases hany

theorem Projects.clockAt_base_le (h : Projects scope identifier record projected)
    (other : String) :
    (record.writeBase projected actor).clockAt other ≤ record.clockAt other := by
  rw [clockAt_writeBase h.above.clock]
  split
  · next heq =>
    rw [heq]
  · exact h.above.clock other

/-- The record that a deletion starts from is accepted where it is within the size limit. -/
theorem Projects.base_valid (h : Projects scope identifier record projected)
    (hactor : isActorId actor = true)
    (hsize : scope.size (record.writeBase projected actor) ≤ maxRecordBytes) :
    Valid scope identifier (record.writeBase projected actor) := by
  have hprojected := h.validProjected
  unfold Record.writeBase at hsize ⊢
  split
  · next hlt =>
    rw [if_pos hlt] at hsize
    have hget : ∀ other, (projected.clock.set actor (record.clockAt actor)).get? other =
        if other = actor then some (record.clockAt actor) else projected.clock.get? other :=
      fun other => Dict.get?_set _ _ _ _
    have hmem : ∀ head ∈ projected.heads.filter fun head => head.actor ≠ actor,
        head ∈ projected.heads ∧ head.actor ≠ actor := by
      intro head hhead
      obtain ⟨hhead, hne⟩ := List.mem_filter.mp hhead
      exact ⟨hhead, of_decide_eq_true hne⟩
    have hsome : ∀ other, ((projected.clock.set actor (record.clockAt actor)).get? other).isSome
        = true → (record.clock.get? other).isSome = true := by
      intro other hother
      rw [hget] at hother
      by_cases heq : other = actor
      · rw [heq]
        cases hnone : record.clock.get? actor with
        | some _ => rfl
        | none =>
          unfold Record.clockAt at hlt
          rw [hnone] at hlt
          cases hlt
      · rw [if_neg heq] at hother
        exact Valid.isSome_of_clockAt h.above.clock hprojected hother
    refine ⟨hprojected.entity, (entries_length_le hsome).trans h.valid.actors,
      (List.length_filter_le _ _).trans hprojected.width, ?_, ?_, ?_, ?_, hsize, ?_⟩
    · intro other counter hother
      rw [hget] at hother
      by_cases heq : other = actor
      · rw [if_pos heq] at hother
        injection hother with hother
        rw [heq, ← hother]
        exact ⟨hactor, by omega, h.valid.clockAt_le actor⟩
      · rw [if_neg heq] at hother
        exact hprojected.clock other counter hother
    · intro head hhead
      obtain ⟨hhead, hne⟩ := hmem head hhead
      have hvalid := hprojected.heads head hhead
      exact ⟨hvalid.actor, by rw [hget, if_neg hne]; exact hvalid.current, hvalid.clean⟩
    · exact List.Nodup.sublist (List.filter_sublist.map _) hprojected.distinct
    · intro herased
      obtain ⟨hconversations, hnil⟩ := hprojected.erased herased
      exact ⟨hconversations, by rw [hnil]; rfl⟩
    · intro hconversations a b ha hb
      have hsub : ∀ {value : Option V}, value ∈ (projected.heads.filter
          fun head => head.actor ≠ actor).map Head.value → value ∈ projected.heads.map Head.value :=
        fun hvalue => (List.filter_sublist.map _).subset hvalue
      exact hprojected.bound hconversations a b (hsub ha) (hsub hb)
  · exact hprojected

theorem Projects.room_base (h : Projects scope identifier record projected)
    (hsize : Valid scope identifier (record.writeBase projected actor))
    (hroom : record.Room actor) : (record.writeBase projected actor).Room actor := by
  have hown : (record.writeBase projected actor).clockAt actor = record.clockAt actor := by
    rw [clockAt_writeBase h.above.clock, if_pos rfl]
  refine ⟨by rw [hown]; exact hroom.1, ?_⟩
  rcases hroom.2 with hsome | hlength
  · refine .inl ?_
    obtain ⟨counter, hget⟩ := Option.isSome_iff_exists.mp hsome
    have hpositive := h.valid.positive actor counter hget
    cases hnone : (record.writeBase projected actor).clock.get? actor with
    | some _ => rfl
    | none =>
      unfold Record.clockAt at hown
      rw [hnone, hget] at hown
      simp only [Option.getD_none, Option.getD_some] at hown
      omega
  · refine .inr (lt_of_le_of_lt (entries_length_le ?_) hlength)
    intro other hother
    exact Valid.isSome_of_clockAt (fun other => h.clockAt_base_le other) hsize hother

theorem Projects.get?_join_written (h : Projects scope identifier record projected)
    (hvalid : Valid scope identifier ((record.writeBase projected actor).written actor none false))
    (other : String) :
    (record.join ((record.writeBase projected actor).written actor none false)).clock.get? other =
      (record.deleted projected actor).clock.get? other := by
  refine get?_eq_of_clockAt (join_positive h.valid hvalid) ?_ ?_ other
  · exact Dict.forall_get?_set (Nat.succ_le_succ (Nat.zero_le _)) h.valid.positive
  · intro other
    have hdeleted : (record.deleted projected actor).clockAt other =
        if other = actor then record.clockAt actor + 1 else record.clockAt other := by
      unfold Record.deleted Record.clockAt
      rw [Dict.get?_set]
      split <;> rfl
    have hle : (record.writeBase projected actor).clockAt other ≤ record.clockAt other :=
      h.clockAt_base_le other
    rw [hdeleted, join_clockAt, Records.clockAt_written, clockAt_writeBase h.above.clock,
      if_pos rfl]
    by_cases hother : other = actor
    · rw [if_pos hother, if_pos hother, hother]
      omega
    · rw [if_neg hother, if_neg hother]
      omega

theorem Projects.size_join_written (hscope : scope.Texts)
    (h : Projects scope identifier record projected) (hlive : record.erased = false)
    (hvalid : Valid scope identifier
      ((record.writeBase projected actor).written actor none false)) :
    scope.size (record.join ((record.writeBase projected actor).written actor none false)) =
      scope.size (record.deleted projected actor) := by
  obtain ⟨valueSize, hsize, _⟩ := hscope
  rw [hsize, hsize]
  refine Record.textSize_congr (entries_perm (h.get?_join_written hvalid)) ?_ ?_
  · have hsorted := join_sorted h.valid hvalid
    have hnodup : (record.deleted projected actor).heads.Nodup := by
      refine List.nodup_cons.mpr ⟨?_, (List.Nodup.of_map _ h.valid.distinct).filter _⟩
      intro hmem
      have hne := (List.mem_filter.mp hmem).2
      rw [Bool.and_eq_true] at hne
      exact of_decide_eq_true hne.1 rfl
    refine (List.perm_ext_iff_of_nodup (hsorted.imp fun hne heq => hne.2 (congrArg _ heq))
      hnodup).mpr ?_
    intro head
    rw [h.mem_join_written hlive hvalid, Record.deleted, List.mem_cons, List.mem_filter,
      Bool.and_eq_true, decide_eq_true_eq, decide_eq_true_eq]
  · rw [join_erased, hlive]
    rfl

/-- **A deletion over a projection** succeeds exactly where it fits. -/
theorem Projects.deleted_iff [DecidableEq V] (hscope : scope.Texts)
    (h : Projects scope identifier record projected) (hactor : isActorId actor = true) :
    (∃ updated merged, write scope identifier (record.writeBase projected actor) actor none false =
        .ok updated ∧ Records.merge scope identifier record updated = .ok merged) ↔
      record.Deletes scope actor projected := by
  have hnever : false = true → scope.isConversations = true := nofun
  constructor
  · rintro ⟨updated, merged, hwrite, hmerge⟩
    obtain ⟨hbase, _, hlive, _, hwritten, heq⟩ := write_none_iff.mp hwrite
    rw [erased_writeBase, h.erased_iff] at hlive
    rw [heq] at hmerge
    obtain ⟨_, hactors, hboth, _⟩ := merge_iff.mp hmerge
    have hjoined := (hboth (by rw [hlive]; rfl)).2
    have hroom := (hbase.written_none_iff hscope hactor hnever).mp hwritten
    refine ⟨hlive, ⟨?_, ?_⟩, hbase.size, ?_⟩
    · rw [← if_pos (c := actor = actor) (t := record.clockAt actor) (e := projected.clockAt actor)
        rfl, ← clockAt_writeBase h.above.clock]
      exact hroom.1
    · by_cases hsome : (record.clock.get? actor).isSome = true
      · exact .inl hsome
      refine .inr ?_
      have hlength := entries_length_set record.clock actor (record.clockAt actor + 1)
      rw [if_neg hsome] at hlength
      have hperm := (entries_perm (h.get?_join_written hwritten)).length_eq
      rw [join_clock] at hperm
      unfold Record.deleted at hperm
      rw [hlength] at hperm
      omega
    · rw [← h.size_join_written hscope hlive hwritten]
      exact hjoined.size
  · rintro ⟨hlive, hroom, hbase, hsize⟩
    have hvalid := h.base_valid hactor hbase
    have hwritten := (hvalid.written_none_iff hscope hactor hnever).mpr (h.room_base hvalid hroom)
    have hlength : (record.join ((record.writeBase projected actor).written actor none
        false)).clock.entries.length ≤ maxActors := by
      rw [(entries_perm (h.get?_join_written hwritten)).length_eq, Record.deleted,
        entries_length_set]
      have hactors := h.valid.actors
      split
      · exact hactors
      · next hnone => exact hroom.2.resolve_left hnone
    have hjoined : (record.join ((record.writeBase projected actor).written actor none
        false)).erased = false := by
      rw [join_erased, hlive]
      rfl
    have hagree : Agree record ((record.writeBase projected actor).written actor none false) :=
      h.agree_written none
    refine ⟨_, _, write_none_iff.mpr ⟨hvalid, hactor, ?_, hnever, hwritten, rfl⟩,
      merge_iff.mpr ⟨⟨h.valid, hwritten⟩, ?_, fun _ => ⟨hagree, ?_⟩, rfl⟩⟩
    · rw [erased_writeBase, h.erased_iff, hlive]
    · rw [← join_clock]
      exact hlength
    · refine (join_valid_iff h.valid hwritten hagree hjoined).mpr ⟨hlength, ?_, ?_⟩
      · rw [h.size_join_written hscope hlive hwritten]
        exact hsize
      · intro hconversations a b ha hb
        have hold : ∀ {value : V}, some value ∈ (record.join ((record.writeBase projected
            actor).written actor none false)).heads.map Head.value →
            some value ∈ record.heads.map Head.value := by
          intro value hvalue
          obtain ⟨head, hhead, heq⟩ := List.mem_map.mp hvalue
          rcases (h.mem_join_written hlive hwritten head).mp hhead with hnew | ⟨hmem, _⟩
          · rw [hnew] at heq
            cases heq
          · exact List.mem_map.mpr ⟨head, hmem, heq⟩
        exact h.valid.bound hconversations a b (hold ha) (hold hb)

end

end Records
