import Mathlib.Data.Finset.Card
import Rynmesh.CausalRecordsJoin

/-!
# Writes over a projection

The source stores keep beside the record of an entity its projection: what the
branch shown on this device has observed. A local write starts from the projection
(`Record.writeBase`) and is merged back into the record.

* `Projects` says that the projection is below its record;
* `Projects.mem_written` says which heads are left after a local write;
* `conflict_iff` reads the conflict flag off the heads.
-/

namespace Records

open Checked

variable {V : Type}

/-- The record that a local write starts from: the projection, with the counter of the
writing actor and without its heads where the record has counted on. -/
def Record.writeBase (record projected : Record V) (actor : String) : Record V :=
  if projected.clockAt actor < record.clockAt actor then
    ⟨projected.clock.set actor (record.clockAt actor),
      projected.heads.filter fun head => head.actor ≠ actor, projected.erased⟩
  else projected

variable {cleaned value : Option V}

section Projections

variable {scope : Scope V} {identifier actor : String}
  {record projected row updated merged : Record V}

/-- The projection of a record is below it, and is erased when the record is. -/
structure Projects (scope : Scope V) (identifier : String) (record projected : Record V) :
    Prop where
  valid : Valid scope identifier record
  validProjected : Valid scope identifier projected
  above : Above record projected
  sorted : record.heads.Pairwise fun a b => a.le b ∧ a.dot ≠ b.dot
  erased : record.erased = true → projected.erased = true

theorem Above.refl (record : Record V) : Above record record :=
  ⟨fun _ => Nat.le_refl _, id, fun _ _ hmem _ => hmem⟩

theorem Above.trans {other : Record V} (hrecord : Valid scope identifier record)
    (h : Above record row) (h' : Above row other) : Above record other := by
  refine ⟨fun actor => (h'.clock actor).trans (h.clock actor),
    fun hother => h.erased (h'.erased hother), ?_⟩
  intro herased head hmem hcurrent
  have hcounter := hrecord.clockAt_head hmem
  have hlow := h'.clock head.actor
  have hhigh := h.clock head.actor
  have hrowHead := h.heads herased head hmem (by omega)
  have hrowErased : row.erased = false := by
    cases hany : row.erased with
    | false => rfl
    | true => rw [h.erased hany] at herased; cases herased
  exact h'.heads hrowErased head hrowHead hcurrent

theorem Scope.Canonical.size_empty (hscope : scope.Canonical) :
    scope.size (empty : Record V) ≤ maxRecordBytes := by
  obtain ⟨valueSize, hsize⟩ := hscope
  rw [hsize]
  simp [Record.textSize, empty, Dict.empty, maxRecordBytes]

theorem Projects.empty (hscope : scope.Canonical) (hentity : isEntityId identifier = true) :
    Projects scope identifier (Records.empty : Record V) Records.empty :=
  ⟨valid_empty hentity hscope.size_empty, valid_empty hentity hscope.size_empty, Above.refl _,
    List.Pairwise.nil, id⟩

theorem Projects.self [DecidableEq V] (hscope : scope.Canonical)
    (h : merge scope identifier record row = .ok merged) :
    Projects scope identifier merged merged := by
  obtain ⟨⟨hrecord, hrow⟩, _, _, heq⟩ := merge_iff.mp h
  have hvalid := merge_valid hscope h
  refine ⟨hvalid, hvalid, Above.refl _, ?_, id⟩
  rw [heq]
  exact join_sorted hrecord hrow

theorem Projects.reflexive (h : Projects scope identifier record projected) :
    Projects scope identifier record record :=
  ⟨h.valid, h.valid, Above.refl _, h.sorted, id⟩

theorem Projects.of_merged [DecidableEq V] (hscope : scope.Canonical)
    (h : merge scope identifier record updated = .ok merged)
    (herased : merged.erased = true → updated.erased = true) :
    Projects scope identifier merged updated := by
  obtain ⟨⟨hrecord, hupdated⟩, _, _, heq⟩ := merge_iff.mp h
  have hself := Projects.self hscope h
  refine ⟨hself.valid, hupdated, ?_, hself.sorted, herased⟩
  rw [heq]
  exact join_above_right hrecord hupdated (merge_agree h)

theorem Projects.merge [DecidableEq V] (hscope : scope.Canonical)
    (h : Projects scope identifier record projected)
    (hmerge : Records.merge scope identifier record row = .ok merged)
    (herased : merged.erased = true → projected.erased = true) :
    Projects scope identifier merged projected := by
  obtain ⟨⟨hrecord, hrow⟩, _, _, heq⟩ := merge_iff.mp hmerge
  have hself := Projects.self hscope hmerge
  refine ⟨hself.valid, h.validProjected, ?_, hself.sorted, herased⟩
  have habove : Above merged record := by
    rw [heq]
    exact join_above_left hrecord hrow (merge_agree hmerge)
  exact habove.trans hself.valid h.above

/-- **Merging the projection into the record changes nothing.** -/
theorem Projects.absorbs [DecidableEq V] (hscope : scope.Canonical)
    (h : Projects scope identifier record projected) :
    ∃ merged, Records.merge scope identifier record projected = .ok merged ∧
      merged.canonical = record.canonical :=
  h.above.merge hscope h.valid h.validProjected h.sorted

/-! ### A local write -/

theorem clockAt_writeBase (h : ∀ other, projected.clockAt other ≤ record.clockAt other)
    (actor other : String) : (record.writeBase projected actor).clockAt other =
      if other = actor then record.clockAt actor else projected.clockAt other := by
  have hle := h actor
  unfold Record.writeBase
  by_cases hlt : projected.clockAt actor < record.clockAt actor
  · rw [if_pos hlt]
    unfold Record.clockAt
    rw [Dict.get?_set]
    by_cases hother : other = actor
    · rw [if_pos hother, if_pos hother]
      rfl
    · rw [if_neg hother, if_neg hother]
  · rw [if_neg hlt]
    by_cases hother : other = actor
    · rw [if_pos hother, hother]
      omega
    · rw [if_neg hother]

theorem erased_writeBase (record projected : Record V) (actor : String) :
    (record.writeBase projected actor).erased = projected.erased := by
  unfold Record.writeBase
  split <;> rfl

/-- The dot that a local write uses, with its value. -/
def Record.nextHead (record : Record V) (actor : String) (value : Option V) : Head V :=
  ⟨actor, record.clockAt actor + 1, value⟩

theorem Projects.agree_written (h : Projects scope identifier record projected)
    (value : Option V) :
    Agree record ((record.writeBase projected actor).written actor value false) := by
  intro head hhead same hsame hdot
  have heq := List.mem_singleton.mp hsame
  have hactor : head.actor = actor := by
    rw [show head.actor = same.actor from congrArg Prod.fst hdot, heq]
  have hcounter : head.counter = record.clockAt actor + 1 := by
    rw [show head.counter = same.counter from congrArg Prod.snd hdot, heq]
    simp only [clockAt_writeBase h.above.clock, if_pos]
  have hcurrent := h.valid.clockAt_head hhead
  rw [hactor] at hcurrent
  omega

theorem Projects.mem_join_written (h : Projects scope identifier record projected)
    (hlive : record.erased = false)
    (hvalid : Valid scope identifier
      ((record.writeBase projected actor).written actor value false)) (head : Head V) :
    head ∈ (record.join ((record.writeBase projected actor).written actor value false)).heads ↔
      head = record.nextHead actor value ∨
        head ∈ record.heads ∧ head.actor ≠ actor ∧ projected.clockAt head.actor < head.counter := by
  have hclock : ∀ other,
      ((record.writeBase projected actor).written actor value false).clockAt other =
        if other = actor then record.clockAt actor + 1 else projected.clockAt other := by
    intro other
    rw [clockAt_written, clockAt_writeBase h.above.clock, clockAt_writeBase h.above.clock]
    by_cases hother : other = actor
    · rw [if_pos hother, if_pos hother, if_pos rfl]
    · rw [if_neg hother, if_neg hother, if_neg hother]
  have hheads : ((record.writeBase projected actor).written actor value false).heads =
      [record.nextHead actor value] := by
    simp only [Record.written, Record.nextHead, clockAt_writeBase h.above.clock, if_pos,
      Bool.false_eq_true, if_false]
  have herased : (record.join
      ((record.writeBase projected actor).written actor value false)).erased = false := by
    rw [join_erased, hlive]
    rfl
  rw [mem_join h.valid hvalid (h.agree_written value) herased]
  unfold Record.Keeps
  rw [hheads, List.mem_singleton, hclock]
  by_cases hactor : head.actor = actor
  · -- the writing actor keeps its new head alone
    rw [if_pos hactor, hactor]
    constructor
    · rintro ⟨hcounter, _, hnew⟩
      exact .inl (hnew (by omega))
    · intro hall
      have heq := hall.resolve_right fun hother => hother.2.1 rfl
      rw [heq]
      refine ⟨?_, ?_, fun _ => rfl⟩
      · simp [Record.nextHead]
      · intro hcurrent
        simp [Record.nextHead] at hcurrent
  · -- other actors keep what the projection has not observed
    have hle := h.above.clock head.actor
    rw [if_neg hactor]
    constructor
    · rintro ⟨hcounter, hkeeps, hnew⟩
      refine .inr ⟨hkeeps (by omega), hactor, ?_⟩
      by_contra hseen
      have heq := hnew (by omega)
      rw [heq] at hactor
      exact hactor rfl
    · intro hall
      rcases hall with heq | ⟨hmem, _, hunseen⟩
      · rw [heq] at hactor
        exact absurd rfl hactor
      · have hcurrent := h.valid.clockAt_head hmem
        refine ⟨by omega, fun _ => hmem, ?_⟩
        intro hseen
        omega

/-- **The heads after a local write** are its own one and those of other actors that the
projection had not observed. -/
theorem Projects.mem_written [DecidableEq V] (h : Projects scope identifier record projected)
    (hclean : cleanValue scope identifier value = .ok cleaned)
    (hwrite : write scope identifier (record.writeBase projected actor) actor value false =
      .ok updated) (hmerge : Records.merge scope identifier record updated = .ok merged)
    (head : Head V) :
    head ∈ merged.heads ↔ head = record.nextHead actor cleaned ∨
      head ∈ record.heads ∧ head.actor ≠ actor ∧ projected.clockAt head.actor < head.counter := by
  obtain ⟨hupdated, hbase⟩ := write_ok hclean hwrite
  rw [erased_writeBase] at hbase
  obtain ⟨⟨_, hvalid⟩, _, _, hjoin⟩ := merge_iff.mp hmerge
  have hlive : record.erased = false := by
    cases hany : record.erased with
    | false => rfl
    | true => rw [h.erased hany] at hbase; cases hbase
  rw [hupdated] at hvalid hjoin
  rw [hjoin]
  exact h.mem_join_written hlive hvalid head

theorem Projects.clockAt_written [DecidableEq V] (h : Projects scope identifier record projected)
    (hclean : cleanValue scope identifier value = .ok cleaned)
    (hwrite : write scope identifier (record.writeBase projected actor) actor value false =
      .ok updated) (hmerge : Records.merge scope identifier record updated = .ok merged) :
    merged.clockAt actor = record.clockAt actor + 1 := by
  obtain ⟨hupdated, _⟩ := write_ok hclean hwrite
  obtain ⟨_, _, _, hjoin⟩ := merge_iff.mp hmerge
  rw [hjoin, join_clockAt, hupdated, Records.clockAt_written, if_pos rfl,
    clockAt_writeBase h.above.clock, if_pos rfl]
  omega

end Projections

/-! ### The conflict flag -/

section Conflicts

variable (scope : Scope V)

theorem mem_keys_options (heads : List (Head V)) (options : Dict String (Option V)) (key : String) :
    key ∈ (heads.foldl (fun options head =>
        match options.get? (scope.fingerprint head.value) with
        | some _ => options
        | none => options.set (scope.fingerprint head.value) head.value) options).keys ↔
      key ∈ options.keys ∨ ∃ head ∈ heads, scope.fingerprint head.value = key := by
  induction heads generalizing options with
  | nil => simp
  | cons head rest ih =>
    rw [List.foldl_cons, ih, List.exists_mem_cons_iff]
    cases hget : options.get? (scope.fingerprint head.value) with
    | some value =>
      have hmem := Dict.mem_keys_of_get? hget
      constructor
      · intro h
        exact h.imp_right .inr
      · intro h
        rcases h with h | h | h
        · exact .inl h
        · rw [← h]
          exact .inl hmem
        · exact .inr h
    | none =>
      simp only [Dict.mem_keys_set]
      constructor
      · intro h
        rcases h with (h | h) | h
        · exact .inr (.inl h.symm)
        · exact .inl h
        · exact .inr (.inr h)
      · intro h
        rcases h with h | h | h
        · exact .inl (.inr h)
        · exact .inl (.inl h.symm)
        · exact .inr h

/-- **The conflict flag** is set exactly when two heads have different fingerprints. -/
theorem conflict_iff (record : Record V) : 1 < (candidates scope record).length ↔
    ∃ a ∈ record.heads, ∃ b ∈ record.heads,
      scope.fingerprint a.value ≠ scope.fingerprint b.value := by
  unfold candidates
  rw [List.length_map, List.length_insertionSort]
  have hmem := mem_keys_options scope record.heads Dict.empty
  generalize record.heads.foldl _ (Dict.empty : Dict String (Option V)) = options at hmem
  have hlength : options.entries.length = options.keys.toFinset.card := by
    rw [List.toFinset_card_of_nodup options.keys_nodup, Dict.keys, List.length_map]
  have hkeys : ∀ key, key ∈ options.keys ↔
      ∃ head ∈ record.heads, scope.fingerprint head.value = key := by
    intro key
    rw [hmem]
    simp [Dict.empty, Dict.keys]
  rw [hlength, Finset.one_lt_card]
  constructor
  · rintro ⟨k, hk, j, hj, hne⟩
    obtain ⟨a, ha, heq⟩ := (hkeys k).mp (List.mem_toFinset.mp hk)
    obtain ⟨b, hb, heq'⟩ := (hkeys j).mp (List.mem_toFinset.mp hj)
    exact ⟨a, ha, b, hb, by rw [heq, heq']; exact hne⟩
  · rintro ⟨a, ha, b, hb, hne⟩
    exact ⟨_, List.mem_toFinset.mpr ((hkeys _).mpr ⟨a, ha, rfl⟩), _,
      List.mem_toFinset.mpr ((hkeys _).mpr ⟨b, hb, rfl⟩), hne⟩

end Conflicts

/-! ### What a local write keeps -/

variable {record : Record V} {scope : Scope V} {identifier : String}

theorem view_ok [DecidableEq V] (h : Valid scope identifier record) :
    view scope identifier record = .ok (record.viewed (candidates scope record)) := by
  have hvalidate : validate scope identifier record = .ok () := validate_ok.mpr h
  simp only [view, hvalidate, ok_bind]
  rfl

theorem view_parts [DecidableEq V] {shown : View V} (h : view scope identifier record = .ok shown) :
    Valid scope identifier record ∧ shown = record.viewed (candidates scope record) := by
  simp only [view, bind_ok, pure_ok] at h
  obtain ⟨_, hvalid, heq⟩ := h
  exact ⟨validate_ok.mp hvalid, heq.symm⟩

theorem viewed_conflict (record : Record V) (options : List (Option V)) :
    (record.viewed options).conflict = decide (1 < options.length) := by
  unfold Record.viewed
  split <;> rfl

theorem viewed_erased (record : Record V) (options : List (Option V)) :
    (record.viewed options).erased = record.erased := by
  unfold Record.viewed
  split <;> rfl

theorem viewed_deleted (options : List (Option V)) (h : record.erased = true) :
    (record.viewed options).deleted = true := by
  unfold Record.viewed
  rw [h, Bool.true_or, if_pos rfl]

/-- **What an ordinary local write makes of a record**: beside its own head the ones of other
actors that the projection had not observed, with a counter one further, and a conflict where
two values are left. -/
structure LocalWrite [DecidableEq V] (scope : Scope V) (identifier actor : String)
    (record projected next : Record V) (value : Option V) : Prop where
  heads : ∀ head, head ∈ next.heads ↔ head = record.nextHead actor value ∨
    head ∈ record.heads ∧ head.actor ≠ actor ∧ projected.clockAt head.actor < head.counter
  counter : next.clockAt actor = record.clockAt actor + 1
  conflict : ∀ a ∈ next.heads, ∀ b ∈ next.heads, a.value ≠ b.value →
    ∃ shown, view scope identifier next = .ok shown ∧ shown.conflict = true

theorem Projects.localWrite [DecidableEq V] {actor : String} {projected updated merged : Record V}
    (hscope : scope.Canonical) (hvalues : ∀ a b, cleanValue scope identifier a = .ok a →
      cleanValue scope identifier b = .ok b → scope.fingerprint a = scope.fingerprint b → a = b)
    (h : Projects scope identifier record projected)
    (hclean : cleanValue scope identifier value = .ok cleaned)
    (hwrite : write scope identifier (record.writeBase projected actor) actor value false =
      .ok updated) (hmerge : Records.merge scope identifier record updated = .ok merged) :
    LocalWrite scope identifier actor record projected merged cleaned where
  heads := h.mem_written hclean hwrite hmerge
  counter := h.clockAt_written hclean hwrite hmerge
  conflict := by
    intro a ha b hb hne
    have hvalid := merge_valid hscope hmerge
    refine ⟨_, view_ok hvalid, ?_⟩
    rw [viewed_conflict, decide_eq_true_eq, conflict_iff]
    exact ⟨a, ha, b, hb, fun heq =>
      hne (hvalues _ _ (hvalid.heads a ha).clean (hvalid.heads b hb).clean heq)⟩

end Records
