import Mathlib.Data.Finset.Basic
import Rynmesh.CausalRecords
import Rynmesh.ObservedWrites

/-!
# Registers of one entity at many devices

Every device writes through its own replica and merges records that were
produced anywhere, in any order and any number of times.  A ghost set beside
each record holds the writes it observed; `Reflects` says that the record is
determined by that set, and `registers_converge` reads it off in every world.
-/

namespace Records

open Checked

variable {V : Type} {scope : Scope V} {identifier : String}

abbrev Dot := String × Nat

/-- A write, with the writes its replica had observed. -/
structure Write (V : Type) where
  head : Head V
  erase : Bool
  saw : Finset Dot

/-- A record with the writes it observed. -/
structure Replica (V : Type) where
  record : Record V
  seen : Finset Dot

structure World (V : Type) where
  /-- The replica of each actor. -/
  replicas : String → Replica V
  /-- Every record that a call returned. -/
  produced : List (Replica V)
  writes : List (Write V)

namespace World

def initial : World V := ⟨fun _ => ⟨empty, ∅⟩, [], []⟩

variable (w : World V)

def hold (actor : String) (replica : Replica V) : World V where
  replicas := fun other => if other = actor then replica else w.replicas other
  produced := replica :: w.produced
  writes := w.writes

def log (write : Write V) : World V := { w with writes := write :: w.writes }

end World

/-- The head that a write of an actor makes. -/
def Replica.next (replica : Replica V) (actor : String) (value : Option V) : Head V :=
  ⟨actor, replica.record.clockAt actor + 1, value⟩

inductive Step [DecidableEq V] (scope : Scope V) (identifier : String) (w : World V) :
    World V → Prop
  | write (actor : String) (value : Option V) (erase : Bool) {cleaned : Option V}
      {record : Record V} (hclean : cleanValue scope identifier value = .ok cleaned)
      (h : write scope identifier (w.replicas actor).record actor value erase = .ok record) :
      Step scope identifier w
        ((w.hold actor ⟨record, insert ((w.replicas actor).next actor cleaned).dot
          (w.replicas actor).seen⟩).log
            ⟨(w.replicas actor).next actor cleaned, erase, (w.replicas actor).seen⟩)
  /-- Any record that was ever produced is delivered, perhaps again. -/
  | merge (actor : String) {remote : Replica V} (hremote : remote ∈ w.produced)
      {record : Record V}
      (h : merge scope identifier (w.replicas actor).record remote.record = .ok record) :
      Step scope identifier w
        (w.hold actor ⟨record, (w.replicas actor).seen ∪ remote.seen⟩)

inductive Run [DecidableEq V] (scope : Scope V) (identifier : String) (w : World V) : World V → Prop
  | refl : Run scope identifier w w
  | step {w' w'' : World V} (h : Run scope identifier w w')
      (hstep : Step scope identifier w' w'') : Run scope identifier w w''

/-! ### Reading after joining -/

theorem clockAt_written (record : Record V) (actor other : String) (value : Option V)
    (erase : Bool) : (record.written actor value erase).clockAt other =
      if other = actor then record.clockAt actor + 1 else record.clockAt other := by
  unfold Record.clockAt Record.written
  rw [Dict.get?_set]
  by_cases h : other = actor
  · rw [if_pos h, if_pos h]
    rfl
  · rw [if_neg h, if_neg h]

theorem get?_joinClock (left right : Dict String Nat) (actor : String) :
    (joinClock left right).get? actor =
      match right.get? actor with
      | some counter => some (max ((left.get? actor).getD 0) counter)
      | none => left.get? actor := by
  have hfold : ∀ (entries : List (String × Nat)) (clock : Dict String Nat),
      (entries.map Prod.fst).Nodup →
      (entries.foldl (fun clock entry =>
        clock.set entry.1 (max ((left.get? entry.1).getD 0) entry.2)) clock).get? actor =
      match Dict.lookup actor entries with
      | some counter => some (max ((left.get? actor).getD 0) counter)
      | none => clock.get? actor := by
    intro entries
    induction entries with
    | nil =>
      intro clock _
      rfl
    | cons entry entries ih =>
      intro clock hnodup
      rw [List.map_cons, List.nodup_cons] at hnodup
      rw [List.foldl_cons, ih _ hnodup.2]
      by_cases hactor : entry.1 = actor
      · have hnone : Dict.lookup actor entries = none := by
          rw [Dict.lookup_eq_none_iff, ← hactor]
          exact hnodup.1
        rw [hnone, hactor]
        simp [Dict.lookup, hactor]
      · have hlookup : Dict.lookup actor (entry :: entries) = Dict.lookup actor entries := by
          simp [Dict.lookup, hactor]
        rw [hlookup, Dict.get?_set_ne _ _ (Ne.symm hactor)]
  exact hfold right.entries left right.nodup

theorem clockAt_join (left right : Record V) (heads : List (Head V)) (erased : Bool)
    (actor : String) :
    (⟨joinClock left.clock right.clock, heads, erased⟩ : Record V).clockAt actor =
      max (left.clockAt actor) (right.clockAt actor) := by
  unfold Record.clockAt
  rw [get?_joinClock]
  cases right.clock.get? actor with
  | none => simp
  | some counter => rfl

/-! ### What the calls return -/

variable {record : Record V}

theorem write_ok [DecidableEq V] {previous : Record V} {actor : String} {value cleaned : Option V}
    {erase : Bool} (hclean : cleanValue scope identifier value = .ok cleaned)
    (h : write scope identifier previous actor value erase = .ok record) :
    record = previous.written actor cleaned erase ∧ previous.erased = false := by
  unfold write at h
  simp only [bind_ok, require_ok, hclean] at h
  obtain ⟨_, _, _, _, _, herased, _, _, _, hcleaned, _, _, _, _, _, _, heq⟩ := h
  cases hcleaned
  cases heq
  exact ⟨rfl, herased⟩

theorem merge_ok [DecidableEq V] {left right : Record V}
    (h : merge scope identifier left right = .ok record) :
    record.clock = joinClock left.clock right.clock ∧
      record.erased = (left.erased || right.erased) ∧
      record.heads = (if record.erased then [] else joinHeads left right) ∧
      (record.erased = false → ∀ head ∈ left.heads, ∀ same ∈ right.heads,
        head.dot = same.dot → head.value = same.value) := by
  unfold merge at h
  simp only [bind_ok, require_ok] at h
  obtain ⟨_, _, _, _, _, _, h⟩ := h
  split at h
  · rename_i herased
    cases h
    refine ⟨rfl, herased.symm, rfl, ?_⟩
    intro hfalse
    cases hfalse
  · rename_i herased
    simp only [bind_ok, require_ok] at h
    obtain ⟨_, hconflict, _, _, heq⟩ := h
    cases heq
    rw [Bool.not_eq_true] at herased
    exact ⟨rfl, herased.symm, rfl, fun _ => hconflict⟩

/-! ### What a record reflects -/

/-- What the write of a dot had observed. -/
def saw (writes : List (Write V)) (dot : Dot) : Set Dot :=
  {other | ∃ write ∈ writes, write.head.dot = dot ∧ other ∈ write.saw}

/-- A record is what the writes that its replica observed leave of it. -/
structure Reflects (writes : List (Write V)) (replica : Replica V) : Prop where
  clock : ∀ actor counter, (actor, counter) ∈ replica.seen ↔
    1 ≤ counter ∧ counter ≤ replica.record.clockAt actor
  positive : ∀ actor counter, replica.record.clock.get? actor = some counter → 1 ≤ counter
  written : ∀ dot ∈ replica.seen, ∃ write ∈ writes, write.head.dot = dot
  closed : Observed.Closed (saw writes) (replica.seen : Set Dot)
  erased : replica.record.erased = true ↔
    ∃ write ∈ writes, write.head.dot ∈ replica.seen ∧ write.erase = true
  heads : ∀ head, head ∈ replica.record.heads ↔ replica.record.erased = false ∧
    (∃ write ∈ writes, write.head = head) ∧
    head.dot ∈ Observed.frontier (saw writes) (replica.seen : Set Dot)
  sorted : replica.record.heads.Pairwise fun a b => a.le b ∧ a.dot ≠ b.dot

structure Inv (w : World V) : Prop where
  unique : (w.writes.map fun write => write.head.dot).Nodup
  own : ∀ write ∈ w.writes, write.head.dot ∈ (w.replicas write.head.actor).seen
  replicas : ∀ actor, Reflects w.writes (w.replicas actor)
  produced : ∀ replica ∈ w.produced, Reflects w.writes replica

variable {replica : Replica V} {write : Write V}

theorem Reflects.head_iff {writes : List (Write V)} (h : Reflects writes replica)
    (herased : replica.record.erased = false) (hwrite : write ∈ writes) :
    (∃ same ∈ replica.record.heads, same.dot = write.head.dot) ↔
      write.head.dot ∈ Observed.frontier (saw writes) (replica.seen : Set Dot) := by
  constructor
  · rintro ⟨same, hsame, hdot⟩
    rw [← hdot]
    exact ((h.heads same).mp hsame).2.2
  · intro hfrontier
    exact ⟨write.head, (h.heads _).mpr ⟨herased, ⟨write, hwrite, rfl⟩, hfrontier⟩, rfl⟩

/-! ### Writing -/

section Writing

variable {w : World V} {actor : String} {cleaned : Option V} {erase : Bool}

theorem Inv.fresh (h : Inv w) (hmem : write ∈ w.writes) :
    write.head.dot ≠ ((w.replicas actor).next actor cleaned).dot := by
  intro heq
  have hactor : write.head.actor = actor := congrArg Prod.fst heq
  have hcounter : write.head.counter = (w.replicas actor).record.clockAt actor + 1 :=
    congrArg Prod.snd heq
  have hown := h.own write hmem
  rw [hactor] at hown
  have hle := ((h.replicas actor).clock _ _).mp hown
  rw [show write.head.actor = actor from hactor] at hle
  omega

theorem Reflects.log {writes : List (Write V)} (h : Reflects writes replica)
    (hfresh : write.head.dot ∉ replica.seen) : Reflects (write :: writes) replica := by
  have hsaw : ∀ dot ∈ replica.seen, saw (write :: writes) dot = saw writes dot := by
    intro dot hdot
    ext other
    constructor
    · rintro ⟨write', hmem, heq, hother⟩
      rcases List.mem_cons.mp hmem with hnew | hmem
      · rw [← heq, hnew] at hdot
        exact absurd hdot hfresh
      · exact ⟨write', hmem, heq, hother⟩
    · rintro ⟨write', hmem, heq, hother⟩
      exact ⟨write', .tail _ hmem, heq, hother⟩
  have hfrontier : Observed.frontier (saw (write :: writes)) (replica.seen : Set Dot) =
      Observed.frontier (saw writes) (replica.seen : Set Dot) := by
    ext dot
    constructor
    · rintro ⟨hdot, hunseen⟩
      exact ⟨hdot, fun e he => hsaw e he ▸ hunseen e he⟩
    · rintro ⟨hdot, hunseen⟩
      exact ⟨hdot, fun e he => (hsaw e he).symm ▸ hunseen e he⟩
  refine ⟨h.clock, h.positive, ?_, ?_, ?_, ?_, h.sorted⟩
  · intro dot hdot
    obtain ⟨write', hmem, heq⟩ := h.written dot hdot
    exact ⟨write', .tail _ hmem, heq⟩
  · intro dot hdot
    rw [hsaw dot hdot]
    exact h.closed dot hdot
  · rw [h.erased]
    constructor
    · rintro ⟨write', hmem, hseen, herase⟩
      exact ⟨write', .tail _ hmem, hseen, herase⟩
    · rintro ⟨write', hmem, hseen, herase⟩
      rcases List.mem_cons.mp hmem with hnew | hmem
      · rw [hnew] at hseen
        exact absurd hseen hfresh
      · exact ⟨write', hmem, hseen, herase⟩
  · intro head
    rw [h.heads head, hfrontier]
    constructor
    · rintro ⟨herased, ⟨write', hmem, heq⟩, hrest⟩
      exact ⟨herased, ⟨write', .tail _ hmem, heq⟩, hrest⟩
    · rintro ⟨herased, ⟨write', hmem, heq⟩, hrest⟩
      rcases List.mem_cons.mp hmem with hnew | hmem
      · refine absurd hrest.1 ?_
        rw [← heq, hnew]
        exact hfresh
      · exact ⟨herased, ⟨write', hmem, heq⟩, hrest⟩

theorem Inv.wrote (h : Inv w)
    (hrecord : record = (w.replicas actor).record.written actor cleaned erase)
    (herased : (w.replicas actor).record.erased = false) :
    Reflects (⟨(w.replicas actor).next actor cleaned, erase, (w.replicas actor).seen⟩ :: w.writes)
      ⟨record, insert ((w.replicas actor).next actor cleaned).dot (w.replicas actor).seen⟩ := by
  have hold := h.replicas actor
  generalize hreplica : w.replicas actor = replica at *
  have hnew : (replica.next actor cleaned).dot ∉ replica.seen := by
    intro hmem
    have hle := (hold.clock _ _).mp hmem
    exact absurd hle.2 (Nat.not_succ_le_self _)
  have hfresh : ∀ write ∈ w.writes, write.head.dot ≠ (replica.next actor cleaned).dot := by
    intro write hmem
    rw [← hreplica]
    exact h.fresh hmem
  -- the new write saw what the replica had observed
  have hsaw : saw (⟨replica.next actor cleaned, erase, replica.seen⟩ :: w.writes)
      (replica.next actor cleaned).dot = (replica.seen : Set Dot) := by
    ext dot
    constructor
    · rintro ⟨write, hmem, heq, hdot⟩
      rcases List.mem_cons.mp hmem with hnew' | hmem
      · rw [hnew'] at hdot
        exact hdot
      · exact absurd heq (hfresh write hmem)
    · intro hdot
      exact ⟨_, (.head _), rfl, hdot⟩
  have hlogged : Reflects (⟨replica.next actor cleaned, erase, replica.seen⟩ :: w.writes) replica :=
    hold.log hnew
  have hclosed := hlogged.closed.insert hsaw
  have hfrontier := Observed.frontier_insert hlogged.closed hnew hsaw
  refine ⟨?_, ?_, ?_, ?_, ?_, ?_, ?_⟩
  · intro other counter
    rw [Finset.mem_insert, hold.clock other counter, hrecord, clockAt_written]
    by_cases hother : other = actor
    · rw [if_pos hother, hother]
      constructor
      · intro hmem
        rcases hmem with heq | hle
        · have hcounter : counter = replica.record.clockAt actor + 1 := congrArg Prod.snd heq
          omega
        · omega
      · intro hall
        by_cases hlast : counter = replica.record.clockAt actor + 1
        · left
          rw [hlast]
          rfl
        · right
          omega
    · rw [if_neg hother]
      constructor
      · intro hmem
        rcases hmem with heq | hle
        · exact absurd (congrArg Prod.fst heq) hother
        · exact hle
      · exact .inr
  · rw [hrecord]
    exact Dict.forall_get?_set (Nat.succ_le_succ (Nat.zero_le _)) hold.positive
  · intro dot hdot
    rcases Finset.mem_insert.mp hdot with heq | hdot
    · exact ⟨_, (.head _), heq.symm⟩
    · exact hlogged.written dot hdot
  · rw [Finset.coe_insert]
    exact hclosed
  · rw [hrecord]
    constructor
    · intro herase
      exact ⟨_, (.head _), Finset.mem_insert_self _ _, herase⟩
    · rintro ⟨write, hmem, hseen, herase⟩
      rcases List.mem_cons.mp hmem with heq | hmem
      · rw [heq] at herase
        exact herase
      · rcases Finset.mem_insert.mp hseen with heq | hseen
        · exact absurd heq (hfresh write hmem)
        · have htrue := hold.erased.mpr ⟨write, hmem, hseen, herase⟩
          rw [herased] at htrue
          cases htrue
  · intro head
    rw [Finset.coe_insert, hfrontier, hrecord]
    cases erase with
    | true =>
      constructor
      · nofun
      · rintro ⟨hfalse, _⟩
        cases hfalse
    | false =>
      constructor
      · intro hmem
        have heq : head = replica.next actor cleaned := List.mem_singleton.mp hmem
        rw [heq]
        exact ⟨rfl, ⟨_, (.head _), rfl⟩, rfl⟩
      · rintro ⟨_, ⟨write, hmem, heq⟩, hdot⟩
        refine List.mem_singleton.mpr ?_
        rcases List.mem_cons.mp hmem with hnew' | hmem
        · rw [← heq, hnew']
          rfl
        · rw [← heq] at hdot
          exact absurd hdot (hfresh write hmem)
  · rw [hrecord]
    cases erase with
    | true => exact List.Pairwise.nil
    | false => exact List.pairwise_singleton _ _

end Writing

/-! ### Merging -/

theorem kept_iff {writes : List (Write V)} (h : Reflects writes replica)
    (herased : replica.record.erased = false) (hwrite : write ∈ writes)
    (hpositive : 1 ≤ write.head.counter) :
    kept replica.record write.head = true ↔
      write.head.dot ∈ Observed.frontier (saw writes) (replica.seen : Set Dot) ∨
        write.head.dot ∉ (replica.seen : Set Dot) := by
  unfold kept
  rw [Bool.or_eq_true, List.any_eq_true, decide_eq_true_eq, ← h.head_iff herased hwrite]
  simp only [decide_eq_true_eq]
  refine or_congr Iff.rfl ?_
  rw [Finset.mem_coe, show write.head.dot = (write.head.actor, write.head.counter) from rfl,
    h.clock]
  omega

theorem mem_joinHeads {left right : Record V}
    (hsame : ∀ head ∈ left.heads, ∀ same ∈ right.heads, head.dot = same.dot →
      head.value = same.value) {head : Head V} :
    head ∈ joinHeads left right ↔
      (head ∈ left.heads ∧ kept right head = true) ∨
        (head ∈ right.heads ∧ kept left head = true) := by
  unfold joinHeads
  rw [List.mem_insertionSort, List.mem_append, List.mem_filter, List.mem_filter,
    Bool.and_eq_true, Bool.not_eq_true']
  constructor
  · intro h
    rcases h with ⟨hmem, _, hkept⟩ | hright
    · exact .inl ⟨hmem, hkept⟩
    · exact .inr hright
  · intro h
    rcases h with ⟨hmem, hkept⟩ | hright
    · by_cases hany : (right.heads.any fun same => decide (same.dot = head.dot)) = true
      · obtain ⟨same, hright, hdot⟩ := List.any_eq_true.mp hany
        have hdot := of_decide_eq_true hdot
        have hvalue := hsame head hmem same hright hdot.symm
        have heq : head = same := by
          cases head
          cases same
          simp only [Head.dot, Prod.mk.injEq] at hdot
          simp only [Head.mk.injEq]
          exact ⟨hdot.1.symm, hdot.2.symm, hvalue⟩
        refine .inr ⟨heq ▸ hright, ?_⟩
        unfold kept
        rw [Bool.or_eq_true, List.any_eq_true]
        exact .inl ⟨head, hmem, by simp⟩
      · rw [Bool.not_eq_true] at hany
        exact .inl ⟨hmem, hany, hkept⟩
    · exact .inr hright

theorem Head.le_total (a b : Head V) : a.le b ∨ b.le a := by
  rcases lt_trichotomy a.actor b.actor with hlt | heq | hlt
  · exact .inl (.inl hlt)
  · rcases Nat.le_total a.counter b.counter with hle | hle
    · exact .inl (.inr ⟨heq, hle⟩)
    · exact .inr (.inr ⟨heq.symm, hle⟩)
  · exact .inr (.inl hlt)

theorem Head.le_trans {a b c : Head V} (hab : a.le b) (hbc : b.le c) : a.le c := by
  rcases hab with hab | ⟨hab, hle⟩
  · rcases hbc with hbc | ⟨hbc, _⟩
    · exact .inl (hab.trans hbc)
    · exact .inl (hbc ▸ hab)
  · rcases hbc with hbc | ⟨hbc, hle'⟩
    · exact .inl (hab ▸ hbc)
    · exact .inr ⟨hab.trans hbc, hle.trans hle'⟩

theorem Head.dot_eq {a b : Head V} (hab : a.le b) (hba : b.le a) : a.dot = b.dot := by
  rcases hab with hab | ⟨hab, hle⟩
  · rcases hba with hba | ⟨hba, _⟩
    · exact absurd hba hab.asymm
    · exact absurd hba.symm hab.ne
  · rcases hba with hba | ⟨_, hle'⟩
    · exact absurd hab.symm hba.ne
    · exact Prod.ext hab (Nat.le_antisymm hle hle')

instance : IsTrans (Head V) Head.le := ⟨fun _ _ _ => Head.le_trans⟩

instance : Std.Total (Head.le (V := V)) := ⟨Head.le_total⟩

theorem joinHeads_sorted {left right : Record V}
    (hleft : left.heads.Pairwise fun a b => a.dot ≠ b.dot)
    (hright : right.heads.Pairwise fun a b => a.dot ≠ b.dot) :
    (joinHeads left right).Pairwise fun a b => a.le b ∧ a.dot ≠ b.dot := by
  have hdistinct : ((left.heads.filter fun head =>
        !(right.heads.any fun same => decide (same.dot = head.dot)) && kept right head) ++
      right.heads.filter (kept left)).Pairwise fun a b => a.dot ≠ b.dot := by
    refine List.pairwise_append.mpr ⟨hleft.filter _, hright.filter _, ?_⟩
    intro a ha b hb heq
    have hnone := (List.mem_filter.mp ha).2
    rw [Bool.and_eq_true, Bool.not_eq_true', List.any_eq_false] at hnone
    exact hnone.1 b (List.mem_filter.mp hb).1 (decide_eq_true heq.symm)
  refine (List.pairwise_insertionSort Head.le _).and ?_
  exact (List.perm_insertionSort Head.le _).symm.pairwise hdistinct (fun h => h.symm)

theorem Reflects.merge {writes : List (Write V)} {left right : Replica V}
    (hleft : Reflects writes left) (hright : Reflects writes right)
    (hclock : record.clock = joinClock left.record.clock right.record.clock)
    (herased : record.erased = (left.record.erased || right.record.erased))
    (hheads : record.heads =
      if record.erased then [] else joinHeads left.record right.record)
    (hsame : record.erased = false → ∀ head ∈ left.record.heads, ∀ same ∈ right.record.heads,
      head.dot = same.dot → head.value = same.value) :
    Reflects writes ⟨record, left.seen ∪ right.seen⟩ := by
  have hclockAt : ∀ actor, record.clockAt actor =
      max (left.record.clockAt actor) (right.record.clockAt actor) := by
    intro actor
    rw [← clockAt_join left.record right.record record.heads record.erased, ← hclock]
  refine ⟨?_, ?_, ?_, ?_, ?_, ?_, ?_⟩
  · intro actor counter
    rw [Finset.mem_union, hleft.clock, hright.clock, hclockAt]
    omega
  · intro actor counter hget
    rw [hclock, get?_joinClock] at hget
    cases hother : right.record.clock.get? actor with
    | none =>
      rw [hother] at hget
      exact hleft.positive actor counter hget
    | some other =>
      rw [hother] at hget
      have hpositive := hright.positive actor other hother
      have heq := Option.some.inj hget
      omega
  · intro dot hdot
    rcases Finset.mem_union.mp hdot with hdot | hdot
    · exact hleft.written dot hdot
    · exact hright.written dot hdot
  · rw [Finset.coe_union]
    exact hleft.closed.union hright.closed
  · rw [herased, Bool.or_eq_true, hleft.erased, hright.erased]
    constructor
    · intro h
      rcases h with ⟨write, hmem, hseen, herase⟩ | ⟨write, hmem, hseen, herase⟩
      · exact ⟨write, hmem, Finset.mem_union_left _ hseen, herase⟩
      · exact ⟨write, hmem, Finset.mem_union_right _ hseen, herase⟩
    · rintro ⟨write, hmem, hseen, herase⟩
      rcases Finset.mem_union.mp hseen with hseen | hseen
      · exact .inl ⟨write, hmem, hseen, herase⟩
      · exact .inr ⟨write, hmem, hseen, herase⟩
  · intro head
    rw [hheads]
    by_cases hany : record.erased = true
    · rw [if_pos hany, hany]
      constructor
      · nofun
      · rintro ⟨hfalse, _⟩
        cases hfalse
    · rw [if_neg hany]
      rw [Bool.not_eq_true] at hany
      have hneither := hany
      rw [herased, Bool.or_eq_false_iff] at hneither
      rw [mem_joinHeads (hsame hany), Finset.coe_union,
        Observed.mem_frontier_union hleft.closed hright.closed, hleft.heads, hright.heads]
      constructor
      · intro h
        rcases h with ⟨⟨_, ⟨write, hmem, heq⟩, hdot⟩, hkept⟩ |
          ⟨⟨_, ⟨write, hmem, heq⟩, hdot⟩, hkept⟩
        · have hpositive := ((hleft.clock _ _).mp hdot.1).1
          rw [← heq] at hkept hpositive
          have hother := (kept_iff hright hneither.2 hmem hpositive).mp hkept
          rw [heq] at hother
          exact ⟨hany, ⟨write, hmem, heq⟩, .inl ⟨hdot, hother⟩⟩
        · have hpositive := ((hright.clock _ _).mp hdot.1).1
          rw [← heq] at hkept hpositive
          have hother := (kept_iff hleft hneither.1 hmem hpositive).mp hkept
          rw [heq] at hother
          exact ⟨hany, ⟨write, hmem, heq⟩, .inr ⟨hdot, hother⟩⟩
      · rintro ⟨_, ⟨write, hmem, heq⟩, h⟩
        rcases h with ⟨hdot, hother⟩ | ⟨hdot, hother⟩
        · have hpositive := ((hleft.clock _ _).mp hdot.1).1
          rw [← heq] at hother hpositive
          have hkept := (kept_iff hright hneither.2 hmem hpositive).mpr hother
          rw [heq] at hkept
          exact .inl ⟨⟨hneither.1, ⟨write, hmem, heq⟩, hdot⟩, hkept⟩
        · have hpositive := ((hright.clock _ _).mp hdot.1).1
          rw [← heq] at hother hpositive
          have hkept := (kept_iff hleft hneither.1 hmem hpositive).mpr hother
          rw [heq] at hkept
          exact .inr ⟨⟨hneither.2, ⟨write, hmem, heq⟩, hdot⟩, hkept⟩
  · rw [hheads]
    by_cases hany : record.erased = true
    · rw [if_pos hany]
      exact List.Pairwise.nil
    · rw [if_neg hany]
      exact joinHeads_sorted (hleft.sorted.imp fun h => h.2) (hright.sorted.imp fun h => h.2)

/-! ### Runs -/

section Runs

variable {w w' : World V}

/-- What one call preserves. -/
theorem Inv.step [DecidableEq V] (h : Inv w) (hstep : Step scope identifier w w') : Inv w' := by
  cases hstep with
  | @write actor value erase cleaned record hclean hwrite =>
    obtain ⟨hrecord, herased⟩ := write_ok hclean hwrite
    have hnew := h.wrote hrecord herased
    have hold : ∀ replica, Reflects w.writes replica → Reflects
        (⟨(w.replicas actor).next actor cleaned, erase, (w.replicas actor).seen⟩ :: w.writes)
        replica := by
      intro replica hreplica
      refine hreplica.log ?_
      intro hmem
      obtain ⟨write, hwritten, heq⟩ := hreplica.written _ hmem
      exact h.fresh hwritten heq
    refine ⟨?_, ?_, ?_, ?_⟩
    · refine List.nodup_cons.mpr ⟨?_, h.unique⟩
      intro hmem
      obtain ⟨write, hwritten, heq⟩ := List.mem_map.mp hmem
      exact h.fresh hwritten heq
    · intro write hmem
      rcases List.mem_cons.mp hmem with heq | hmem
      · rw [heq]
        simp [World.log, World.hold, Replica.next]
      · have hown := h.own write hmem
        by_cases hactor : write.head.actor = actor
        · simp only [World.log, World.hold, if_pos hactor]
          rw [hactor] at hown
          exact Finset.mem_insert_of_mem hown
        · simp only [World.log, World.hold, if_neg hactor]
          exact hown
    · intro other
      by_cases hactor : other = actor
      · simp only [World.log, World.hold, if_pos hactor]
        exact hnew
      · simp only [World.log, World.hold, if_neg hactor]
        exact hold _ (h.replicas other)
    · intro replica hmem
      rcases List.mem_cons.mp hmem with heq | hmem
      · rw [heq]
        exact hnew
      · exact hold replica (h.produced replica hmem)
  | @merge actor remote hremote record hmerge =>
    obtain ⟨hclock, herased, hheads, hsame⟩ := merge_ok hmerge
    have hnew : Reflects w.writes ⟨record, (w.replicas actor).seen ∪ remote.seen⟩ :=
      (h.replicas actor).merge (h.produced remote hremote) hclock herased hheads hsame
    refine ⟨h.unique, ?_, ?_, ?_⟩
    · intro write hmem
      have hown := h.own write hmem
      by_cases hactor : write.head.actor = actor
      · simp only [World.hold, if_pos hactor]
        rw [hactor] at hown
        exact Finset.mem_union_left _ hown
      · simp only [World.hold, if_neg hactor]
        exact hown
    · intro other
      by_cases hactor : other = actor
      · simp only [World.hold, if_pos hactor]
        exact hnew
      · simp only [World.hold, if_neg hactor]
        exact h.replicas other
    · intro replica hmem
      rcases List.mem_cons.mp hmem with heq | hmem
      · rw [heq]
        exact hnew
      · exact h.produced replica hmem

theorem Inv.run [DecidableEq V] (h : Inv w) (hrun : Run scope identifier w w') : Inv w' := by
  induction hrun with
  | refl => exact h
  | step _ hstep ih => exact ih.step hstep

theorem initial_inv : Inv (World.initial : World V) := by
  refine ⟨List.nodup_nil, ?_, ?_, ?_⟩
  · nofun
  · intro actor
    refine ⟨?_, ?_, ?_, ?_, ?_, ?_, List.Pairwise.nil⟩
    · intro other counter
      simp only [World.initial, Finset.notMem_empty, false_iff]
      rintro ⟨hpositive, hle⟩
      exact absurd (hpositive.trans hle) (Nat.not_succ_le_zero 0)
    · nofun
    · intro dot hdot
      exact absurd hdot (Finset.notMem_empty _)
    · intro dot hdot
      exact absurd hdot (Finset.notMem_empty _)
    · constructor
      · nofun
      · rintro ⟨write, hmem, _⟩
        cases hmem
    · intro head
      constructor
      · nofun
      · rintro ⟨_, ⟨write, hmem, _⟩, _⟩
        cases hmem
  · nofun

theorem Run.seen [DecidableEq V] (hrun : Run scope identifier w w') (actor : String) :
    (w.replicas actor).seen ⊆ (w'.replicas actor).seen := by
  induction hrun with
  | refl => exact Finset.Subset.refl _
  | @step middle next _ hstep ih =>
    refine ih.trans ?_
    cases hstep with
    | write other _ _ _ _ =>
      by_cases hactor : actor = other
      · simp only [World.log, World.hold, if_pos hactor]
        rw [hactor]
        exact Finset.subset_insert _ _
      · simp only [World.log, World.hold, if_neg hactor]
        exact Finset.Subset.refl _
    | merge other _ _ =>
      by_cases hactor : actor = other
      · simp only [World.hold, if_pos hactor]
        rw [hactor]
        exact Finset.subset_union_left
      · simp only [World.hold, if_neg hactor]
        exact Finset.Subset.refl _

theorem Run.writes [DecidableEq V] (hrun : Run scope identifier w w') (h : write ∈ w.writes) :
    write ∈ w'.writes := by
  induction hrun with
  | refl => exact h
  | step _ hstep ih =>
    cases hstep with
    | write _ _ _ _ _ => exact .tail _ ih
    | merge _ _ _ => exact ih

end Runs

/-! ### What a record says of its writes -/

theorem Reflects.count {w : World V} (hw : Inv w) (h : Reflects w.writes replica) (actor : String) :
    replica.record.clockAt actor = (w.writes.filter fun write =>
      write.head.actor = actor ∧ write.head.dot ∈ replica.seen).length := by
  have hperm : ((w.writes.filter fun write =>
      write.head.actor = actor ∧ write.head.dot ∈ replica.seen).map
        fun write => write.head.dot).Perm
      ((List.range' 1 (replica.record.clockAt actor)).map fun counter => (actor, counter)) := by
    refine (List.perm_ext_iff_of_nodup (List.Sublist.nodup (List.filter_sublist.map _) hw.unique)
      ?_).mpr ?_
    · refine List.Nodup.map ?_ List.nodup_range'
      intro a b heq
      exact congrArg Prod.snd heq
    · intro dot
      rw [List.mem_map, List.mem_map]
      constructor
      · rintro ⟨write, hmem, hdot⟩
        obtain ⟨_, hkeep⟩ := List.mem_filter.mp hmem
        obtain ⟨hactor, hseen⟩ := of_decide_eq_true hkeep
        have hle := (h.clock _ _).mp hseen
        rw [show write.head.actor = actor from hactor] at hle
        refine ⟨write.head.counter, ?_, ?_⟩
        · rw [List.mem_range'_1]
          omega
        · rw [← hdot, ← hactor]
          rfl
      · rintro ⟨counter, hmem, hdot⟩
        rw [List.mem_range'_1] at hmem
        have hseen : dot ∈ replica.seen := by
          rw [← hdot, h.clock]
          omega
        obtain ⟨write, hwrite, heq⟩ := h.written dot hseen
        refine ⟨write, List.mem_filter.mpr ⟨hwrite, decide_eq_true ⟨?_, heq ▸ hseen⟩⟩, heq⟩
        rw [← hdot] at heq
        exact congrArg Prod.fst heq
  have hlength := hperm.length_eq
  rw [List.length_map, List.length_map, List.length_range'] at hlength
  exact hlength.symm

theorem Record.get?_clock
    (hpositive : ∀ actor counter, record.clock.get? actor = some counter → 1 ≤ counter)
    (actor : String) (counter : Nat) : record.clock.get? actor = some counter ↔
      1 ≤ counter ∧ record.clockAt actor = counter := by
  unfold Record.clockAt
  constructor
  · intro hget
    rw [hget]
    exact ⟨hpositive actor counter hget, rfl⟩
  · rintro ⟨hpositive, hclock⟩
    cases hget : record.clock.get? actor with
    | none =>
      rw [hget] at hclock
      simp only [Option.getD_none] at hclock
      omega
    | some other =>
      rw [hget] at hclock
      rw [← hclock]
      rfl

theorem Record.canonical_eq {a b : Record V}
    (hclock : ∀ actor, a.clock.get? actor = b.clock.get? actor)
    (hmem : ∀ head, head ∈ a.heads ↔ head ∈ b.heads)
    (ha : a.heads.Pairwise fun x y => x.le y ∧ x.dot ≠ y.dot)
    (hb : b.heads.Pairwise fun x y => x.le y ∧ x.dot ≠ y.dot)
    (herased : a.erased = b.erased) : a.canonical = b.canonical := by
  have hentries : (a.clock.entries.insertionSort fun x y => x.1 ≤ y.1) =
      b.clock.entries.insertionSort fun x y => x.1 ≤ y.1 := by
    have hperm : a.clock.entries.Perm b.clock.entries := by
      refine (List.perm_ext_iff_of_nodup (List.Nodup.of_map _ a.clock.nodup)
        (List.Nodup.of_map _ b.clock.nodup)).mpr ?_
      intro entry
      rw [show entry = (entry.1, entry.2) from rfl, ← Dict.get?_eq_some_iff,
        ← Dict.get?_eq_some_iff, hclock]
    refine List.Perm.eq_of_pairwise ?_
      (List.pairwise_insertionSort (fun x y : String × Nat => x.1 ≤ y.1) _)
      (List.pairwise_insertionSort (fun x y : String × Nat => x.1 ≤ y.1) _)
      ((List.perm_insertionSort _ _).trans (hperm.trans (List.perm_insertionSort _ _).symm))
    intro x y hx hy hxy hyx
    rw [List.mem_insertionSort] at hx hy
    exact List.inj_on_of_nodup_map a.clock.nodup hx (hperm.mem_iff.mpr hy) (le_antisymm hxy hyx)
  have hheads : a.heads = b.heads := by
    have hnodup : ∀ record : Record V,
        (record.heads.Pairwise fun x y => x.le y ∧ x.dot ≠ y.dot) → record.heads.Nodup := by
      intro record hsorted
      exact hsorted.imp fun hne heq => hne.2 (congrArg Head.dot heq)
    refine List.Perm.eq_of_pairwise ?_ ha hb
      ((List.perm_ext_iff_of_nodup (hnodup a ha) (hnodup b hb)).mpr hmem)
    intro x y _ _ hxy hyx
    exact absurd (Head.dot_eq hxy.1 hyx.1) hxy.2
  unfold Record.canonical
  rw [hentries, hheads, herased]

theorem Reflects.canonical_eq {writes : List (Write V)} {a b : Replica V}
    (ha : Reflects writes a) (hb : Reflects writes b) (hseen : a.seen = b.seen) :
    a.record.canonical = b.record.canonical := by
  have hclock : ∀ actor, a.record.clockAt actor = b.record.clockAt actor := by
    intro actor
    have hle : ∀ counter, 1 ≤ counter →
        (counter ≤ a.record.clockAt actor ↔ counter ≤ b.record.clockAt actor) := by
      intro counter hpositive
      have hboth := ha.clock actor counter
      rw [hseen, hb.clock] at hboth
      omega
    have h1 := hle (a.record.clockAt actor)
    have h2 := hle (b.record.clockAt actor)
    omega
  have herased : a.record.erased = b.record.erased := by
    rw [Bool.eq_iff_iff, ha.erased, hb.erased, hseen]
  refine Record.canonical_eq ?_ ?_ ha.sorted hb.sorted herased
  · intro actor
    ext counter
    rw [Record.get?_clock ha.positive, Record.get?_clock hb.positive, hclock]
  · intro head
    rw [ha.heads, hb.heads, herased, hseen]

theorem Reflects.unseen {writes : List (Write V)} (h : Reflects writes replica)
    (herased : replica.record.erased = false) (head : Head V) :
    head ∈ replica.record.heads ↔ ∃ write ∈ writes, write.head = head ∧ head.dot ∈ replica.seen ∧
      ∀ other ∈ writes, other.head.dot ∈ replica.seen → head.dot ∉ other.saw := by
  rw [h.heads]
  constructor
  · rintro ⟨_, ⟨write, hmem, heq⟩, hdot, hunseen⟩
    refine ⟨write, hmem, heq, hdot, ?_⟩
    intro other hother hseen hsaw
    exact hunseen _ hseen ⟨other, hother, rfl, hsaw⟩
  · rintro ⟨write, hmem, heq, hdot, hunseen⟩
    refine ⟨herased, ⟨write, hmem, heq⟩, hdot, ?_⟩
    rintro dot hseen ⟨other, hother, hdot', hsaw⟩
    refine hunseen other hother ?_ hsaw
    rw [hdot']
    exact hseen

theorem Reflects.erased_heads {writes : List (Write V)} (h : Reflects writes replica)
    (herased : replica.record.erased = true) : replica.record.heads = [] := by
  refine List.eq_nil_iff_forall_not_mem.mpr ?_
  intro head hmem
  have hfalse := ((h.heads head).mp hmem).1
  rw [herased] at hfalse
  cases hfalse

/-- In every world of devices that write through their own replicas and merge anything that
was produced: a clock counts the observed writes, the heads are those that no observed write
had seen, replicas that observed the same writes have one canonical record, and what was erased
or overwritten stays so. -/
theorem registers_converge [DecidableEq V] {w : World V} (h : Run scope identifier .initial w) :
    (∀ actor,
      (∀ other, (w.replicas actor).record.clockAt other = (w.writes.filter fun write =>
        write.head.actor = other ∧ write.head.dot ∈ (w.replicas actor).seen).length) ∧
      ((w.replicas actor).record.erased = true ↔
        ∃ write ∈ w.writes, write.head.dot ∈ (w.replicas actor).seen ∧ write.erase = true) ∧
      ((w.replicas actor).record.erased = true → (w.replicas actor).record.heads = []) ∧
      ((w.replicas actor).record.erased = false → ∀ head,
        head ∈ (w.replicas actor).record.heads ↔
          ∃ write ∈ w.writes, write.head = head ∧ head.dot ∈ (w.replicas actor).seen ∧
            ∀ other ∈ w.writes, other.head.dot ∈ (w.replicas actor).seen →
              head.dot ∉ other.saw)) ∧
    (∀ a b, (w.replicas a).seen = (w.replicas b).seen →
      (w.replicas a).record.canonical = (w.replicas b).record.canonical) ∧
    ∀ w', Run scope identifier w w' → ∀ actor,
      ((w.replicas actor).record.erased = true → (w'.replicas actor).record.erased = true) ∧
      ∀ old ∈ w.writes, ∀ new ∈ w.writes, old.head.dot ∈ new.saw →
        new.head.dot ∈ (w.replicas actor).seen →
        ∀ head ∈ (w'.replicas actor).record.heads, head.dot ≠ old.head.dot := by
  have hw := initial_inv.run h
  refine ⟨?_, ?_, ?_⟩
  · intro actor
    have hreflects := hw.replicas actor
    exact ⟨fun other => hreflects.count hw other, hreflects.erased, hreflects.erased_heads,
      hreflects.unseen⟩
  · intro a b hseen
    exact (hw.replicas a).canonical_eq (hw.replicas b) hseen
  · intro w' hrun actor
    have hlater := (hw.run hrun).replicas actor
    refine ⟨?_, ?_⟩
    · intro herased
      obtain ⟨write, hmem, hseen, herase⟩ := (hw.replicas actor).erased.mp herased
      exact hlater.erased.mpr ⟨write, hrun.writes hmem, hrun.seen actor hseen, herase⟩
    · intro old _ new hnew hsaw hseen head hhead heq
      have hfrontier := ((hlater.heads head).mp hhead).2.2
      rw [heq] at hfrontier
      have hold : old.head.dot ∈ saw w'.writes new.head.dot :=
        ⟨new, hrun.writes hnew, rfl, hsaw⟩
      exact Observed.not_mem_frontier (hrun.seen actor hseen) hold hfrontier

/-! ### Two devices -/

def sampleScope : Scope String where
  isConversations := false
  clean _ value := .ok value
  binding _ := ("", "", "", "")
  fingerprint value := value.getD ""
  size _ := 0

def sampleActor (c : Char) : String := String.ofList (List.replicate 64 c)

/-- Two devices write at once and exchange their records. -/
theorem registers_converge_sample :
    ∃ w : World String, Run sampleScope "item" .initial w ∧
      (w.replicas (sampleActor 'a')).record.heads.length = 2 ∧
      (w.replicas (sampleActor 'a')).record.canonical =
        (w.replicas (sampleActor 'b')).record.canonical := by
  have hfirst : Run sampleScope "item" World.initial _ :=
    Run.refl.step (Step.write (sampleActor 'a') (some "draft") false rfl rfl)
  have hsecond := hfirst.step (Step.write (sampleActor 'b') (some "note") false rfl rfl)
  have hleft := hsecond.step
    (Step.merge (sampleActor 'a') (.head _) rfl)
  have hright := hleft.step (Step.merge (sampleActor 'b')
    (.tail _ (.tail _ (.head _))) rfl)
  refine ⟨_, hright, rfl, ?_⟩
  exact (registers_converge hright).2.1 _ _ (by decide)

end Records
