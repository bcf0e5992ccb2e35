import Mathlib.Data.Nat.Digits.Lemmas
import Rynmesh.CausalRecordsRuns

/-!
# A merge is a join

`validate` accepts records that no run wrote, so nothing here speaks of runs.
`Valid` is what `validate` checks; `mem_merged` says which heads a merge keeps,
one actor at a time, and the laws of a join follow from it.
-/

namespace Records

open Checked

variable {V : Type}

/-! ### The canonical text -/

/-- The bytes of `"actor":counter`; actors are hexadecimal. -/
def entrySize (entry : String × Nat) : Nat :=
  entry.1.length + 3 + (Nat.digits 10 entry.2).length

/-- The bytes of `{"actor":..,"counter":..,"value":..}`. -/
def Head.textSize (valueSize : Option V → Nat) (head : Head V) : Nat :=
  32 + head.actor.length + (Nat.digits 10 head.counter).length + valueSize head.value

/-- The bytes of `{"clock":{..},"erased":..,"heads":[..]}`. -/
def Record.textSize (valueSize : Option V → Nat) (record : Record V) : Nat :=
  (if record.erased then 37 else 38) +
    ((record.clock.entries.map entrySize).sum + (record.clock.entries.length - 1)) +
    ((record.heads.map (Head.textSize valueSize)).sum + (record.heads.length - 1))

/-- The size of a record is that of its canonical text. -/
def Scope.Canonical (scope : Scope V) : Prop :=
  ∃ valueSize, ∀ record, scope.size record = record.textSize valueSize

theorem entrySize_le {entry : String × Nat} (hactor : isActorId entry.1 = true)
    (hcounter : entry.2 ≤ maxCounter) : entrySize entry ≤ 83 := by
  unfold isActorId at hactor
  rw [Bool.and_eq_true, decide_eq_true_eq] at hactor
  have hdigits : (Nat.digits 10 entry.2).length ≤ 16 := by
    rw [Nat.digits_length_le_iff (by decide)]
    unfold maxCounter at hcounter
    omega
  unfold entrySize
  omega

variable {a b : Record V}

theorem Record.textSize_congr {valueSize : Option V → Nat}
    (hclock : a.clock.entries.Perm b.clock.entries) (hheads : a.heads.Perm b.heads)
    (herased : a.erased = b.erased) : a.textSize valueSize = b.textSize valueSize := by
  unfold Record.textSize
  rw [herased, (hclock.map entrySize).sum_eq, hclock.length_eq,
    (hheads.map (Head.textSize valueSize)).sum_eq, hheads.length_eq]

theorem entries_perm {a b : Dict String Nat} (h : ∀ actor, a.get? actor = b.get? actor) :
    a.entries.Perm b.entries := by
  refine (List.perm_ext_iff_of_nodup (List.Nodup.of_map _ a.nodup)
    (List.Nodup.of_map _ b.nodup)).mpr ?_
  intro entry
  rw [show entry = (entry.1, entry.2) from rfl, ← Dict.get?_eq_some_iff,
    ← Dict.get?_eq_some_iff, h]

/-! ### What `validate` checks -/

/-- The values of a conversation agree about what they are bound to. -/
def Bound (scope : Scope V) (values : List (Option V)) : Prop :=
  scope.isConversations = true → ∀ a b, some a ∈ values → some b ∈ values →
    scope.binding a = scope.binding b

theorem checkBinding_ok {scope : Scope V} {values : List (Option V)} {u : Unit} :
    checkBinding scope values = .ok u ↔ Bound scope values := by
  unfold checkBinding Bound
  rw [whenever_ok, require_ok]
  have hmem : ∀ binding, binding ∈ (values.filterMap fun value => value.map scope.binding).dedup ↔
      ∃ a, some a ∈ values ∧ scope.binding a = binding := by
    intro binding
    rw [List.mem_dedup, List.mem_filterMap]
    constructor
    · rintro ⟨value, hvalue, heq⟩
      obtain ⟨a, ha, hbinding⟩ := Option.map_eq_some_iff.mp heq
      rw [ha] at hvalue
      exact ⟨a, hvalue, hbinding⟩
    · rintro ⟨a, ha, hbinding⟩
      exact ⟨some a, ha, by rw [Option.map_some, hbinding]⟩
  have hnodup := List.nodup_dedup (values.filterMap fun value => value.map scope.binding)
  refine forall_congr' fun _ => ?_
  constructor
  · intro hlength a b ha hb
    match hlist : (values.filterMap fun value => value.map scope.binding).dedup with
    | [] =>
      have hnone := (hmem (scope.binding a)).mpr ⟨a, ha, rfl⟩
      rw [hlist] at hnone
      cases hnone
    | [binding] =>
      have h1 := (hmem (scope.binding a)).mpr ⟨a, ha, rfl⟩
      have h2 := (hmem (scope.binding b)).mpr ⟨b, hb, rfl⟩
      rw [hlist, List.mem_singleton] at h1 h2
      rw [h1, h2]
    | _ :: _ :: _ =>
      rw [hlist] at hlength
      simp only [List.length_cons] at hlength
      omega
  · intro hsame
    match hlist : (values.filterMap fun value => value.map scope.binding).dedup with
    | [] =>
      rw [hlist]
      exact Nat.zero_le 1
    | [_] =>
      rw [hlist]
      exact Nat.le_refl 1
    | x :: y :: rest =>
      rw [hlist] at hnodup hmem
      obtain ⟨a, ha, hx⟩ := (hmem x).mp (.head _)
      obtain ⟨b, hb, hy⟩ := (hmem y).mp (.tail _ (.head _))
      have heq : x = y := by rw [← hx, ← hy, hsame a b ha hb]
      rw [heq] at hnodup
      simp at hnodup

section Valid

variable {scope : Scope V} {identifier : String}

structure HeadValid (scope : Scope V) (identifier : String) (clock : Dict String Nat)
    (head : Head V) : Prop where
  actor : isActorId head.actor = true
  current : clock.get? head.actor = some head.counter
  clean : cleanValue scope identifier head.value = .ok head.value

theorem checkHeads_ok [DecidableEq V] {clock : Dict String Nat} {heads : List (Head V)} :
    ∀ {seen : List String} {u : Unit}, checkHeads scope identifier clock seen heads = .ok u ↔
      (∀ head ∈ heads, HeadValid scope identifier clock head ∧ head.actor ∉ seen) ∧
        (heads.map Head.actor).Nodup := by
  induction heads with
  | nil =>
    intro seen u
    simp [checkHeads]
  | cons head rest ih =>
    intro seen u
    unfold checkHeads
    simp only [bind_ok, require_ok, ih]
    rw [List.map_cons, List.nodup_cons]
    constructor
    · rintro ⟨_, hactor, _, ⟨hseen, hcurrent⟩, value, hclean, _, hvalue, hrest, hnodup⟩
      rw [hvalue] at hclean
      refine ⟨?_, ?_, hnodup⟩
      · intro other hother
        rcases List.mem_cons.mp hother with heq | hmem
        · rw [heq]
          exact ⟨⟨hactor, hcurrent, hclean⟩, hseen⟩
        · obtain ⟨hvalid, hnot⟩ := hrest other hmem
          exact ⟨hvalid, fun hold => hnot (.tail _ hold)⟩
      · intro hmem
        obtain ⟨other, hother, heq⟩ := List.mem_map.mp hmem
        refine (hrest other hother).2 ?_
        rw [heq]
        exact (.head _)
    · rintro ⟨hall, hnot, hnodup⟩
      obtain ⟨hvalid, hseen⟩ := hall head (.head _)
      refine ⟨(), hvalid.actor, (), ⟨hseen, hvalid.current⟩, head.value, hvalid.clean, (), rfl,
        ?_, hnodup⟩
      intro other hother
      obtain ⟨hvalid', hseen'⟩ := hall other (.tail _ hother)
      refine ⟨hvalid', ?_⟩
      intro hmem
      rcases List.mem_cons.mp hmem with heq | hmem
      · exact hnot (List.mem_map.mpr ⟨other, hother, heq⟩)
      · exact hseen' hmem

/-- A record that `validate` accepts. -/
structure Valid (scope : Scope V) (identifier : String) (record : Record V) : Prop where
  entity : isEntityId identifier = true
  actors : record.clock.entries.length ≤ maxActors
  width : record.heads.length ≤ maxActors
  clock : ∀ actor counter, record.clock.get? actor = some counter →
    isActorId actor = true ∧ 1 ≤ counter ∧ counter ≤ maxCounter
  heads : ∀ head ∈ record.heads, HeadValid scope identifier record.clock head
  distinct : (record.heads.map Head.actor).Nodup
  erased : record.erased = true → scope.isConversations = true ∧ record.heads = []
  size : scope.size record ≤ maxRecordBytes
  bound : Bound scope (record.heads.map Head.value)

variable {record : Record V}

theorem validate_ok [DecidableEq V] {u : Unit} :
    validate scope identifier record = .ok u ↔ Valid scope identifier record := by
  unfold validate
  simp only [bind_ok, require_ok, List.forM_eq_forM, forM_ok, checkHeads_ok, checkBinding_ok]
  constructor
  · intro hall
    obtain ⟨_, hentity, _, ⟨hactors, hwidth⟩, _, hclock, _, ⟨hheads, hdistinct⟩, _, herased, _,
      hsize, hbound⟩ := hall
    refine ⟨hentity, hactors, hwidth, ?_, fun head hhead => (hheads head hhead).1, hdistinct,
      herased, hsize, hbound⟩
    intro actor counter hget
    obtain ⟨_, hactor, hcounter⟩ := hclock (actor, counter) (Dict.get?_eq_some_iff.mp hget)
    exact ⟨hactor, hcounter⟩
  · intro h
    refine ⟨(), h.entity, (), ⟨h.actors, h.width⟩, (), ?_, (), ⟨?_, h.distinct⟩, (), h.erased, (),
      h.size, h.bound⟩
    · intro entry hentry
      obtain ⟨hactor, hcounter⟩ := h.clock entry.1 entry.2 (Dict.get?_eq_some_iff.mpr hentry)
      exact ⟨(), hactor, hcounter⟩
    · intro head hhead
      refine ⟨h.heads head hhead, ?_⟩
      intro hmem
      cases hmem

namespace Valid

variable {record : Record V}

theorem positive (h : Valid scope identifier record) (actor : String) (counter : Nat)
    (hget : record.clock.get? actor = some counter) : 1 ≤ counter :=
  (h.clock actor counter hget).2.1

theorem clockAt_head (h : Valid scope identifier record) {head : Head V}
    (hmem : head ∈ record.heads) : record.clockAt head.actor = head.counter := by
  unfold Record.clockAt
  rw [(h.heads head hmem).current]
  rfl

theorem head_eq (h : Valid scope identifier record) {a b : Head V} (ha : a ∈ record.heads)
    (hb : b ∈ record.heads) (hactor : a.actor = b.actor) : a = b :=
  List.inj_on_of_nodup_map h.distinct ha hb hactor

theorem dots (h : Valid scope identifier record) :
    record.heads.Pairwise fun a b => a.dot ≠ b.dot := by
  have hdistinct := h.distinct
  rw [List.Nodup, List.pairwise_map] at hdistinct
  exact hdistinct.imp fun hne heq => hne (congrArg Prod.fst heq)

theorem congr (hscope : scope.Canonical) {other : Record V} (h : Valid scope identifier record)
    (hclock : ∀ actor, record.clock.get? actor = other.clock.get? actor)
    (hheads : record.heads.Perm other.heads) (herased : record.erased = other.erased) :
    Valid scope identifier other where
  entity := h.entity
  actors := by
    rw [← (entries_perm hclock).length_eq]
    exact h.actors
  width := by
    rw [← hheads.length_eq]
    exact h.width
  clock := by
    intro actor counter hget
    rw [← hclock] at hget
    exact h.clock actor counter hget
  heads := by
    intro head hmem
    obtain ⟨hactor, hcurrent, hclean⟩ := h.heads head (hheads.mem_iff.mpr hmem)
    exact ⟨hactor, by rw [← hclock]; exact hcurrent, hclean⟩
  distinct := (hheads.map Head.actor).nodup_iff.mp h.distinct
  erased := by
    intro hother
    obtain ⟨hconversations, hnil⟩ := h.erased (herased.trans hother)
    rw [hnil] at hheads
    exact ⟨hconversations, hheads.nil_eq.symm⟩
  size := by
    obtain ⟨valueSize, hsize⟩ := hscope
    rw [hsize, ← Record.textSize_congr (entries_perm hclock) hheads herased, ← hsize]
    exact h.size
  bound := by
    intro hconversations a b ha hb
    have hperm := hheads.map Head.value
    exact h.bound hconversations a b (hperm.mem_iff.mpr ha) (hperm.mem_iff.mpr hb)

end Valid

theorem valid_empty (hentity : isEntityId identifier = true)
    (hsize : scope.size empty ≤ maxRecordBytes) : Valid scope identifier (empty : Record V) := by
  refine ⟨hentity, Nat.zero_le _, Nat.zero_le _, ?_, ?_, List.nodup_nil, ?_, hsize, ?_⟩
  · nofun
  · nofun
  · nofun
  · nofun

/-! ### What a merge returns -/

/-- The record of a merge. -/
def Record.join (left right : Record V) : Record V :=
  if left.erased || right.erased then ⟨joinClock left.clock right.clock, [], true⟩
  else ⟨joinClock left.clock right.clock, joinHeads left right, false⟩

/-- Heads of one dot have one value. -/
def Agree (left right : Record V) : Prop :=
  ∀ head ∈ left.heads, ∀ same ∈ right.heads, head.dot = same.dot → head.value = same.value

variable {left right : Record V}

theorem Agree.symm (h : Agree left right) : Agree right left :=
  fun head hhead same hsame hdot => (h same hsame head hhead hdot.symm).symm

theorem merge_iff [DecidableEq V] :
    merge scope identifier left right = .ok record ↔
      (Valid scope identifier left ∧ Valid scope identifier right) ∧
        (joinClock left.clock right.clock).entries.length ≤ maxActors ∧
        ((left.erased || right.erased) = false →
          Agree left right ∧ Valid scope identifier (left.join right)) ∧
        record = left.join right := by
  unfold merge
  simp only [bind_ok, require_ok, validate_ok]
  by_cases herased : (left.erased || right.erased) = true
  · rw [if_pos herased, herased]
    unfold Record.join
    rw [if_pos herased]
    simp only [pure_ok]
    constructor
    · rintro ⟨_, hleft, _, hright, _, hlength, heq⟩
      exact ⟨⟨hleft, hright⟩, hlength, fun hfalse => absurd hfalse (by decide), heq.symm⟩
    · rintro ⟨⟨hleft, hright⟩, hlength, _, heq⟩
      exact ⟨(), hleft, (), hright, (), hlength, heq.symm⟩
  · rw [if_neg herased]
    unfold Record.join
    rw [if_neg herased]
    rw [Bool.not_eq_true] at herased
    simp only [bind_ok, require_ok, validate_ok, pure_ok]
    constructor
    · rintro ⟨_, hleft, _, hright, _, hlength, _, hagree, _, hvalid, heq⟩
      exact ⟨⟨hleft, hright⟩, hlength, fun _ => ⟨hagree, hvalid⟩, heq.symm⟩
    · rintro ⟨⟨hleft, hright⟩, hlength, hboth, heq⟩
      obtain ⟨hagree, hvalid⟩ := hboth herased
      exact ⟨(), hleft, (), hright, (), hlength, (), hagree, (), hvalid, heq.symm⟩

section Join

variable {left right : Record V}

theorem join_clock (left right : Record V) :
    (left.join right).clock = joinClock left.clock right.clock := by
  unfold Record.join
  split <;> rfl

theorem join_clockAt (left right : Record V) (actor : String) :
    (left.join right).clockAt actor = max (left.clockAt actor) (right.clockAt actor) := by
  rw [← clockAt_join left right (left.join right).heads (left.join right).erased, ← join_clock]

theorem join_erased (left right : Record V) :
    (left.join right).erased = (left.erased || right.erased) := by
  unfold Record.join
  split
  · rename_i h
    exact h.symm
  · rename_i h
    exact ((Bool.not_eq_true _).mp h).symm

theorem join_heads (left right : Record V) : (left.join right).heads =
    if (left.join right).erased then [] else joinHeads left right := by
  unfold Record.join
  split <;> rfl

theorem join_positive (hleft : Valid scope identifier left) (hright : Valid scope identifier right)
    (actor : String) (counter : Nat) (hget : (left.join right).clock.get? actor = some counter) :
    1 ≤ counter := by
  rw [join_clock, get?_joinClock] at hget
  cases hactor : right.clock.get? actor with
  | none =>
    rw [hactor] at hget
    exact hleft.positive actor counter hget
  | some other =>
    rw [hactor] at hget
    have hpositive := hright.positive actor other hactor
    have heq := Option.some.inj hget
    omega

theorem join_sorted (hleft : Valid scope identifier left)
    (hright : Valid scope identifier right) :
    (left.join right).heads.Pairwise fun a b => a.le b ∧ a.dot ≠ b.dot := by
  rw [join_heads]
  split
  · exact List.Pairwise.nil
  · exact joinHeads_sorted hleft.dots hright.dots

/-- A head that is current in the record is one of its heads. -/
def Record.Keeps (record : Record V) (head : Head V) : Prop :=
  record.clockAt head.actor = head.counter → head ∈ record.heads

/-- The heads of a merge, one actor at a time: the counter is the larger one, and each side
that has this counter has the head too. -/
theorem mem_join (hleft : Valid scope identifier left) (hright : Valid scope identifier right)
    (hagree : Agree left right) (herased : (left.join right).erased = false) (head : Head V) :
    head ∈ (left.join right).heads ↔
      head.counter = max (left.clockAt head.actor) (right.clockAt head.actor) ∧
        left.Keeps head ∧ right.Keeps head := by
  have hkept : ∀ {one other : Record V}, Valid scope identifier one →
      Valid scope identifier other → Agree one other → head ∈ one.heads →
      kept other head = true → head ∈ other.heads ∨ other.clockAt head.actor < head.counter := by
    intro one other hone hother hagree hmem hkept
    unfold kept at hkept
    rw [Bool.or_eq_true, decide_eq_true_eq] at hkept
    rcases hkept with hany | hlt
    · obtain ⟨same, hsame, hdot⟩ := List.any_eq_true.mp hany
      have hdot := of_decide_eq_true hdot
      have hvalue := hagree head hmem same hsame hdot.symm
      have heq : head = same := by
        have hactor := congrArg Prod.fst hdot
        have hcounter := congrArg Prod.snd hdot
        cases head
        cases same
        simp only [Head.dot] at hactor hcounter hvalue
        simp [hactor, hcounter, hvalue]
      rw [heq]
      exact .inl hsame
    · exact .inr hlt
  rw [join_heads, if_neg (by rw [herased]; decide), mem_joinHeads hagree]
  constructor
  · intro h
    rcases h with ⟨hmem, hk⟩ | ⟨hmem, hk⟩
    · have hcurrent := hleft.clockAt_head hmem
      rcases hkept hleft hright hagree hmem hk with hother | hlt
      · have hcurrent' := hright.clockAt_head hother
        exact ⟨by omega, fun _ => hmem, fun _ => hother⟩
      · refine ⟨by omega, fun _ => hmem, ?_⟩
        intro heq
        omega
    · have hcurrent := hright.clockAt_head hmem
      rcases hkept hright hleft hagree.symm hmem hk with hother | hlt
      · have hcurrent' := hleft.clockAt_head hother
        exact ⟨by omega, fun _ => hother, fun _ => hmem⟩
      · refine ⟨by omega, ?_, fun _ => hmem⟩
        intro heq
        omega
  · rintro ⟨hcounter, hl, hr⟩
    have hany : ∀ {other : Record V}, head ∈ other.heads → kept other head = true := by
      intro other hmem
      unfold kept
      rw [Bool.or_eq_true]
      exact .inl (List.any_eq_true.mpr ⟨head, hmem, decide_eq_true rfl⟩)
    have hlt : ∀ {other : Record V}, other.clockAt head.actor < head.counter →
        kept other head = true := by
      intro other hlt
      unfold kept
      rw [Bool.or_eq_true]
      exact .inr (decide_eq_true hlt)
    by_cases hcurrent : left.clockAt head.actor = head.counter
    · by_cases hcurrent' : right.clockAt head.actor = head.counter
      · exact .inl ⟨hl hcurrent, hany (hr hcurrent')⟩
      · exact .inl ⟨hl hcurrent, hlt (by omega)⟩
    · exact .inr ⟨hr (by omega), hlt (by omega)⟩

end Join

/-! ### Canonical texts of merges -/

theorem canonical_perm (h : a.canonical = b.canonical) : a.clock.entries.Perm b.clock.entries := by
  have hentries := congrArg Prod.fst h
  exact (List.perm_insertionSort _ _).symm.trans
    ((List.Perm.of_eq hentries).trans (List.perm_insertionSort _ _))

theorem canonical_get? (h : a.canonical = b.canonical) (actor : String) :
    a.clock.get? actor = b.clock.get? actor := by
  ext counter
  rw [Dict.get?_eq_some_iff, Dict.get?_eq_some_iff]
  exact (canonical_perm h).mem_iff

theorem Valid.of_canonical (hscope : scope.Canonical) (ha : Valid scope identifier a)
    (h : a.canonical = b.canonical) : Valid scope identifier b :=
  ha.congr hscope (canonical_get? h) (List.Perm.of_eq (congrArg (fun text => text.2.1) h))
    (congrArg (fun text => text.2.2) h)

theorem get?_eq_of_clockAt (ha : ∀ actor counter, a.clock.get? actor = some counter → 1 ≤ counter)
    (hb : ∀ actor counter, b.clock.get? actor = some counter → 1 ≤ counter)
    (h : ∀ actor, a.clockAt actor = b.clockAt actor) (actor : String) :
    a.clock.get? actor = b.clock.get? actor := by
  ext counter
  rw [Record.get?_clock ha, Record.get?_clock hb, h]

theorem join_heads_erased (h : (left.join right).erased = true) : (left.join right).heads = [] := by
  rw [join_heads, if_pos h]

theorem join_comm (hleft : Valid scope identifier left) (hright : Valid scope identifier right)
    (hagree : (left.join right).erased = false → Agree left right) :
    (left.join right).canonical = (right.join left).canonical := by
  have herased : (left.join right).erased = (right.join left).erased := by
    rw [join_erased, join_erased, Bool.or_comm]
  refine Record.canonical_eq ?_ ?_ (join_sorted hleft hright) (join_sorted hright hleft) herased
  · refine get?_eq_of_clockAt (join_positive hleft hright) (join_positive hright hleft) ?_
    intro actor
    rw [join_clockAt, join_clockAt, Nat.max_comm]
  · intro head
    cases hany : (left.join right).erased with
    | true => rw [join_heads_erased hany, join_heads_erased (herased.symm.trans hany)]
    | false =>
      rw [mem_join hleft hright (hagree hany) hany,
        mem_join hright hleft (hagree hany).symm (herased.symm.trans hany), Nat.max_comm]
      constructor
      · rintro ⟨hcounter, hl, hr⟩
        exact ⟨hcounter, hr, hl⟩
      · rintro ⟨hcounter, hr, hl⟩
        exact ⟨hcounter, hl, hr⟩

theorem textSize_erased {valueSize : Option V → Nat}
    (hactors : record.clock.entries.length ≤ maxActors)
    (hclock : ∀ entry ∈ record.clock.entries, entrySize entry ≤ 83) (herased : record.erased = true)
    (hheads : record.heads = []) : record.textSize valueSize ≤ maxRecordBytes := by
  have hsum : (record.clock.entries.map entrySize).sum ≤ record.clock.entries.length * 83 := by
    have hle := List.sum_le_card_nsmul (record.clock.entries.map entrySize) 83 (by
      intro size hsize
      obtain ⟨entry, hentry, heq⟩ := List.mem_map.mp hsize
      rw [← heq]
      exact hclock entry hentry)
    simpa using hle
  unfold Record.textSize
  rw [if_pos herased, hheads]
  simp only [List.map_nil, List.sum_nil, List.length_nil]
  unfold maxActors at hactors
  unfold maxRecordBytes
  omega

theorem join_counters (hleft : Valid scope identifier left) (hright : Valid scope identifier right)
    (actor : String) (counter : Nat) (hget : (left.join right).clock.get? actor = some counter) :
    isActorId actor = true ∧ 1 ≤ counter ∧ counter ≤ maxCounter := by
  rw [join_clock, get?_joinClock] at hget
  cases hactor : right.clock.get? actor with
  | none =>
    rw [hactor] at hget
    exact hleft.clock actor counter hget
  | some other =>
    rw [hactor] at hget
    obtain ⟨hid, hpositive, hmax⟩ := hright.clock actor other hactor
    have heq := Option.some.inj hget
    refine ⟨hid, by omega, ?_⟩
    cases hold : left.clock.get? actor with
    | none =>
      rw [hold] at heq
      simp only [Option.getD_none] at heq
      omega
    | some old =>
      rw [hold] at heq
      simp only [Option.getD_some] at heq
      have hmax' := (hleft.clock actor old hold).2.2
      omega

/-- An erased merge passes the checks too, though `merge` does not make them. -/
theorem join_valid (hscope : scope.Canonical) (hleft : Valid scope identifier left)
    (hright : Valid scope identifier right)
    (hactors : (joinClock left.clock right.clock).entries.length ≤ maxActors)
    (herased : (left.join right).erased = true) : Valid scope identifier (left.join right) := by
  have hheads := join_heads_erased herased
  rw [← join_clock] at hactors
  refine ⟨hleft.entity, hactors, ?_, join_counters hleft hright, ?_, ?_, ?_, ?_, ?_⟩
  · rw [hheads]
    exact Nat.zero_le _
  · intro head hmem
    rw [hheads] at hmem
    cases hmem
  · rw [hheads]
    exact List.nodup_nil
  · intro _
    refine ⟨?_, hheads⟩
    rw [join_erased, Bool.or_eq_true] at herased
    rcases herased with h | h
    · exact (hleft.erased h).1
    · exact (hright.erased h).1
  · obtain ⟨valueSize, hsize⟩ := hscope
    rw [hsize]
    refine textSize_erased hactors ?_ herased hheads
    intro entry hentry
    obtain ⟨hid, -, hmax⟩ := join_counters hleft hright entry.1 entry.2
      (Dict.get?_eq_some_iff.mpr hentry)
    exact entrySize_le hid hmax
  · intro _ a b ha
    rw [hheads] at ha
    cases ha

/-! ### A record that observed another -/

/-- `record` observed all that `other` did. -/
structure Above (record other : Record V) : Prop where
  clock : ∀ actor, other.clockAt actor ≤ record.clockAt actor
  erased : other.erased = true → record.erased = true
  heads : record.erased = false → ∀ head ∈ record.heads, other.Keeps head

theorem join_above_left (hleft : Valid scope identifier left)
    (hright : Valid scope identifier right)
    (hagree : (left.join right).erased = false → Agree left right) :
    Above (left.join right) left where
  clock := by
    intro actor
    rw [join_clockAt]
    exact Nat.le_max_left _ _
  erased := by
    intro h
    rw [join_erased, h, Bool.true_or]
  heads := by
    intro herased head hmem
    exact ((mem_join hleft hright (hagree herased) herased head).mp hmem).2.1

theorem join_above_right (hleft : Valid scope identifier left)
    (hright : Valid scope identifier right)
    (hagree : (left.join right).erased = false → Agree left right) :
    Above (left.join right) right where
  clock := by
    intro actor
    rw [join_clockAt]
    exact Nat.le_max_right _ _
  erased := by
    intro h
    rw [join_erased, h, Bool.or_true]
  heads := by
    intro herased head hmem
    exact ((mem_join hleft hright (hagree herased) herased head).mp hmem).2.2

theorem Above.agree {other : Record V} (h : Above record other)
    (hrecord : Valid scope identifier record) (hother : Valid scope identifier other) :
    Agree record other := by
  intro head hhead same hsame hdot
  have herased : record.erased = false := by
    by_contra hany
    rw [Bool.not_eq_false] at hany
    rw [(hrecord.erased hany).2] at hhead
    cases hhead
  have hcurrent := hother.clockAt_head hsame
  have hactor : head.actor = same.actor := congrArg Prod.fst hdot
  have hcounter : head.counter = same.counter := congrArg Prod.snd hdot
  have hmem : head ∈ other.heads := h.heads herased head hhead (by rw [hactor, hcurrent, hcounter])
  rw [hother.head_eq hmem hsame hactor]

/-- Merging what was observed changes nothing. -/
theorem Above.canonical {other : Record V} (h : Above record other)
    (hrecord : Valid scope identifier record) (hother : Valid scope identifier other)
    (hsorted : record.heads.Pairwise fun a b => a.le b ∧ a.dot ≠ b.dot) :
    (record.join other).canonical = record.canonical := by
  have herased : (record.join other).erased = record.erased := by
    rw [join_erased]
    cases hany : other.erased with
    | false => rw [Bool.or_false]
    | true => rw [Bool.or_true, h.erased hany]
  refine Record.canonical_eq ?_ ?_ (join_sorted hrecord hother) hsorted herased
  · refine get?_eq_of_clockAt (join_positive hrecord hother) hrecord.positive ?_
    intro actor
    rw [join_clockAt]
    exact Nat.max_eq_left (h.clock actor)
  · intro head
    cases hany : record.erased with
    | true => rw [join_heads_erased (herased.trans hany), (hrecord.erased hany).2]
    | false =>
      rw [mem_join hrecord hother (h.agree hrecord hother) (herased.trans hany)]
      have hle := h.clock head.actor
      constructor
      · rintro ⟨hcounter, hkeeps, _⟩
        exact hkeeps (by omega)
      · intro hmem
        have hcurrent := hrecord.clockAt_head hmem
        exact ⟨by omega, fun _ => hmem, h.heads hany head hmem⟩

theorem Above.merge [DecidableEq V] (hscope : scope.Canonical) {other : Record V}
    (h : Above record other) (hrecord : Valid scope identifier record)
    (hother : Valid scope identifier other)
    (hsorted : record.heads.Pairwise fun a b => a.le b ∧ a.dot ≠ b.dot) :
    ∃ merged, merge scope identifier record other = .ok merged ∧
      merged.canonical = record.canonical := by
  have hcanonical := h.canonical hrecord hother hsorted
  refine ⟨record.join other, merge_iff.mpr ⟨⟨hrecord, hother⟩, ?_, ?_, rfl⟩, hcanonical⟩
  · rw [← join_clock, (canonical_perm hcanonical).length_eq]
    exact hrecord.actors
  · intro _
    exact ⟨h.agree hrecord hother, hrecord.of_canonical hscope hcanonical.symm⟩

/-! ### The laws of a join -/

theorem merge_valid [DecidableEq V] (hscope : scope.Canonical)
    (h : merge scope identifier left right = .ok record) : Valid scope identifier record := by
  obtain ⟨⟨hleft, hright⟩, hactors, hboth, heq⟩ := merge_iff.mp h
  rw [heq]
  cases herased : (left.join right).erased with
  | true => exact join_valid hscope hleft hright hactors herased
  | false =>
    rw [join_erased] at herased
    exact (hboth herased).2

theorem merge_agree [DecidableEq V] (h : merge scope identifier left right = .ok record) :
    (left.join right).erased = false → Agree left right := by
  intro herased
  rw [join_erased] at herased
  exact ((merge_iff.mp h).2.2.1 herased).1

theorem merge_comm [DecidableEq V] (hscope : scope.Canonical)
    (h : merge scope identifier left right = .ok record) :
    ∃ other, merge scope identifier right left = .ok other ∧
      other.canonical = record.canonical := by
  obtain ⟨⟨hleft, hright⟩, hactors, hboth, heq⟩ := merge_iff.mp h
  have hcanonical := join_comm hleft hright (merge_agree h)
  refine ⟨right.join left, merge_iff.mpr ⟨⟨hright, hleft⟩, ?_, ?_, rfl⟩, ?_⟩
  · rw [← join_clock, ← (canonical_perm hcanonical).length_eq, join_clock]
    exact hactors
  · intro herased
    rw [Bool.or_comm] at herased
    obtain ⟨hagree, hvalid⟩ := hboth herased
    exact ⟨hagree.symm, hvalid.of_canonical hscope hcanonical⟩
  · rw [heq, hcanonical]

theorem join_assoc {c : Record V} (ha : Valid scope identifier a) (hb : Valid scope identifier b)
    (hc : Valid scope identifier c) (hab : Valid scope identifier (a.join b))
    (hbc : Valid scope identifier (b.join c)) (hagree : (a.join b).erased = false → Agree a b)
    (hagree' : (b.join c).erased = false → Agree b c)
    (hleft : ((a.join b).join c).erased = false → Agree (a.join b) c)
    (hright : (a.join (b.join c)).erased = false → Agree a (b.join c)) :
    ((a.join b).join c).canonical = (a.join (b.join c)).canonical := by
  have herased : ((a.join b).join c).erased = (a.join (b.join c)).erased := by
    rw [join_erased, join_erased, join_erased, join_erased, Bool.or_assoc]
  refine Record.canonical_eq ?_ ?_ (join_sorted hab hc) (join_sorted ha hbc) herased
  · refine get?_eq_of_clockAt (join_positive hab hc) (join_positive ha hbc) ?_
    intro actor
    rw [join_clockAt, join_clockAt, join_clockAt, join_clockAt, Nat.max_assoc]
  · intro head
    cases hany : ((a.join b).join c).erased with
    | true => rw [join_heads_erased hany, join_heads_erased (herased.symm.trans hany)]
    | false =>
      have hany' := herased.symm.trans hany
      have hab' : (a.join b).erased = false := by
        rw [join_erased, Bool.or_eq_false_iff] at hany
        exact hany.1
      have hbc' : (b.join c).erased = false := by
        rw [join_erased, Bool.or_eq_false_iff] at hany'
        exact hany'.2
      -- a side of the merge keeps a head when it is current on both of its own sides
      have hkeeps : ∀ {x y : Record V}, Valid scope identifier x → Valid scope identifier y →
          Agree x y → (x.join y).erased = false → ((x.join y).Keeps head ↔
            (max (x.clockAt head.actor) (y.clockAt head.actor) = head.counter →
              x.Keeps head ∧ y.Keeps head)) := by
        intro x y hx hy hxy hfalse
        unfold Record.Keeps
        rw [join_clockAt, mem_join hx hy hxy hfalse]
        constructor
        · intro h heq
          exact (h heq).2
        · intro h heq
          exact ⟨heq.symm, h heq⟩
      rw [mem_join hab hc (hleft hany) hany, mem_join ha hbc (hright hany') hany',
        hkeeps ha hb (hagree hab') hab', hkeeps hb hc (hagree' hbc') hbc', join_clockAt,
        join_clockAt, Nat.max_assoc]
      constructor
      · rintro ⟨hcounter, hfirst, hkc⟩
        refine ⟨hcounter, ?_, ?_⟩
        · intro hcurrent
          exact (hfirst (by omega)).1 hcurrent
        · intro hmax
          refine ⟨?_, hkc⟩
          intro hcurrent
          exact (hfirst (by omega)).2 hcurrent
      · rintro ⟨hcounter, hka, hlast⟩
        refine ⟨hcounter, ?_, ?_⟩
        · intro hmax
          refine ⟨hka, ?_⟩
          intro hcurrent
          exact (hlast (by omega)).1 hcurrent
        · intro hcurrent
          exact (hlast (by omega)).2 hcurrent

/-- **A merge is a join on all records that `validate` accepts.**  It is commutative and
idempotent up to the order of the heads, and raises in one order exactly when it does in the
other; it is associative where it does not raise; its result is accepted again, counts the larger
counters, is erased when a side is, and absorbs both sides. -/
theorem merge_is_join [DecidableEq V] (scope : Scope V) (hscope : scope.Canonical)
    (identifier : String) :
    (∀ a b ab, merge scope identifier a b = .ok ab →
      ∃ ba, merge scope identifier b a = .ok ba ∧ ba.canonical = ab.canonical) ∧
    (∀ a, validate scope identifier a = .ok () → ∃ aa, merge scope identifier a a = .ok aa ∧
      aa.canonical = ({ a with heads := a.heads.insertionSort Head.le } : Record V).canonical) ∧
    (∀ a b c ab bc left right, merge scope identifier a b = .ok ab →
      merge scope identifier b c = .ok bc → merge scope identifier ab c = .ok left →
      merge scope identifier a bc = .ok right → left.canonical = right.canonical) ∧
    ∀ a b ab, merge scope identifier a b = .ok ab →
      validate scope identifier ab = .ok () ∧
      (∀ actor, ab.clockAt actor = max (a.clockAt actor) (b.clockAt actor)) ∧
      ab.erased = (a.erased || b.erased) ∧
      ∀ side, side = a ∨ side = b →
        (∃ again, merge scope identifier ab side = .ok again ∧ again.canonical = ab.canonical) ∧
        ∃ again, merge scope identifier side ab = .ok again ∧ again.canonical = ab.canonical := by
  refine ⟨fun a b ab h => merge_comm hscope h, ?_, ?_, ?_⟩
  · intro a hvalid
    have ha := validate_ok.mp hvalid
    -- a record is above its own sorted form
    have hperm := List.perm_insertionSort Head.le a.heads
    have hsorted : Valid scope identifier { a with heads := a.heads.insertionSort Head.le } :=
      ha.congr hscope (fun _ => rfl) hperm.symm rfl
    have habove : Above { a with heads := a.heads.insertionSort Head.le } a := by
      refine ⟨fun _ => Nat.le_refl _, id, ?_⟩
      intro _ head hmem _
      exact hperm.mem_iff.mp hmem
    have hown : Above a a := ⟨fun _ => Nat.le_refl _, id, fun _ _ hmem _ => hmem⟩
    have hjoin : (a.join a).canonical =
        ({ a with heads := a.heads.insertionSort Head.le } : Record V).canonical := by
      have hcanonical := habove.canonical hsorted ha
        ((List.pairwise_insertionSort Head.le _).and hsorted.dots)
      rw [← hcanonical]
      refine Record.canonical_eq (fun _ => ?_) ?_ (join_sorted ha ha) (join_sorted hsorted ha) ?_
      · rw [join_clock, join_clock]
      · intro head
        cases hany : (a.join a).erased with
        | true =>
          have hother : (Record.join { a with heads := a.heads.insertionSort Head.le } a).erased
              = true := by
            rw [join_erased] at hany ⊢
            exact hany
          rw [join_heads_erased hany, join_heads_erased hother]
        | false =>
          have hother : (Record.join { a with heads := a.heads.insertionSort Head.le } a).erased
              = false := by
            rw [join_erased] at hany ⊢
            exact hany
          rw [mem_join ha ha (hown.agree ha ha) hany,
            mem_join hsorted ha (habove.agree hsorted ha) hother]
          unfold Record.Keeps Record.clockAt
          rw [hperm.mem_iff]
      · rw [join_erased, join_erased]
    refine ⟨a.join a, merge_iff.mpr ⟨⟨ha, ha⟩, ?_, ?_, rfl⟩, hjoin⟩
    · rw [← join_clock, (canonical_perm hjoin).length_eq]
      exact ha.actors
    · intro _
      exact ⟨hown.agree ha ha, hsorted.of_canonical hscope hjoin.symm⟩
  · intro a b c ab bc left right hab hbc hleft hright
    obtain ⟨⟨ha, hb⟩, -, -, heqab⟩ := merge_iff.mp hab
    obtain ⟨⟨-, hc⟩, -, -, heqbc⟩ := merge_iff.mp hbc
    obtain ⟨⟨hvab, -⟩, -, -, heqleft⟩ := merge_iff.mp hleft
    obtain ⟨⟨-, hvbc⟩, -, -, heqright⟩ := merge_iff.mp hright
    have hconflict := merge_agree hleft
    have hconflict' := merge_agree hright
    rw [heqab] at hvab heqleft hconflict
    rw [heqbc] at hvbc heqright hconflict'
    rw [heqleft, heqright]
    exact join_assoc ha hb hc hvab hvbc (merge_agree hab) (merge_agree hbc) hconflict hconflict'
  · intro a b ab h
    obtain ⟨⟨ha, hb⟩, -, -, heq⟩ := merge_iff.mp h
    have hvalid := merge_valid hscope h
    have hsorted : ab.heads.Pairwise fun x y => x.le y ∧ x.dot ≠ y.dot := by
      rw [heq]
      exact join_sorted ha hb
    refine ⟨validate_ok.mpr hvalid, ?_, ?_, ?_⟩
    · intro actor
      rw [heq, join_clockAt]
    · rw [heq, join_erased]
    · intro side hside
      have hboth : Above ab side ∧ Valid scope identifier side := by
        rw [heq]
        rcases hside with h' | h'
        · rw [h']
          exact ⟨join_above_left ha hb (merge_agree h), ha⟩
        · rw [h']
          exact ⟨join_above_right ha hb (merge_agree h), hb⟩
      obtain ⟨again, hagain, hcanonical⟩ := hboth.1.merge hscope hvalid hboth.2 hsorted
      refine ⟨⟨again, hagain, hcanonical⟩, ?_⟩
      obtain ⟨other, hother, hcanonical'⟩ := merge_comm hscope hagain
      exact ⟨other, hother, hcanonical'.trans hcanonical⟩

end Valid

/-! ### Two devices that wrote at once -/

def textScope : Scope String :=
  { sampleScope with size := Record.textSize fun value => (value.getD "").length + 2 }

theorem textScope_canonical : textScope.Canonical := ⟨_, fun _ => rfl⟩

def sampleLeft : Record String :=
  (empty : Record String).written (sampleActor 'a') (some "draft") false

def sampleRight : Record String :=
  (empty : Record String).written (sampleActor 'b') (some "note") false

theorem merge_is_join_sample : ∃ ab ba, merge textScope "item" sampleLeft sampleRight = .ok ab ∧
    ab.heads.length = 2 ∧ merge textScope "item" sampleRight sampleLeft = .ok ba ∧
    ba.canonical = ab.canonical := by
  have hsome : (merge textScope "item" sampleLeft sampleRight).toOption.any
      (fun ab => decide (ab.heads.length = 2)) = true := by decide +kernel
  obtain ⟨ab, hab, hlength⟩ := toOption_any hsome
  obtain ⟨ba, hba, hcanonical⟩ :=
    (merge_is_join textScope textScope_canonical "item").1 _ _ _ hab
  exact ⟨ab, ba, hab, of_decide_eq_true hlength, hba, hcanonical⟩

end Records
