import Rynmesh.EigenTrust
import Mathlib.Algebra.BigOperators.Field
import Mathlib.Data.List.GetD

/-!
# The vectors of EigenTrust

The lists of `eigentrust` are read by peer (`valueOf`), and one pass of its loop
is shown to be a step of the damped iteration along the normalised scores
(`iterate_spec`).

* `Raw.ofScores_spec`: the sums and rows after the loop over the scores;
* `valueOf_addRow`, `valueOf_addActive`: what the accumulating loops add;
* `Spread`: what every vector of the loop is, a distribution over the peers.
-/

namespace EigenTrust

open Checked Stochastic

variable {Peer : Type} [DecidableEq Peer]

/-! ### Reading by peer -/

/-- The entry of a peer in a vector over the sorted peers. -/
def valueOf (peers : List Peer) (t : List Rat) (a : Peer) : Rat := t.getD (peers.idxOf a) 0

variable {t : List Rat}

section Reading

variable {peers : List Peer}

theorem valueOf_of_notMem (ht : t.length = peers.length) {a : Peer} (ha : a ∉ peers) :
    valueOf peers t a = 0 := by
  rw [valueOf, List.idxOf_eq_length ha, ← ht, List.getD_eq_default _ _ le_rfl]

theorem valueOf_map (f : Peer → Rat) {a : Peer} (ha : a ∈ peers) :
    valueOf peers (peers.map f) a = f a := by
  have hlt : peers.idxOf a < peers.length := List.idxOf_lt_length_iff.mpr ha
  rw [valueOf, List.getD_eq_getElem _ _ (by rwa [List.length_map]), List.getElem_map,
    List.getElem_idxOf]

theorem map_valueOf (hpeers : peers.Nodup) (ht : t.length = peers.length) :
    peers.map (valueOf peers t) = t := by
  apply List.ext_getElem
  · rw [List.length_map, ht]
  · intro i hi hi'
    rw [List.length_map] at hi
    rw [List.getElem_map, valueOf, hpeers.idxOf_getElem i hi, List.getD_eq_getElem _ _ hi']

theorem eq_of_valueOf (hpeers : peers.Nodup) {u : List Rat} (ht : t.length = peers.length)
    (hu : u.length = peers.length) (h : ∀ a ∈ peers, valueOf peers t a = valueOf peers u a) :
    t = u := by
  rw [← map_valueOf hpeers ht, ← map_valueOf hpeers hu]
  exact List.map_congr_left h

theorem sum_eq (hpeers : peers.Nodup) (ht : t.length = peers.length) :
    t.sum = ∑ a ∈ peers.toFinset, valueOf peers t a := by
  rw [List.sum_toFinset _ hpeers, map_valueOf hpeers ht]

theorem map_idxOf (hpeers : peers.Nodup) :
    peers.map (fun a => peers.idxOf a) = List.range peers.length := by
  apply List.ext_getElem
  · rw [List.length_map, List.length_range]
  · intro i hi _
    rw [List.length_map] at hi
    rw [List.getElem_map, List.getElem_range, hpeers.idxOf_getElem i hi]

theorem sum_range_eq (hpeers : peers.Nodup) (f : Nat → Rat) :
    ((List.range peers.length).map f).sum = ∑ a ∈ peers.toFinset, f (peers.idxOf a) := by
  rw [List.sum_toFinset _ hpeers, ← map_idxOf hpeers, List.map_map]
  rfl

theorem delta_eq (hpeers : peers.Nodup) {u : List Rat} (ht : t.length = peers.length)
    (hu : u.length = peers.length) :
    delta t u = distance peers.toFinset (valueOf peers t) (valueOf peers u) := by
  have hzip : List.zipWith (fun x y => |x - y|) t u =
      peers.map fun a => |valueOf peers t a - valueOf peers u a| := by
    conv_lhs => rw [← map_valueOf hpeers ht, ← map_valueOf hpeers hu]
    rw [List.zipWith_map, List.zipWith_self]
  rw [delta, hzip, distance, List.sum_toFinset _ hpeers]

end Reading

/-! ### Accumulating -/

@[simp] theorem length_addAt (v : List Rat) (j : Nat) (x : Rat) :
    (addAt v j x).length = v.length := List.length_modify _ _ _

theorem getD_addAt (v : List Rat) (i j : Nat) (x : Rat) (hj : j < v.length) :
    (addAt v i x).getD j 0 = v.getD j 0 + if i = j then x else 0 := by
  rw [List.getD_eq_getElem _ _ (by simpa using hj), List.getD_eq_getElem _ _ hj]
  simp only [addAt, List.getElem_modify]
  by_cases h : i = j
  · rw [if_pos h, if_pos h]
  · rw [if_neg h, if_neg h, add_zero]

@[simp] theorem length_addRow (c : Rat) (row : List (Nat × Rat)) (v : List Rat) :
    (addRow c row v).length = v.length := by
  induction row generalizing v with
  | nil => rfl
  | cons item rest ih => exact (ih _).trans (length_addAt _ _ _)

theorem getD_addRow (c : Rat) {row : List (Nat × Rat)} (hrow : (row.map Prod.fst).Nodup)
    {v : List Rat} {j : Nat} (hj : j < v.length) :
    (addRow c row v).getD j 0 = v.getD j 0 + c * (Dict.lookup j row).getD 0 := by
  induction row generalizing v with
  | nil => simp [addRow, Dict.lookup]
  | cons item rest ih =>
    obtain ⟨i, x⟩ := item
    rw [List.map_cons, List.nodup_cons] at hrow
    have hrest := ih hrow.2 (v := addAt v i (c * x)) (by simpa using hj)
    rw [getD_addAt v i j _ hj] at hrest
    rw [addRow, List.foldl_cons, ← addRow, hrest]
    by_cases h : i = j
    · have hnone : Dict.lookup j rest = none := Dict.lookup_eq_none_iff.mpr (h ▸ hrow.1)
      simp [Dict.lookup, h, hnone]
    · simp [Dict.lookup, h]

@[simp] theorem length_addActive (alpha : Rat) (active : List (Nat × Dict Nat Rat))
    (t v : List Rat) : (addActive alpha active t v).length = v.length := by
  induction active generalizing v with
  | nil => rfl
  | cons row rest ih =>
    rw [addActive, List.foldl_cons, ← addActive, ih]
    split
    · rfl
    · exact length_addRow _ _ _

theorem getD_addActive (alpha : Rat) (active : List (Nat × Dict Nat Rat)) (t : List Rat)
    {v : List Rat} {j : Nat} (hj : j < v.length) :
    (addActive alpha active t v).getD j 0 = v.getD j 0 + (1 - alpha) *
      (active.map fun row => t.getD row.1 0 * (row.2.get? j).getD 0).sum := by
  induction active generalizing v with
  | nil => simp [addActive]
  | cons row rest ih =>
    rw [addActive, List.foldl_cons, ← addActive, List.map_cons, List.sum_cons]
    by_cases hzero : t.getD row.1 0 = 0
    · rw [if_pos hzero, ih hj, hzero]
      ring
    · rw [if_neg hzero, ih (by simpa using hj), getD_addRow _ row.2.nodup hj]
      simp only [Dict.get?]
      ring

@[simp] theorem length_addStranded (alpha : Rat) (pVec : List Rat) (stranded : List Nat)
    (t v : List Rat) : (addStranded alpha pVec stranded t v).length = v.length := by
  simp only [addStranded]
  split
  · exact length_addRow _ _ _
  · rfl

theorem lookup_anchors {pVec : List Rat} (hp : ∀ x ∈ pVec, 0 ≤ x) {j : Nat}
    (hj : j < pVec.length) : (Dict.lookup j (anchors pVec)).getD 0 = pVec.getD j 0 := by
  have hnonneg : 0 ≤ pVec.getD j 0 := by
    rw [List.getD_eq_getElem _ _ hj]
    exact hp _ (List.getElem_mem hj)
  by_cases hpos : 0 < pVec.getD j 0
  · have hmem : (j, pVec.getD j 0) ∈ anchors pVec :=
      List.mem_map.mpr ⟨j, List.mem_filter.mpr ⟨List.mem_range.mpr hj, by simpa using hpos⟩, rfl⟩
    have hnodup : ((anchors pVec).map Prod.fst).Nodup := by
      rw [anchors, List.map_map]
      exact List.Nodup.map (fun _ _ h => h) (List.nodup_range.filter _)
    rw [(Dict.lookup_some_iff hnodup).mpr hmem]
    rfl
  · have hzero : pVec.getD j 0 = 0 := le_antisymm (not_lt.mp hpos) hnonneg
    have hnone : Dict.lookup j (anchors pVec) = none := by
      refine Dict.lookup_eq_none_iff.mpr fun hmem => ?_
      simp only [anchors, List.map_map, List.mem_map, List.mem_filter, Function.comp] at hmem
      obtain ⟨i, hi, hij⟩ := hmem
      exact hpos (hij ▸ by simpa using hi.2)
    rw [hnone, hzero]
    rfl

/-- What the stranded raters give to one entry: their trust times the pre-trust of the entry. -/
theorem getD_addStranded (alpha : Rat) {pVec : List Rat} (hp : ∀ x ∈ pVec, 0 ≤ x)
    {stranded : List Nat} (ht : ∀ x ∈ t, 0 ≤ x) {v : List Rat} (hv : v.length = pVec.length)
    {j : Nat} (hj : j < pVec.length) :
    (addStranded alpha pVec stranded t v).getD j 0 = v.getD j 0 + (1 - alpha) *
      (stranded.map fun i => t.getD i 0 * pVec.getD j 0).sum := by
  have hsum : (stranded.map fun i => t.getD i 0 * pVec.getD j 0).sum =
      (stranded.map fun i => t.getD i 0).sum * pVec.getD j 0 := List.sum_map_mul_right _ _ _
  have hnonneg : 0 ≤ (stranded.map fun i => t.getD i 0).sum := by
    refine List.sum_nonneg fun x hx => ?_
    obtain ⟨i, -, hi⟩ := List.mem_map.mp hx
    rw [← hi]
    by_cases hlt : i < t.length
    · rw [List.getD_eq_getElem _ _ hlt]
      exact ht _ (List.getElem_mem hlt)
    · rw [List.getD_eq_default _ _ (not_lt.mp hlt)]
  have hnodup : ((anchors pVec).map Prod.fst).Nodup := by
    rw [anchors, List.map_map]
    exact List.Nodup.map (fun _ _ h => h) (List.nodup_range.filter _)
  simp only [addStranded]
  rw [hsum]
  by_cases hpos : 0 < (stranded.map fun i => t.getD i 0).sum
  · rw [if_pos hpos, getD_addRow _ hnodup (hv ▸ hj), lookup_anchors hp hj]
    ring
  · rw [if_neg hpos, le_antisymm (not_lt.mp hpos) hnonneg]
    ring

/-! ### The scores by row -/

/-- A score without its negative part. -/
def score (scores : Scores Peer) (a b : Peer) : Rat := max 0 ((scores.get? (a, b)).getD 0)

/-- All that a rater gives. -/
def given (scores : Scores Peer) (known : Finset Peer) (a : Peer) : Rat :=
  ∑ b ∈ known, score scores a b

/-- The matrix `C`: normalised scores, and the pre-trust where a rater has none. -/
def trustMatrix (scores : Scores Peer) (known : Finset Peer) (anchor : Peer → Rat)
    (a b : Peer) : Rat :=
  if 0 < given scores known a then score scores a b / given scores known a else anchor b

namespace Raw

variable {peers : List Peer}

@[simp] theorem length_add (raw : Raw) (item : (Peer × Peer) × Rat) :
    (add peers raw item).rowSum.length = raw.rowSum.length := by
  simp only [add]
  split
  · rfl
  · exact length_addAt _ _ _

theorem rowSum_add (raw : Raw) (item : (Peer × Peer) × Rat) {i : Nat}
    (hi : i < raw.rowSum.length) : (add peers raw item).rowSum.getD i 0 =
      raw.rowSum.getD i 0 + if peers.idxOf item.1.1 = i then max 0 item.2 else 0 := by
  simp only [add]
  split
  next hle => simp [max_eq_left hle]
  next hlt =>
    rw [max_eq_right (not_le.mp hlt).le]
    exact getD_addAt _ _ _ _ hi

theorem entry_add (raw : Raw) (item : (Peer × Peer) × Rat) (i j : Nat) :
    (((add peers raw item).row i).get? j).getD 0 = ((raw.row i).get? j).getD 0 +
      if peers.idxOf item.1.1 = i ∧ peers.idxOf item.1.2 = j then max 0 item.2 else 0 := by
  simp only [add]
  split
  next hle => simp [max_eq_left hle]
  next hlt =>
    rw [max_eq_right (not_le.mp hlt).le]
    by_cases hrow : i = peers.idxOf item.1.1
    · by_cases hitem : j = peers.idxOf item.1.2
      · simp [row, hrow, hitem]
      · simp [row, hrow, Ne.symm hitem, Dict.get?_set_ne _ _ hitem]
    · simp [row, Ne.symm hrow, Dict.get?_set_ne _ _ hrow]

theorem rowSum_foldl (items : List ((Peer × Peer) × Rat)) (raw : Raw) {i : Nat}
    (hi : i < raw.rowSum.length) : (items.foldl (add peers) raw).rowSum.getD i 0 =
      raw.rowSum.getD i 0 +
        (items.map fun e => if peers.idxOf e.1.1 = i then max 0 e.2 else 0).sum := by
  induction items generalizing raw with
  | nil => simp
  | cons item rest ih =>
    rw [List.foldl_cons, ih _ (by simpa using hi), rowSum_add raw item hi, List.map_cons,
      List.sum_cons, add_assoc]

theorem entry_foldl (items : List ((Peer × Peer) × Rat)) (raw : Raw) (i j : Nat) :
    (((items.foldl (add peers) raw).row i).get? j).getD 0 = ((raw.row i).get? j).getD 0 +
      (items.map fun e =>
        if peers.idxOf e.1.1 = i ∧ peers.idxOf e.1.2 = j then max 0 e.2 else 0).sum := by
  induction items generalizing raw with
  | nil => simp
  | cons item rest ih =>
    rw [List.foldl_cons, ih, entry_add raw item, List.map_cons, List.sum_cons, add_assoc]

end Raw

theorem sum_of_key {κ : Type} [DecidableEq κ] {items : List (κ × Rat)}
    (hitems : (items.map Prod.fst).Nodup) (k : κ) :
    (items.map fun e => if e.1 = k then max 0 e.2 else 0).sum =
      max 0 ((Dict.lookup k items).getD 0) := by
  induction items with
  | nil => simp [Dict.lookup]
  | cons item rest ih =>
    obtain ⟨k', x⟩ := item
    rw [List.map_cons, List.nodup_cons] at hitems
    rw [List.map_cons, List.sum_cons, ih hitems.2]
    by_cases h : k' = k
    · have hnone : Dict.lookup k rest = none := Dict.lookup_eq_none_iff.mpr (h ▸ hitems.1)
      simp [Dict.lookup, h, hnone]
    · simp [Dict.lookup, h]

theorem sum_items {κ ι : Type} [DecidableEq ι] (items : List κ) (key : κ → ι) (f : κ → Rat)
    {known : Finset ι} (h : ∀ e ∈ items, key e ∈ known) :
    (items.map f).sum = ∑ k ∈ known, (items.map fun e => if key e = k then f e else 0).sum := by
  induction items with
  | nil => simp
  | cons item rest ih =>
    have hhead : ∑ k ∈ known, (if key item = k then f item else 0) = f item := by
      rw [Finset.sum_ite_eq known (key item), if_pos (h item (.head _))]
    simp only [List.map_cons, List.sum_cons]
    rw [Finset.sum_add_distrib, hhead, ih fun e he => h e (.tail _ he)]

section Rows

variable {peers : List Peer} {scores : Scores Peer}

/-- The peers of the scores are known. -/
def Known (peers : List Peer) (scores : Scores Peer) : Prop :=
  ∀ e ∈ scores.entries, e.1.1 ∈ peers ∧ e.1.2 ∈ peers

theorem entry_ofScores (hknown : Known peers scores) (a b : Peer) :
    (((Raw.ofScores peers scores).row (peers.idxOf a)).get? (peers.idxOf b)).getD 0 =
      score scores a b := by
  have hscore : score scores a b = _ := (sum_of_key scores.nodup (a, b)).symm
  rw [Raw.ofScores, Raw.entry_foldl, hscore]
  have hzero : (((⟨List.replicate peers.length 0, .empty⟩ : Raw).row (peers.idxOf a)).get?
      (peers.idxOf b)).getD 0 = 0 := rfl
  rw [hzero, zero_add]
  refine congrArg List.sum (List.map_congr_left fun e he => ?_)
  obtain ⟨hrater, hratee⟩ := hknown e he
  simp only [List.idxOf_inj hrater, List.idxOf_inj hratee, Prod.ext_iff]

theorem rowSum_ofScores (hknown : Known peers scores) {a : Peer} (ha : a ∈ peers) :
    (Raw.ofScores peers scores).rowSum.getD (peers.idxOf a) 0 =
      given scores peers.toFinset a := by
  have hlt : peers.idxOf a < (List.replicate peers.length (0 : Rat)).length := by
    rw [List.length_replicate]
    exact List.idxOf_lt_length_iff.mpr ha
  have hzero : (List.replicate peers.length (0 : Rat)).getD (peers.idxOf a) 0 = 0 := by
    rw [List.getD_eq_getElem _ _ hlt, List.getElem_replicate]
  rw [Raw.ofScores, Raw.rowSum_foldl _ _ hlt, hzero, zero_add,
    sum_items scores.entries (fun e => e.1.2) _ fun e he => List.mem_toFinset.mpr (hknown e he).2]
  refine Finset.sum_congr rfl fun b _ => ?_
  have hscore : score scores a b = _ := (sum_of_key scores.nodup (a, b)).symm
  rw [hscore]
  refine congrArg List.sum (List.map_congr_left fun e he => ?_)
  simp only [List.idxOf_inj (hknown e he).1, Prod.ext_iff]
  by_cases hratee : e.1.2 = b <;> by_cases hrater : e.1.1 = a <;> simp [hratee, hrater]

/-! ### One pass of the loop -/

/-- What every vector of the loop is: a distribution over the peers. -/
structure Spread (peers : List Peer) (t : List Rat) : Prop where
  length_eq : t.length = peers.length
  nonneg : ∀ x ∈ t, 0 ≤ x
  total : t.sum = 1

theorem Spread.distribution (hpeers : peers.Nodup) (ht : Spread peers t) :
    Distribution peers.toFinset (valueOf peers t) where
  nonneg a ha := by
    have hlt : peers.idxOf a < t.length := by
      rw [ht.length_eq]
      exact List.idxOf_lt_length_iff.mpr (List.mem_toFinset.mp ha)
    rw [valueOf, List.getD_eq_getElem _ _ hlt]
    exact ht.nonneg _ (List.getElem_mem hlt)
  total := by rw [← sum_eq hpeers ht.length_eq, ht.total]

theorem Spread.of_distribution (hpeers : peers.Nodup) (hlength : t.length = peers.length)
    (ht : Distribution peers.toFinset (valueOf peers t)) : Spread peers t where
  length_eq := hlength
  nonneg x hx := by
    rw [← map_valueOf hpeers hlength] at hx
    obtain ⟨a, ha, hax⟩ := List.mem_map.mp hx
    exact hax ▸ ht.nonneg a (List.mem_toFinset.mpr ha)
  total := by rw [sum_eq hpeers hlength, ht.total]

theorem trustMatrix_distribution (scores : Scores Peer) {known : Finset Peer}
    {anchor : Peer → Rat} (hanchor : Distribution known anchor) (a : Peer) :
    Distribution known (trustMatrix scores known anchor a) := by
  by_cases hpos : 0 < given scores known a
  · refine ⟨fun b _ => ?_, ?_⟩
    · rw [trustMatrix, if_pos hpos]
      exact div_nonneg (le_max_left _ _) hpos.le
    · simp only [trustMatrix, if_pos hpos]
      rw [← Finset.sum_div, ← given, div_self hpos.ne']
  · refine ⟨fun b hb => ?_, ?_⟩
    · rw [trustMatrix, if_neg hpos]
      exact hanchor.nonneg b hb
    · simp only [trustMatrix, if_neg hpos]
      exact hanchor.total

theorem sum_map_filter (l : List Nat) (keep : Nat → Bool) (f : Nat → Rat) :
    ((l.filter keep).map f).sum = (l.map fun i => if keep i then f i else 0).sum := by
  induction l with
  | nil => rfl
  | cons i rest ih =>
    by_cases h : keep i = true
    · simp [h, ih]
    · simp [h, ih]

/-- `new_t` before the division, entry by entry. -/
theorem newT_spec (hpeers : peers.Nodup) (hknown : Known peers scores) {pVec : List Rat}
    (hp : Spread peers pVec) (ht : Spread peers t) (alpha : Rat) {b : Peer} (hb : b ∈ peers) :
    valueOf peers (addActive alpha ((Raw.ofScores peers scores).active pVec.length) t
      (addStranded alpha pVec ((Raw.ofScores peers scores).stranded pVec.length) t
        (pVec.map fun x => alpha * x))) b =
      damped peers.toFinset (trustMatrix scores peers.toFinset (valueOf peers pVec))
        (valueOf peers pVec) alpha (valueOf peers t) b := by
  have hj : peers.idxOf b < pVec.length := by
    rw [hp.length_eq]
    exact List.idxOf_lt_length_iff.mpr hb
  have hstart : (pVec.map fun x => alpha * x).getD (peers.idxOf b) 0 =
      alpha * valueOf peers pVec b := by
    rw [valueOf, List.getD_eq_getElem _ _ (by rwa [List.length_map]), List.getElem_map,
      List.getD_eq_getElem _ _ hj]
  -- The stranded raters and the active ones are the two cases of a row of the matrix.
  have hrows : ((Raw.ofScores peers scores).stranded pVec.length |>.map fun i =>
        t.getD i 0 * pVec.getD (peers.idxOf b) 0).sum +
      ((Raw.ofScores peers scores).active pVec.length |>.map fun row =>
        t.getD row.1 0 * (row.2.get? (peers.idxOf b)).getD 0).sum =
      ∑ a ∈ peers.toFinset, valueOf peers t a *
        trustMatrix scores peers.toFinset (valueOf peers pVec) a b := by
    rw [Raw.stranded, Raw.active, List.map_map, sum_map_filter, sum_map_filter, hp.length_eq,
      sum_range_eq hpeers, sum_range_eq hpeers, ← Finset.sum_add_distrib]
    refine Finset.sum_congr rfl fun a ha => ?_
    have ha' := List.mem_toFinset.mp ha
    simp only [rowSum_ofScores hknown ha', decide_not, Bool.not_eq_true', decide_eq_false_iff_not,
      decide_eq_true_eq, Function.comp, Dict.get?_mapValues, trustMatrix]
    by_cases hpos : 0 < given scores peers.toFinset a
    · have hentry := entry_ofScores hknown a b
      rw [if_neg (not_not.mpr hpos), if_pos hpos, if_pos hpos, zero_add, valueOf]
      congr 1
      cases hget : ((Raw.ofScores peers scores).row (peers.idxOf a)).get? (peers.idxOf b) with
      | none =>
        rw [hget] at hentry
        rw [← hentry]
        simp
      | some x =>
        rw [hget] at hentry
        rw [← hentry]
        rfl
    · rw [if_pos hpos, if_neg hpos, if_neg hpos, add_zero]
      rfl
  rw [valueOf, getD_addActive _ _ _ (by simpa using hj),
    getD_addStranded alpha hp.nonneg ht.nonneg (by simp) hj, hstart]
  simp only [damped]
  rw [← hrows]
  ring

theorem iterate_spec (hpeers : peers.Nodup) (hknown : Known peers scores) {pVec : List Rat}
    (hp : Spread peers pVec) (ht : Spread peers t) {alpha : Rat} (h0 : 0 ≤ alpha) (h1 : alpha ≤ 1) :
    Spread peers (iterate alpha pVec (.ofScores peers scores) t) ∧
      ∀ b ∈ peers, valueOf peers (iterate alpha pVec (.ofScores peers scores) t) b =
        damped peers.toFinset (trustMatrix scores peers.toFinset (valueOf peers pVec))
          (valueOf peers pVec) alpha (valueOf peers t) b := by
  have hvalues := fun b hb => newT_spec hpeers hknown hp ht alpha (b := b) hb
  have hpDist := hp.distribution hpeers
  have hdamped := Distribution.damped h0 h1 hpDist
    (fun a _ => trustMatrix_distribution scores hpDist a) (ht.distribution hpeers)
  generalize hnew : addActive alpha ((Raw.ofScores peers scores).active pVec.length) t
    (addStranded alpha pVec ((Raw.ofScores peers scores).stranded pVec.length) t
      (pVec.map fun x => alpha * x)) = newT at hvalues
  have hlength : newT.length = peers.length := by
    rw [← hnew, length_addActive, length_addStranded, List.length_map, hp.length_eq]
  have hspread : Spread peers newT := by
    refine .of_distribution hpeers hlength ⟨fun a ha => ?_, ?_⟩
    · rw [hvalues a (List.mem_toFinset.mp ha)]
      exact hdamped.nonneg a ha
    · rw [Finset.sum_congr rfl fun a ha => hvalues a (List.mem_toFinset.mp ha), hdamped.total]
  have hiterate : iterate alpha pVec (.ofScores peers scores) t = newT := by
    simp only [iterate, hnew, hspread.total, zero_lt_one, if_true, div_one, List.map_id']
  rw [hiterate]
  exact ⟨hspread, hvalues⟩

end Rows

end EigenTrust
