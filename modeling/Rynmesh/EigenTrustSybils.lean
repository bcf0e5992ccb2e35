import Rynmesh.EigenTrustVectors

/-!
# Sybils and EigenTrust

For prior weights with a positive total and `alpha` in `(0, 1]`, what
`eigentrust` returns is a distribution over the peers (`Outcome.Sound`):

* a set of peers without prior weight and without a positive score from outside
  gets nothing, and the others get what they get without it;
* the scores of a rater matter up to a positive factor;
* when the loop stops early, the result is near the fixed point.

Two loops are compared pass by pass (`loop_lockstep`), over inputs of different
size, by the entries of their peers.
-/

namespace EigenTrust

open Checked Stochastic

variable {Peer : Type} [DecidableEq Peer]

/-! ### Loops -/

variable {t : List Rat}

/-- Loops whose passes correspond and are equally long end alike. -/
theorem loop_lockstep {R : List Rat → List Rat → Prop} {f g : List Rat → List Rat}
    (hstep : ∀ t u, R t u → R (f t) (g u) ∧ delta (f t) t = delta (g u) u) (epsilon : Rat)
    (rounds : Nat) {u : List Rat} (h : R t u) :
    R (loop f epsilon rounds t).1 (loop g epsilon rounds u).1 ∧
      (loop f epsilon rounds t).2 = (loop g epsilon rounds u).2 := by
  induction rounds generalizing t u with
  | zero => exact ⟨h, rfl⟩
  | succ rounds ih =>
    obtain ⟨hnext, hdelta⟩ := hstep t u h
    simp only [loop, hdelta]
    by_cases hshort : delta (g u) u < epsilon
    · rw [if_pos hshort, if_pos hshort]
      exact ⟨hnext, rfl⟩
    · rw [if_neg hshort, if_neg hshort]
      exact ih hnext

theorem loop_preserves {P : List Rat → Prop} {f : List Rat → List Rat} (hstep : ∀ t, P t → P (f t))
    (epsilon : Rat) (rounds : Nat) (h : P t) : P (loop f epsilon rounds t).1 :=
  (loop_lockstep (R := fun t u => P t ∧ t = u) (f := f) (g := f)
    (fun t _ ht => ht.2 ▸ ⟨⟨hstep t ht.1, rfl⟩, rfl⟩) epsilon rounds ⟨h, rfl⟩).1.1

theorem loop_short {P : List Rat → Prop} {f : List Rat → List Rat} (hstep : ∀ t, P t → P (f t))
    {epsilon : Rat} {rounds : Nat} (h : P t) (hstop : (loop f epsilon rounds t).2 = true) :
    ∃ u, P u ∧ (loop f epsilon rounds t).1 = f u ∧ delta (f u) u < epsilon := by
  induction rounds generalizing t with
  | zero => cases hstop
  | succ rounds ih =>
    simp only [loop] at hstop ⊢
    by_cases hshort : delta (f t) t < epsilon
    · rw [if_pos hshort]
      exact ⟨t, h, rfl, hshort⟩
    · rw [if_neg hshort] at hstop ⊢
      exact ih (hstep t h) hstop

/-! ### Inputs -/

namespace Input

/-- What the result is about: arguments that are accepted, with an anchor. -/
structure Anchored (input : Input Peer) : Prop where
  total_pos : 0 < positiveTotal input.pretrusted
  alpha_pos : 0 < input.alpha
  alpha_le : input.alpha ≤ 1
  epsilon_pos : 0 < input.epsilon
  maxIter_pos : 1 ≤ input.maxIter

/-- Peers without prior weight, with no positive score from another peer. -/
structure Isolated (input : Input Peer) (sybils : Finset Peer) : Prop where
  unanchored : ∀ a ∈ sybils, ∀ w, input.pretrusted.get? a = some w → w ≤ 0
  unrated : ∀ a ∉ sybils, ∀ b ∈ sybils, ∀ x, input.scores.get? (a, b) = some x → x ≤ 0

/-- The input without some peers and their scores. -/
def without (input : Input Peer) (sybils : Finset Peer) : Input Peer :=
  { input with
    scores := input.scores.filter fun pair _ => pair.1 ∉ sybils && pair.2 ∉ sybils
    pretrusted := input.pretrusted.filter fun a _ => a ∉ sybils
    extraPeers := input.extraPeers.filter fun a => a ∉ sybils }

/-- The input with all scores of a rater multiplied. -/
def scaled (input : Input Peer) (rater : Peer) (c : Rat) : Input Peer :=
  { input with
    scores :=
      { entries := input.scores.entries.map fun e =>
          (e.1, if e.1.1 = rater then c * e.2 else e.2)
        nodup := by
          rw [List.map_map]
          exact input.scores.nodup } }

/-- The pre-trust vector `p`. -/
def anchor (input : Input Peer) (a : Peer) : Rat :=
  max 0 ((input.pretrusted.get? a).getD 0) / positiveTotal input.pretrusted

/-- The matrix `C`. -/
def matrix (input : Input Peer) : Peer → Peer → Rat :=
  trustMatrix input.scores input.members.toFinset input.anchor

/-- `t = (1 - alpha) * C^T t + alpha * p`, for a vector over the peers. -/
def FixedPoint (input : Input Peer) (t : Peer → Rat) : Prop :=
  Fixed input.members.toFinset input.matrix input.anchor input.alpha t ∧
    ∀ a ∉ input.members, t a = 0

variable {a : Peer} {input : Input Peer}

theorem mem_members :
    a ∈ input.members ↔ a ∈ input.extraPeers ∨
      (∃ pair ∈ input.scores.keys, a = pair.1 ∨ a = pair.2) ∨ a ∈ input.pretrusted.keys := by
  simp only [members, List.mem_dedup, List.mem_append, List.mem_flatMap, List.mem_cons,
    List.not_mem_nil, or_false, or_assoc]

theorem mem_peers {str : Peer → String} : a ∈ input.peers str ↔ a ∈ input.members :=
  (List.perm_insertionSort _ _).mem_iff

theorem peers_toFinset (input : Input Peer) (str : Peer → String) :
    (input.peers str).toFinset = input.members.toFinset := by
  ext a
  rw [List.mem_toFinset, List.mem_toFinset, mem_peers]

theorem known (input : Input Peer) (str : Peer → String) :
    Known (input.peers str) input.scores := by
  intro e he
  have hkey : e.1 ∈ input.scores.keys := List.mem_map_of_mem he
  exact ⟨mem_peers.mpr (mem_members.mpr (.inr (.inl ⟨e.1, hkey, .inl rfl⟩))),
    mem_peers.mpr (mem_members.mpr (.inr (.inl ⟨e.1, hkey, .inr rfl⟩)))⟩

theorem positiveTotal_eq (pretrusted : Weights Peer) {U : Finset Peer}
    (h : ∀ a ∈ pretrusted.keys, a ∈ U) :
    positiveTotal pretrusted = ∑ a ∈ U, max 0 ((pretrusted.get? a).getD 0) := by
  have hkeys : ∀ e ∈ pretrusted.entries, e.1 ∈ U := fun e he => h e.1 (List.mem_map_of_mem he)
  rw [positiveTotal, Dict.values, List.map_map, sum_items _ Prod.fst _ hkeys]
  exact Finset.sum_congr rfl fun a _ => sum_of_key pretrusted.nodup a

theorem anchor_of_notMem (ha : a ∉ input.members) : input.anchor a = 0 := by
  have hnone : input.pretrusted.get? a = none :=
    Dict.get?_eq_none_iff.mpr fun hkey => ha (mem_members.mpr (.inr (.inr hkey)))
  rw [anchor, hnone, Option.getD_none, max_self, zero_div]

section Anchored

variable {input : Input Peer} (h : input.Anchored) (str : Peer → String)

include h

theorem Anchored.distribution : Distribution input.members.toFinset input.anchor where
  nonneg _ _ := div_nonneg (le_max_left _ _) h.total_pos.le
  total := by
    have hkeys : ∀ a ∈ input.pretrusted.keys, a ∈ input.members.toFinset := fun a ha =>
      List.mem_toFinset.mpr (mem_members.mpr (.inr (.inr ha)))
    simp only [anchor]
    rw [← Finset.sum_div, ← positiveTotal_eq _ hkeys, div_self h.total_pos.ne']

theorem Anchored.members_ne_nil : input.members ≠ [] := by
  intro hnil
  have htotal := h.distribution.total
  rw [hnil, List.toFinset_nil, Finset.sum_empty] at htotal
  exact zero_ne_one htotal

theorem Anchored.valueOf_pretrust :
    valueOf (input.peers str) (normalizePretrust input.pretrusted (input.peers str)) =
      input.anchor := by
  rw [normalizePretrust, if_pos h.total_pos]
  funext a
  by_cases ha : a ∈ input.peers str
  · exact valueOf_map _ ha
  · rw [valueOf_of_notMem (List.length_map _) ha,
      anchor_of_notMem fun hmem => ha (mem_peers.mpr hmem)]

theorem Anchored.spread :
    Spread (input.peers str) (normalizePretrust input.pretrusted (input.peers str)) := by
  refine .of_distribution (input.peers_nodup str) ?_ ?_
  · rw [normalizePretrust, if_pos h.total_pos, List.length_map]
  · rw [h.valueOf_pretrust, input.peers_toFinset]
    exact h.distribution

theorem Anchored.matrix_distribution (a : Peer) :
    Distribution input.members.toFinset (input.matrix a) :=
  trustMatrix_distribution _ h.distribution a

end Anchored

/-- One pass of the loop of `eigentrust`. -/
def pass (input : Input Peer) (str : Peer → String) : List Rat → List Rat :=
  iterate input.alpha (normalizePretrust input.pretrusted (input.peers str))
    (.ofScores (input.peers str) input.scores)

/-- The loop of `eigentrust`. -/
def result (input : Input Peer) (str : Peer → String) : List Rat × Bool :=
  loop (input.pass str) input.epsilon input.maxIter.toNat
    (normalizePretrust input.pretrusted (input.peers str))

theorem Anchored.pass_spec (h : input.Anchored) (str : Peer → String)
    (ht : Spread (input.peers str) t) :
    Spread (input.peers str) (input.pass str t) ∧ ∀ b ∈ input.members,
      valueOf (input.peers str) (input.pass str t) b =
        damped input.members.toFinset input.matrix input.anchor input.alpha
          (valueOf (input.peers str) t) b := by
  have hspec := iterate_spec (input.peers_nodup str) (input.known str) (h.spread str) ht
    h.alpha_pos.le h.alpha_le
  rw [h.valueOf_pretrust, input.peers_toFinset] at hspec
  exact ⟨hspec.1, fun b hb => hspec.2 b (mem_peers.mpr hb)⟩

theorem Anchored.eigentrust_eq (h : input.Anchored) (str : Peer → String) :
    eigentrust str input =
      .ok ⟨input.answer str (input.result str).1, (input.result str).2⟩ := by
  have halpha : 0 ≤ input.alpha ∧ input.alpha ≤ 1 := ⟨h.alpha_pos.le, h.alpha_le⟩
  unfold eigentrust
  rw [require_of halpha, require_of h.epsilon_pos, require_of h.maxIter_pos]
  simp only [ok_bind, if_neg h.members_ne_nil]
  rfl

theorem Anchored.result_spread (h : input.Anchored) (str : Peer → String) :
    Spread (input.peers str) (input.result str).1 := by
  have hstep : ∀ t, Spread (input.peers str) t → Spread (input.peers str) (input.pass str t) :=
    fun t ht => (h.pass_spec str ht).1
  exact loop_preserves hstep _ _ (h.spread str)

theorem lookup_map_self {κ : Type} [DecidableEq κ] (f : κ → Rat) (k : κ) (l : List κ) :
    Dict.lookup k (l.map fun a => (a, f a)) = if k ∈ l then some (f k) else none := by
  induction l with
  | nil => rfl
  | cons a rest ih =>
    by_cases hak : a = k
    · simp [Dict.lookup, hak]
    · simp [Dict.lookup, hak, Ne.symm hak, ih]

theorem get?_answer (input : Input Peer) (str : Peer → String)
    (ht : t.length = (input.peers str).length) (a : Peer) : (input.answer str t).get? a =
      if a ∈ input.members then some (valueOf (input.peers str) t a) else none := by
  have hentries : (input.answer str t).entries =
      (input.peers str).map fun a => (a, valueOf (input.peers str) t a) := by
    show (input.peers str).zip t = _
    conv_lhs => rw [← map_valueOf (input.peers_nodup str) ht]
    rw [List.zip_eq_zipWith, List.zipWith_map_right, List.zipWith_self]
  rw [Dict.get?, hentries, lookup_map_self]
  simp only [mem_peers]

theorem getD_answer (input : Input Peer) (str : Peer → String)
    (ht : t.length = (input.peers str).length) (a : Peer) :
    ((input.answer str t).get? a).getD 0 = valueOf (input.peers str) t a := by
  rw [input.get?_answer str ht]
  by_cases ha : a ∈ input.members
  · rw [if_pos ha]
    rfl
  · rw [if_neg ha, valueOf_of_notMem ht fun hmem => ha (mem_peers.mp hmem)]
    rfl

/-! ### Scaled scores -/

theorem keys_scaled (input : Input Peer) (rater : Peer) (c : Rat) :
    (input.scaled rater c).scores.keys = input.scores.keys := by
  simp only [scaled, Dict.keys, List.map_map]
  rfl

theorem members_scaled (input : Input Peer) (rater : Peer) (c : Rat) :
    (input.scaled rater c).members = input.members := by
  unfold members
  rw [keys_scaled]
  rfl

theorem lookup_scaled (items : List ((Peer × Peer) × Rat)) (rater : Peer) (c : Rat)
    (pair : Peer × Peer) :
    Dict.lookup pair (items.map fun e => (e.1, if e.1.1 = rater then c * e.2 else e.2)) =
      (Dict.lookup pair items).map fun x => if pair.1 = rater then c * x else x := by
  induction items with
  | nil => rfl
  | cons item rest ih =>
    obtain ⟨key, x⟩ := item
    by_cases hkey : key = pair
    · simp [Dict.lookup, hkey]
    · simp [Dict.lookup, hkey, ih]

theorem score_scaled (input : Input Peer) (rater : Peer) {c : Rat} (hc : 0 < c) (a b : Peer) :
    score (input.scaled rater c).scores a b =
      (if a = rater then c else 1) * score input.scores a b := by
  have hget : (input.scaled rater c).scores.get? (a, b) =
      (input.scores.get? (a, b)).map fun x => if a = rater then c * x else x :=
    lookup_scaled input.scores.entries rater c (a, b)
  rw [score, score, hget]
  cases input.scores.get? (a, b) with
  | none => simp
  | some x =>
    by_cases ha : a = rater
    · simp only [Option.map_some, if_pos ha, Option.getD_some]
      rw [mul_max_of_nonneg _ _ hc.le, mul_zero]
    · simp only [Option.map_some, if_neg ha, Option.getD_some, one_mul]

theorem matrix_scaled (input : Input Peer) (rater : Peer) {c : Rat} (hc : 0 < c) :
    (input.scaled rater c).matrix = input.matrix := by
  funext a b
  have hfactor : 0 < (if a = rater then c else 1 : Rat) := by
    split
    · exact hc
    · exact zero_lt_one
  have hgiven : given (input.scaled rater c).scores input.members.toFinset a =
      (if a = rater then c else 1) * given input.scores input.members.toFinset a := by
    simp only [given, score_scaled input rater hc]
    rw [Finset.mul_sum]
  have hanchor : (input.scaled rater c).anchor = input.anchor := rfl
  simp only [matrix, trustMatrix, members_scaled, hgiven, hanchor, score_scaled input rater hc]
  by_cases hpos : 0 < given input.scores input.members.toFinset a
  · rw [if_pos (mul_pos hfactor hpos), if_pos hpos, mul_div_mul_left _ _ hfactor.ne']
  · have hscaled : ¬ 0 < (if a = rater then c else 1) *
        given input.scores input.members.toFinset a := fun hmul =>
      hpos ((mul_pos_iff_of_pos_left hfactor).mp hmul)
    rw [if_neg hscaled, if_neg hpos]

theorem Anchored.scaled (h : input.Anchored) (rater : Peer) (c : Rat) :
    (input.scaled rater c).Anchored :=
  ⟨h.total_pos, h.alpha_pos, h.alpha_le, h.epsilon_pos, h.maxIter_pos⟩

theorem Anchored.result_scaled (h : input.Anchored) (str : Peer → String) (rater : Peer) {c : Rat}
    (hc : 0 < c) : (input.scaled rater c).result str = input.result str := by
  have hpeers : (input.scaled rater c).peers str = input.peers str := by
    unfold peers
    rw [members_scaled]
  have hstep : ∀ t u, Spread (input.peers str) t ∧ t = u →
      (Spread (input.peers str) ((input.scaled rater c).pass str t) ∧
        (input.scaled rater c).pass str t = input.pass str u) ∧
      delta ((input.scaled rater c).pass str t) t = delta (input.pass str u) u := by
    rintro t u ⟨ht, rfl⟩
    obtain ⟨hspread, hvalues⟩ := (h.scaled rater c).pass_spec str (hpeers ▸ ht)
    obtain ⟨hspread', hvalues'⟩ := h.pass_spec str ht
    rw [hpeers] at hspread hvalues
    have hsame : (input.scaled rater c).pass str t = input.pass str t := by
      refine eq_of_valueOf (input.peers_nodup str) hspread.length_eq hspread'.length_eq ?_
      intro a ha
      have ha' := mem_peers.mp ha
      rw [hvalues a (by rwa [members_scaled]), hvalues' a ha', members_scaled,
        input.matrix_scaled rater hc]
      rfl
    exact ⟨⟨hspread, hsame⟩, by rw [hsame]⟩
  have hstart : Spread (input.peers str)
      (normalizePretrust input.pretrusted (input.peers str)) := h.spread str
  have hloops := loop_lockstep hstep input.epsilon input.maxIter.toNat ⟨hstart, rfl⟩
  have hresult : (input.scaled rater c).result str = loop ((input.scaled rater c).pass str)
      input.epsilon input.maxIter.toNat
        (normalizePretrust input.pretrusted (input.peers str)) := by
    rw [result, hpeers]
    rfl
  rw [hresult]
  exact Prod.ext hloops.1.2 hloops.2

/-! ### Isolated peers -/

section Isolated

variable {input : Input Peer} {sybils : Finset Peer}

theorem mem_members_without (ha : a ∈ (input.without sybils).members) :
    a ∈ input.members ∧ a ∉ sybils := by
  simp only [mem_members, without, List.mem_filter, Dict.mem_keys_iff, Dict.get?_filter,
    decide_eq_true_eq] at ha ⊢
  rcases ha with hextra | hscores | hweight
  · exact ⟨.inl hextra.1, hextra.2⟩
  · obtain ⟨pair, hpair, hside⟩ := hscores
    obtain ⟨x, hx⟩ := hpair
    simp only [Option.filter_eq_some_iff, Bool.and_eq_true, decide_eq_true_eq] at hx
    refine ⟨.inr (.inl ⟨pair, ⟨x, hx.1⟩, hside⟩), ?_⟩
    rcases hside with hrater | hratee
    · exact hrater ▸ hx.2.1
    · exact hratee ▸ hx.2.2
  · obtain ⟨w, hw⟩ := hweight
    simp only [Option.filter_eq_some_iff, decide_eq_true_eq] at hw
    exact ⟨.inr (.inr ⟨w, hw.1⟩), hw.2⟩

theorem get?_scores_without {b : Peer} (ha : a ∉ sybils) (hb : b ∉ sybils) :
    (input.without sybils).scores.get? (a, b) = input.scores.get? (a, b) := by
  show (input.scores.filter _).get? (a, b) = _
  rw [Dict.get?_filter]
  cases input.scores.get? (a, b) with
  | none => rfl
  | some x => simp [ha, hb]

theorem get?_pretrusted_without (ha : a ∉ sybils) :
    (input.without sybils).pretrusted.get? a = input.pretrusted.get? a := by
  show (input.pretrusted.filter _).get? a = _
  rw [Dict.get?_filter]
  cases input.pretrusted.get? a with
  | none => rfl
  | some w => simp [ha]

variable (h : input.Isolated sybils)

include h

theorem Isolated.weight_zero (ha : a ∉ (input.without sybils).members) :
    max 0 ((input.pretrusted.get? a).getD 0) = 0 := by
  cases hget : input.pretrusted.get? a with
  | none => exact max_self _
  | some w =>
    by_cases hsybil : a ∈ sybils
    · exact max_eq_left (h.unanchored a hsybil w hget)
    · have hkey : a ∈ (input.without sybils).pretrusted.keys :=
        Dict.mem_keys_iff.mpr ⟨w, by rw [get?_pretrusted_without hsybil, hget]⟩
      exact absurd (mem_members.mpr (.inr (.inr hkey))) ha

/-- What is left gives nothing to the outside. -/
theorem Isolated.score_zero {b : Peer} (ha : a ∉ sybils) (hb : b ∉ (input.without sybils).members) :
    score input.scores a b = 0 := by
  rw [score]
  cases hget : input.scores.get? (a, b) with
  | none => exact max_self _
  | some x =>
    by_cases hsybil : b ∈ sybils
    · exact max_eq_left (h.unrated a ha b hsybil x hget)
    · have hkey : (a, b) ∈ (input.without sybils).scores.keys :=
        Dict.mem_keys_iff.mpr ⟨x, by rw [get?_scores_without ha hsybil, hget]⟩
      exact absurd (mem_members.mpr (.inr (.inl ⟨(a, b), hkey, .inr rfl⟩))) hb

theorem Isolated.total_without :
    positiveTotal (input.without sybils).pretrusted = positiveTotal input.pretrusted := by
  have hsubset : (input.without sybils).members.toFinset ⊆ input.members.toFinset :=
    fun a ha => List.mem_toFinset.mpr (mem_members_without (List.mem_toFinset.mp ha)).1
  have hkeys : ∀ a ∈ input.pretrusted.keys, a ∈ input.members.toFinset := fun a ha =>
    List.mem_toFinset.mpr (mem_members.mpr (.inr (.inr ha)))
  have hkeys' : ∀ a ∈ (input.without sybils).pretrusted.keys,
      a ∈ (input.without sybils).members.toFinset := fun a ha =>
    List.mem_toFinset.mpr (mem_members.mpr (.inr (.inr ha)))
  rw [positiveTotal_eq _ hkeys, positiveTotal_eq _ hkeys', ← Finset.sum_subset hsubset
    fun a _ ha => h.weight_zero fun hmem => ha (List.mem_toFinset.mpr hmem)]
  refine Finset.sum_congr rfl fun a ha => ?_
  rw [get?_pretrusted_without (mem_members_without (List.mem_toFinset.mp ha)).2]

theorem Isolated.anchor_without : (input.without sybils).anchor = input.anchor := by
  funext a
  by_cases ha : a ∈ (input.without sybils).members
  · rw [anchor, anchor, h.total_without, get?_pretrusted_without (mem_members_without ha).2]
  · rw [anchor_of_notMem ha, anchor, h.weight_zero ha, zero_div]

theorem Isolated.given_without (ha : a ∉ sybils) :
    given (input.without sybils).scores (input.without sybils).members.toFinset a =
      given input.scores input.members.toFinset a := by
  have hsubset : (input.without sybils).members.toFinset ⊆ input.members.toFinset :=
    fun b hb => List.mem_toFinset.mpr (mem_members_without (List.mem_toFinset.mp hb)).1
  simp only [given]
  rw [← Finset.sum_subset hsubset
    fun b _ hb => h.score_zero ha fun hmem => hb (List.mem_toFinset.mpr hmem)]
  refine Finset.sum_congr rfl fun b hb => ?_
  rw [score, score, get?_scores_without ha (mem_members_without (List.mem_toFinset.mp hb)).2]

/-- The rows of those that are left have no entry elsewhere. -/
theorem Isolated.matrix_zero {b : Peer} (ha : a ∉ sybils)
    (hb : b ∉ (input.without sybils).members) :
    input.matrix a b = 0 := by
  have hanchor : input.anchor b = 0 := by rw [← h.anchor_without, anchor_of_notMem hb]
  rw [matrix, trustMatrix, h.score_zero ha hb, hanchor, zero_div, ite_self]

theorem Isolated.matrix_without {b : Peer} (ha : a ∉ sybils) (hb : b ∉ sybils) :
    (input.without sybils).matrix a b = input.matrix a b := by
  rw [matrix, matrix, trustMatrix, trustMatrix, h.given_without ha, h.anchor_without, score, score,
    get?_scores_without ha hb]

theorem Isolated.anchored (hinput : input.Anchored) : (input.without sybils).Anchored :=
  ⟨h.total_without ▸ hinput.total_pos, hinput.alpha_pos, hinput.alpha_le, hinput.epsilon_pos,
    hinput.maxIter_pos⟩

theorem Isolated.pass_without (hinput : input.Anchored) (str : Peer → String) {u : List Rat}
    (ht : Spread (input.peers str) t) (hu : Spread ((input.without sybils).peers str) u)
    (hsame : valueOf (input.peers str) t = valueOf ((input.without sybils).peers str) u) :
    valueOf (input.peers str) (input.pass str t) =
      valueOf ((input.without sybils).peers str) ((input.without sybils).pass str u) := by
  obtain ⟨hspread, hvalues⟩ := hinput.pass_spec str ht
  obtain ⟨hspread', hvalues'⟩ := (h.anchored hinput).pass_spec str hu
  have hzero : ∀ a, a ∉ (input.without sybils).members → valueOf (input.peers str) t a = 0 :=
    fun a ha => by
      rw [hsame, valueOf_of_notMem hu.length_eq fun hmem => ha (mem_peers.mp hmem)]
  have hanchor : ∀ a, a ∉ (input.without sybils).members → input.anchor a = 0 :=
    fun a ha => by rw [← h.anchor_without, anchor_of_notMem ha]
  funext b
  by_cases hb : b ∈ (input.without sybils).members
  · obtain ⟨hmem, hsybil⟩ := mem_members_without hb
    have hsubset : (input.without sybils).members.toFinset ⊆ input.members.toFinset :=
      fun a ha => List.mem_toFinset.mpr (mem_members_without (List.mem_toFinset.mp ha)).1
    rw [hvalues b hmem, hvalues' b hb, ← hsame]
    refine damped_restrict hsubset ?_ (congrFun h.anchor_without b).symm ?_
    · exact fun a _ ha => hzero a fun hmem => ha (List.mem_toFinset.mpr hmem)
    · intro a ha _
      exact (h.matrix_without (mem_members_without (List.mem_toFinset.mp ha)).2 hsybil).symm
  · rw [valueOf_of_notMem hspread'.length_eq fun hmem => hb (mem_peers.mp hmem)]
    by_cases hmem : b ∈ input.members
    · rw [hvalues b hmem]
      refine damped_zero (S := fun a => a ∉ (input.without sybils).members) hanchor ?_ hzero hb
      intro a _ ha c hc
      exact h.matrix_zero (mem_members_without (not_not.mp ha)).2 hc
    · exact valueOf_of_notMem hspread.length_eq fun hpeer => hmem (mem_peers.mp hpeer)

omit h in
/-- The sum over all peers of a difference that is zero elsewhere. -/
theorem delta_without {str : Peer → String} {t' u u' : List Rat}
    (ht : t.length = (input.peers str).length) (ht' : t'.length = (input.peers str).length)
    (hu : u.length = ((input.without sybils).peers str).length)
    (hu' : u'.length = ((input.without sybils).peers str).length)
    (hsame : valueOf (input.peers str) t = valueOf ((input.without sybils).peers str) u)
    (hsame' : valueOf (input.peers str) t' = valueOf ((input.without sybils).peers str) u') :
    delta t' t = delta u' u := by
  have hsubset : (input.without sybils).members.toFinset ⊆ input.members.toFinset :=
    fun a ha => List.mem_toFinset.mpr (mem_members_without (List.mem_toFinset.mp ha)).1
  rw [delta_eq (input.peers_nodup str) ht' ht,
    delta_eq ((input.without sybils).peers_nodup str) hu' hu, peers_toFinset, peers_toFinset,
    hsame, hsame', distance, distance]
  refine (Finset.sum_subset hsubset fun a _ ha => ?_).symm
  have hout : a ∉ (input.without sybils).peers str := fun hmem =>
    ha (List.mem_toFinset.mpr (mem_peers.mp hmem))
  rw [valueOf_of_notMem hu hout, valueOf_of_notMem hu' hout, sub_self, abs_zero]

theorem Isolated.result_without (hinput : input.Anchored) (str : Peer → String) :
    valueOf (input.peers str) (input.result str).1 =
      valueOf ((input.without sybils).peers str) ((input.without sybils).result str).1 := by
  have hstep : ∀ t u, (Spread (input.peers str) t ∧ Spread ((input.without sybils).peers str) u ∧
        valueOf (input.peers str) t = valueOf ((input.without sybils).peers str) u) →
      (Spread (input.peers str) (input.pass str t) ∧
        Spread ((input.without sybils).peers str) ((input.without sybils).pass str u) ∧
        valueOf (input.peers str) (input.pass str t) =
          valueOf ((input.without sybils).peers str) ((input.without sybils).pass str u)) ∧
      delta (input.pass str t) t = delta ((input.without sybils).pass str u) u := by
    rintro t u ⟨ht, hu, hsame⟩
    have ht' := (hinput.pass_spec str ht).1
    have hu' := ((h.anchored hinput).pass_spec str hu).1
    have hsame' := h.pass_without hinput str ht hu hsame
    exact ⟨⟨ht', hu', hsame'⟩, delta_without ht.length_eq ht'.length_eq hu.length_eq
      hu'.length_eq hsame hsame'⟩
  have hstart : valueOf (input.peers str)
        (normalizePretrust input.pretrusted (input.peers str)) =
      valueOf ((input.without sybils).peers str) (normalizePretrust
        (input.without sybils).pretrusted ((input.without sybils).peers str)) := by
    rw [hinput.valueOf_pretrust, (h.anchored hinput).valueOf_pretrust, h.anchor_without]
  exact (loop_lockstep hstep input.epsilon input.maxIter.toNat
    ⟨hinput.spread str, (h.anchored hinput).spread str, hstart⟩).1.2.2

end Isolated

/-! ### The fixed point -/

section Fixed

variable {input : Input Peer} (h : input.Anchored)

include h

theorem Anchored.fixedPoint_unique {t u : Peer → Rat} (ht : input.FixedPoint t)
    (hu : input.FixedPoint u) : t = u := by
  funext a
  by_cases ha : a ∈ input.members
  · exact fixed_unique h.alpha_pos h.alpha_le (fun b _ => h.matrix_distribution b) ht.1 hu.1
      (List.mem_toFinset.mpr ha)
  · rw [ht.2 a ha, hu.2 a ha]

theorem Anchored.exists_fixedPoint : ∃ t, input.FixedPoint t := by
  obtain ⟨t, hfixed, hzero⟩ := exists_fixed input.anchor h.alpha_pos h.alpha_le
    (U := input.members.toFinset) (fun a _ => h.matrix_distribution a)
  exact ⟨t, hfixed, fun a ha => hzero a fun hmem => ha (List.mem_toFinset.mp hmem)⟩

/-- The last pass of a loop that stopped early was shorter than `epsilon`. -/
theorem Anchored.near_fixedPoint (str : Peer → String) (hstop : (input.result str).2 = true)
    {t : Peer → Rat} (ht : input.FixedPoint t) :
    distance input.members.toFinset (valueOf (input.peers str) (input.result str).1) t ≤
      input.epsilon * (1 - input.alpha) / input.alpha := by
  have hstep : ∀ v, Spread (input.peers str) v → Spread (input.peers str) (input.pass str v) :=
    fun v hv => (h.pass_spec str hv).1
  obtain ⟨u, hu, hlast, hshort⟩ := loop_short hstep (h.spread str) hstop
  obtain ⟨hspread, hvalues⟩ := h.pass_spec str hu
  have hdamped : ∀ v : Peer → Rat,
      distance input.members.toFinset (valueOf (input.peers str) (input.pass str u)) v =
        distance input.members.toFinset (damped input.members.toFinset input.matrix input.anchor
          input.alpha (valueOf (input.peers str) u)) v := fun v =>
    Finset.sum_congr rfl fun a ha => by rw [hvalues a (List.mem_toFinset.mp ha)]
  rw [delta_eq (input.peers_nodup str) hspread.length_eq hu.length_eq, peers_toFinset,
    hdamped] at hshort
  rw [result, hlast, hdamped]
  exact near_fixed h.alpha_pos h.alpha_le (fun a _ => h.matrix_distribution a) ht.1 hshort.le

end Fixed

end Input

/-! ### What a call returns -/

/-- The trust of a peer; one that is not known has none. -/
def Outcome.trustOf (outcome : Outcome Peer) (a : Peer) : Rat := (outcome.trust.get? a).getD 0

/-- What is promised of an outcome. -/
structure Outcome.Sound (outcome : Outcome Peer) (str : Peer → String) (input : Input Peer) :
    Prop where
  known : ∀ a, (outcome.trust.get? a).isSome = true ↔ a ∈ input.members
  nonneg : ∀ a, 0 ≤ outcome.trustOf a
  total : outcome.trust.values.sum = 1
  /-- A cluster that nobody outside rates gets nothing and takes nothing. -/
  isolated : ∀ sybils, input.Isolated sybils → (∀ a ∈ sybils, outcome.trustOf a = 0) ∧
    ∃ rest, eigentrust str (input.without sybils) = .ok rest ∧
      ∀ a ∉ sybils, outcome.trustOf a = rest.trustOf a
  scaled : ∀ rater c, 0 < c → eigentrust str (input.scaled rater c) = .ok outcome
  near : ∃ t, input.FixedPoint t ∧ (∀ u, input.FixedPoint u → u = t) ∧
    (outcome.converged = true → ∑ a ∈ input.members.toFinset, |outcome.trustOf a - t a| ≤
      input.epsilon * (1 - input.alpha) / input.alpha)

/-- **A Sybil cluster cannot make trust.** -/
theorem eigentrust_sound (str : Peer → String) (input : Input Peer) (h : input.Anchored) :
    ∃ outcome, eigentrust str input = .ok outcome ∧ outcome.Sound str input := by
  have hspread := h.result_spread str
  have htrust : ∀ a, Outcome.trustOf
      ⟨input.answer str (input.result str).1, (input.result str).2⟩ a =
        valueOf (input.peers str) (input.result str).1 a :=
    input.getD_answer str hspread.length_eq
  have hdistribution := hspread.distribution (input.peers_nodup str)
  refine ⟨_, h.eigentrust_eq str, ?_⟩
  constructor
  case known =>
    intro a
    rw [input.get?_answer str hspread.length_eq]
    by_cases ha : a ∈ input.members <;> simp [ha]
  case nonneg =>
    intro a
    rw [htrust]
    by_cases ha : a ∈ input.peers str
    · exact hdistribution.nonneg a (List.mem_toFinset.mpr ha)
    · rw [valueOf_of_notMem hspread.length_eq ha]
  case total =>
    have hvalues : (input.answer str (input.result str).1).values = (input.result str).1 :=
      List.map_snd_zip (le_of_eq hspread.length_eq)
    rw [hvalues, hspread.total]
  case isolated =>
    intro sybils hsybils
    have hwithout := hsybils.anchored h
    have hspread' := hwithout.result_spread str
    have hsame := hsybils.result_without h str
    refine ⟨fun a ha => ?_, _, hwithout.eigentrust_eq str, fun a _ => ?_⟩
    · rw [htrust, hsame, valueOf_of_notMem hspread'.length_eq]
      exact fun hmem => (Input.mem_members_without (Input.mem_peers.mp hmem)).2 ha
    · rw [htrust, hsame]
      exact ((input.without sybils).getD_answer str hspread'.length_eq a).symm
  case scaled =>
    intro rater c hc
    have hanswer : (input.scaled rater c).answer str = input.answer str := by
      have hpeers : (input.scaled rater c).peers str = input.peers str := by
        unfold Input.peers
        rw [Input.members_scaled]
      funext t
      simp only [Input.answer, hpeers]
    rw [(h.scaled rater c).eigentrust_eq str, hanswer, h.result_scaled str rater hc]
  case near =>
    obtain ⟨t, ht⟩ := h.exists_fixedPoint
    refine ⟨t, ht, fun u hu => h.fixedPoint_unique hu ht, fun hstop => ?_⟩
    have hnear := h.near_fixedPoint str hstop ht
    rw [Finset.sum_congr rfl fun a _ => by rw [htrust]]
    exact hnear

section Sample

/-- An anchor that rates a friend, and two peers that rate only each other. -/
def sampleInput : Input Nat where
  scores := ((Dict.empty.set (1, 2) 3).set (8, 9) 100).set (9, 8) 100
  pretrusted := Dict.empty.set 1 1
  alpha := 1 / 10
  epsilon := 1 / 1000000
  maxIter := 100
  extraPeers := []

theorem eigentrust_sound_sample : ∃ outcome,
    eigentrust (fun n : Nat => toString n) sampleInput = .ok outcome ∧
      outcome.Sound (fun n => toString n) sampleInput := by
  have htotal : positiveTotal sampleInput.pretrusted = 1 := by
    simp [positiveTotal, sampleInput, Dict.values, Dict.set, Dict.assign, Dict.empty]
  refine eigentrust_sound _ sampleInput ⟨htotal ▸ one_pos, ?_, ?_, ?_, by decide⟩ <;>
    norm_num [sampleInput]

end Sample

end EigenTrust
