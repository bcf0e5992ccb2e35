import Rynmesh.CheckedComputation
import Rynmesh.InsertionDict

/-!
# Folds that may fail

A loop that updates one entry of a dictionary at a time runs, for each key, the loop over
the items of that key (`foldKeyed_ok_iff`, `foldKeyed_get?`).  A loop whose steps succeed
on conditions of their own succeeds where all of these hold (`foldlM_ok_iff`).
-/

namespace Checked

universe u

variable {ε α β σ κ : Type u}

theorem foldlM_keeps {f : σ → β → Except ε σ} {P : σ → Prop} {items : List β}
    (hstep : ∀ s item s', item ∈ items → P s → f s item = .ok s' → P s') {s s' : σ} (h : P s)
    (hfold : items.foldlM f s = .ok s') : P s' := by
  induction items generalizing s with
  | nil =>
    simp only [List.foldlM_nil, pure_ok] at hfold
    rw [← hfold]
    exact h
  | cons item rest ih =>
    simp only [List.foldlM_cons, bind_ok] at hfold
    obtain ⟨next, hnext, hrest⟩ := hfold
    refine ih ?_ (hstep s item next (.head _) h hnext) hrest
    intro s item s' hmem
    exact hstep s item s' (.tail _ hmem)

/-- A loop under an invariant, which each step decides by a condition on its item. -/
theorem foldlM_ok_iff {f : σ → β → Except ε σ} {P : β → Prop} (inv : List β → σ → Prop)
    (hstep : ∀ s item rest, inv (item :: rest) s → ((∃ s', f s item = .ok s') ↔ P item))
    (hkeep : ∀ s item rest s', inv (item :: rest) s → f s item = .ok s' → inv rest s')
    {items : List β} {s : σ} (h : inv items s) :
    (∃ s', items.foldlM f s = .ok s') ↔ ∀ item ∈ items, P item := by
  induction items generalizing s with
  | nil => simp [pure_ok]
  | cons item rest ih =>
    rw [List.forall_mem_cons, ← hstep s item rest h]
    simp only [List.foldlM_cons, bind_ok]
    constructor
    · rintro ⟨s', next, hnext, hrest⟩
      exact ⟨⟨next, hnext⟩, (ih (hkeep _ _ _ _ h hnext)).mp ⟨s', hrest⟩⟩
    · rintro ⟨⟨next, hnext⟩, hrest⟩
      obtain ⟨s', hs'⟩ := (ih (hkeep _ _ _ _ h hnext)).mpr hrest
      exact ⟨s', next, hnext, hs'⟩

/-! ### One entry at a time -/

variable [DecidableEq κ] (key : β → κ) (f : Option α → β → Except ε α)

/-- A step on the entry of the item's key. -/
def stepKeyed (d : Dict κ α) (item : β) : Except ε (Dict κ α) := do
  let a ← f (d.get? (key item)) item
  return d.set (key item) a

/-- A step on one entry. -/
def stepEntry (entry : Option α) (item : β) : Except ε (Option α) := some <$> f entry item

variable {key f}

theorem stepKeyed_ok {d d' : Dict κ α} {item : β} : stepKeyed key f d item = .ok d' ↔
    ∃ a, f (d.get? (key item)) item = .ok a ∧ d' = d.set (key item) a := by
  unfold stepKeyed
  simp only [bind_ok, pure_ok]
  exact exists_congr fun a => and_congr Iff.rfl eq_comm

theorem stepEntry_ok {entry entry' : Option α} {item : β} : stepEntry f entry item = .ok entry' ↔
    ∃ a, f entry item = .ok a ∧ entry' = some a := by
  unfold stepEntry
  rw [map_ok]
  exact exists_congr fun a => and_congr Iff.rfl eq_comm

theorem foldKeyed_get? {items : List β} {d d' : Dict κ α}
    (h : items.foldlM (stepKeyed key f) d = .ok d') (k : κ) :
    (items.filter fun item => key item = k).foldlM (stepEntry f) (d.get? k) =
      .ok (d'.get? k) := by
  induction items generalizing d with
  | nil =>
    simp only [List.foldlM_nil, pure_ok] at h
    rw [h]
    rfl
  | cons item rest ih =>
    simp only [List.foldlM_cons, bind_ok] at h
    obtain ⟨next, hnext, hrest⟩ := h
    obtain ⟨a, ha, hset⟩ := stepKeyed_ok.mp hnext
    have htail := ih hrest
    rw [hset, Dict.get?_set] at htail
    by_cases hk : key item = k
    · rw [List.filter_cons_of_pos (by simpa using hk), List.foldlM_cons, bind_ok]
      refine ⟨some a, stepEntry_ok.mpr ⟨a, hk ▸ ha, rfl⟩, ?_⟩
      rw [if_pos hk.symm] at htail
      exact htail
    · rw [List.filter_cons_of_neg (by simpa using hk)]
      rw [if_neg (Ne.symm hk)] at htail
      exact htail

theorem foldKeyed_ok_iff {items : List β} {d : Dict κ α} :
    (∃ d', items.foldlM (stepKeyed key f) d = .ok d') ↔
      ∀ k, ∃ entry, (items.filter fun item => key item = k).foldlM (stepEntry f) (d.get? k) =
        .ok entry := by
  constructor
  · intro h k
    obtain ⟨d', h⟩ := h
    exact ⟨_, foldKeyed_get? h k⟩
  · intro h
    induction items generalizing d with
    | nil => exact ⟨d, rfl⟩
    | cons item rest ih =>
      obtain ⟨entry, hentry⟩ := h (key item)
      rw [List.filter_cons_of_pos (by simp), List.foldlM_cons, bind_ok] at hentry
      obtain ⟨first, hfirst, hrest⟩ := hentry
      obtain ⟨a, ha, heq⟩ := stepEntry_ok.mp hfirst
      have htail : ∃ d', rest.foldlM (stepKeyed key f) (d.set (key item) a) = .ok d' := by
        refine ih fun k => ?_
        rw [Dict.get?_set]
        by_cases hk : k = key item
        · rw [if_pos hk, hk, ← heq]
          exact ⟨entry, hrest⟩
        · rw [if_neg hk]
          obtain ⟨other, hother⟩ := h k
          rw [List.filter_cons_of_neg (by simpa using Ne.symm hk)] at hother
          exact ⟨other, hother⟩
      obtain ⟨d', hd'⟩ := htail
      refine ⟨d', ?_⟩
      rw [List.foldlM_cons, bind_ok]
      exact ⟨_, stepKeyed_ok.mpr ⟨a, ha, rfl⟩, hd'⟩

theorem foldKeyed_mem_keys {items : List β} {d d' : Dict κ α}
    (h : items.foldlM (stepKeyed key f) d = .ok d') (k : κ) :
    k ∈ d'.keys ↔ k ∈ d.keys ∨ k ∈ items.map key := by
  induction items generalizing d with
  | nil =>
    simp only [List.foldlM_nil, pure_ok] at h
    simp [h]
  | cons item rest ih =>
    simp only [List.foldlM_cons, bind_ok] at h
    obtain ⟨next, hnext, hrest⟩ := h
    obtain ⟨a, _, hset⟩ := stepKeyed_ok.mp hnext
    rw [ih hrest, hset, Dict.mem_keys_set, List.map_cons, List.mem_cons, or_comm (a := k = _),
      or_assoc]

theorem values_filter (key : β → κ) {d : Dict κ β} (h : ∀ k v, d.get? k = some v → k = key v)
    (k : κ) :
    (d.values.filter fun v => key v = k) = (d.get? k).toList := by
  have hall : ∀ entry ∈ d.entries, entry.1 = key entry.2 :=
    fun entry hmem => h _ _ (Dict.get?_eq_some_iff.mpr hmem)
  have hnodup := d.nodup
  unfold Dict.values Dict.get?
  generalize d.entries = entries at hall hnodup
  induction entries with
  | nil => rfl
  | cons entry rest ih =>
    obtain ⟨k', v⟩ := entry
    have hkey : k' = key v := hall _ (.head _)
    rw [List.map_cons, List.nodup_cons] at hnodup
    have htail := ih (fun e he => hall e (.tail _ he)) hnodup.2
    rw [List.map_cons, Dict.lookup]
    by_cases hk : k' = k
    · have hnone : Dict.lookup k rest = none :=
        Dict.lookup_eq_none_iff.mpr (by rw [← hk]; exact hnodup.1)
      rw [List.filter_cons_of_pos (by simpa [← hkey] using hk), htail, hnone, if_pos hk]
      rfl
    · rw [List.filter_cons_of_neg (by simpa [← hkey] using hk), htail, if_neg hk]

theorem entries_filter (d : Dict κ β) (k : κ) :
    (d.entries.filter fun entry => entry.1 = k) = (d.get? k).toList.map fun v => (k, v) := by
  have hnodup := d.nodup
  unfold Dict.get?
  generalize d.entries = entries at hnodup
  induction entries with
  | nil => rfl
  | cons entry rest ih =>
    obtain ⟨k', v⟩ := entry
    rw [List.map_cons, List.nodup_cons] at hnodup
    rw [Dict.lookup]
    by_cases hk : k' = k
    · have hnone : Dict.lookup k rest = none :=
        Dict.lookup_eq_none_iff.mpr (by rw [← hk]; exact hnodup.1)
      rw [List.filter_cons_of_pos (by simpa using hk), ih hnodup.2, hnone, if_pos hk, hk]
      rfl
    · rw [List.filter_cons_of_neg (by simpa using hk), ih hnodup.2, if_neg hk]

end Checked
