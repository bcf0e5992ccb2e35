import Mathlib.Algebra.BigOperators.Group.List.Basic
import Mathlib.Algebra.Order.BigOperators.Group.List
import Mathlib.Algebra.Order.Group.Int
import Mathlib.Data.List.Sort

/-!
# Dictionaries that keep their insertion order

A `Dict` is a list of key-value entries with pairwise distinct keys.
Assigning an existing key replaces its value in place; assigning a new key
appends an entry.  The file gives reading after writing, the keys after
writing, reading after removing and reordering entries, and the accounting
rule `sumBy_set`: assigning a key moves a sum over the values by the new
value's share minus the replaced one's.
-/

universe u v w

/-- A dictionary in insertion order, each key at most once. -/
structure Dict (κ : Type u) (α : Type v) where
  entries : List (κ × α)
  nodup : (entries.map Prod.fst).Nodup

namespace Dict

variable {κ : Type u} {α : Type v} {M : Type w}

/-- The dictionary without entries. -/
def empty : Dict κ α := ⟨[], List.nodup_nil⟩

instance : Inhabited (Dict κ α) := ⟨empty⟩

/-- The keys, in insertion order. -/
def keys (d : Dict κ α) : List κ := d.entries.map Prod.fst

/-- The values, in insertion order. -/
def values (d : Dict κ α) : List α := d.entries.map Prod.snd

/-- The sum of a measure over the values. -/
def sumBy [AddMonoid M] (d : Dict κ α) (f : α → M) : M :=
  (d.entries.map fun e => f e.2).sum

theorem keys_nodup (d : Dict κ α) : d.keys.Nodup := d.nodup

@[simp] theorem sumBy_empty [AddMonoid M] (f : α → M) : (empty : Dict κ α).sumBy f = 0 := rfl

theorem sumBy_add (d : Dict κ α) (f g : α → Int) :
    d.sumBy (fun v => f v + g v) = d.sumBy f + d.sumBy g := by
  simp [sumBy, List.sum_map_add]

variable [DecidableEq κ]

/-- Read the first entry of a key. -/
def lookup (k : κ) : List (κ × α) → Option α
  | [] => none
  | (k', v) :: rest => if k' = k then some v else lookup k rest

/-- Replace the value of a key in place, or append the entry. -/
def assign (k : κ) (v : α) : List (κ × α) → List (κ × α)
  | [] => [(k, v)]
  | (k', v') :: rest =>
      if k' = k then (k', v) :: rest else (k', v') :: assign k v rest

/-- The value stored under a key. -/
def get? (d : Dict κ α) (k : κ) : Option α := lookup k d.entries

theorem map_fst_assign (k : κ) (v : α) (l : List (κ × α)) : (assign k v l).map Prod.fst =
      if k ∈ l.map Prod.fst then l.map Prod.fst else l.map Prod.fst ++ [k] := by
  induction l with
  | nil => simp [assign]
  | cons e rest ih =>
    obtain ⟨k', v'⟩ := e
    by_cases h : k' = k
    · simp [assign, h]
    have h' : ¬ k = k' := fun e => h e.symm
    by_cases hk : k ∈ rest.map Prod.fst
    · simp only [assign, h, if_false, List.map_cons, ih, hk, if_true, List.mem_cons, or_true]
    · simp only [assign, h, if_false, List.map_cons, ih, hk,
        List.mem_cons, h', or_self, List.cons_append]

variable {l : List (κ × α)}

theorem nodup_assign (k : κ) (v : α) (h : (l.map Prod.fst).Nodup) :
    ((assign k v l).map Prod.fst).Nodup := by
  rw [map_fst_assign]
  by_cases hk : k ∈ l.map Prod.fst
  · simpa [hk] using h
  · rw [if_neg hk]
    refine List.nodup_append.mpr ⟨h, List.pairwise_singleton _ k, ?_⟩
    intro a ha b hb hab
    rw [List.mem_singleton] at hb
    exact hk (hb ▸ hab ▸ ha)

/-- Assign a value to a key. -/
def set (d : Dict κ α) (k : κ) (v : α) : Dict κ α :=
  ⟨assign k v d.entries, nodup_assign k v d.nodup⟩

/-! ### Reading after writing -/

@[simp] theorem get?_empty (k : κ) : (empty : Dict κ α).get? k = none := rfl

theorem lookup_assign (k j : κ) (v : α) (l : List (κ × α)) :
    lookup j (assign k v l) = if j = k then some v else lookup j l := by
  induction l with
  | nil =>
    by_cases h : k = j
    · simp [assign, lookup, h]
    · have h' : ¬ j = k := fun e => h e.symm
      simp [assign, lookup, h, h']
  | cons e rest ih =>
    obtain ⟨k', v'⟩ := e
    by_cases h : k' = k <;> by_cases hj : k' = j <;> by_cases hjk : j = k <;>
      simp_all [assign, lookup]

theorem get?_set (d : Dict κ α) (k j : κ) (v : α) :
    (d.set k v).get? j = if j = k then some v else d.get? j :=
  lookup_assign k j v d.entries

@[simp] theorem get?_set_self (d : Dict κ α) (k : κ) (v : α) : (d.set k v).get? k = some v := by
  simp [get?_set]

variable {k : κ}

@[simp] theorem get?_set_ne (d : Dict κ α) {j : κ} (v : α) (h : j ≠ k) :
    (d.set k v).get? j = d.get? j := by
  simp [get?_set, h]

/-- What holds of the entry that is set and of the entries before holds of every entry. -/
theorem forall_get?_set {d : Dict κ α} {v : α} {P : κ → α → Prop} (hset : P k v)
    (hold : ∀ j x, d.get? j = some x → P j x) : ∀ j x, (d.set k v).get? j = some x → P j x := by
  intro j x hget
  rw [get?_set] at hget
  split at hget
  · next hkey =>
    obtain rfl := Option.some.inj hget
    exact hkey ▸ hset
  · exact hold j x hget

theorem lookup_eq_none_iff : lookup k l = none ↔ k ∉ l.map Prod.fst := by
  induction l with
  | nil => simp [lookup]
  | cons e rest ih =>
    obtain ⟨k', v'⟩ := e
    by_cases h : k' = k
    · simp [lookup, h]
    · have h' : ¬ k = k' := fun e => h e.symm
      simp only [lookup, h, if_false, ih, List.map_cons, List.mem_cons, h', false_or]

variable {d : Dict κ α}

theorem get?_eq_none_iff : d.get? k = none ↔ k ∉ d.keys :=
  lookup_eq_none_iff

theorem mem_keys_iff : k ∈ d.keys ↔ ∃ v, d.get? k = some v := by
  rw [← Option.isSome_iff_exists, ← not_iff_not, Option.not_isSome_iff_eq_none, get?_eq_none_iff]

variable {v : α}

theorem mem_keys_of_get? (h : d.get? k = some v) : k ∈ d.keys :=
  mem_keys_iff.mpr ⟨v, h⟩

theorem mem_keys_set {j : κ} : j ∈ (d.set k v).keys ↔ j = k ∨ j ∈ d.keys := by
  rw [mem_keys_iff, mem_keys_iff, get?_set]
  by_cases h : j = k <;> simp [h]

theorem entries_set_of_new (v : α) (h : k ∉ d.keys) :
    (d.set k v).entries = d.entries ++ [(k, v)] := by
  have hk : k ∉ d.entries.map Prod.fst := h
  show assign k v d.entries = d.entries ++ [(k, v)]
  generalize d.entries = entries at hk
  induction entries with
  | nil => rfl
  | cons e rest ih =>
    obtain ⟨k', v'⟩ := e
    simp only [List.map_cons, List.mem_cons, not_or] at hk
    have h' : ¬ k' = k := fun e => hk.1 e.symm
    simp only [assign, h', if_false, ih hk.2, List.cons_append]

theorem mem_of_lookup (h : lookup k l = some v) : (k, v) ∈ l := by
  induction l with
  | nil => cases h
  | cons e rest ih =>
    obtain ⟨k', v'⟩ := e
    by_cases hk : k' = k
    · simp only [lookup, hk, if_true, Option.some.injEq] at h
      simp [hk, h]
    · simp only [lookup, hk, if_false] at h
      exact .tail _ (ih h)

theorem lookup_some_iff (h : (l.map Prod.fst).Nodup) : lookup k l = some v ↔ (k, v) ∈ l := by
  induction l with
  | nil => simp [lookup]
  | cons e rest ih =>
    obtain ⟨k', v'⟩ := e
    rw [List.map_cons, List.nodup_cons] at h
    by_cases hk : k' = k
    · subst hk
      have hnot : (k', v) ∉ rest := fun hmem =>
        h.1 (List.mem_map.mpr ⟨_, hmem, rfl⟩)
      simp only [lookup, if_true, Option.some.injEq, List.mem_cons, Prod.mk.injEq,
        true_and, hnot, or_false]
      exact eq_comm
    · have hk' : ¬ k = k' := fun e => hk e.symm
      simp only [lookup, hk, if_false, ih h.2, List.mem_cons, Prod.mk.injEq, hk',
        false_and, false_or]

/-- Reading a key finds exactly the stored entry. -/
theorem get?_eq_some_iff : d.get? k = some v ↔ (k, v) ∈ d.entries :=
  lookup_some_iff d.nodup

theorem mem_values_iff : v ∈ d.values ↔ ∃ k, d.get? k = some v := by
  simp [values, get?_eq_some_iff]

/-! ### Removing and reordering entries -/

/-- The entries that a test keeps. -/
def filter (d : Dict κ α) (keep : κ → α → Bool) : Dict κ α :=
  ⟨d.entries.filter fun e => keep e.1 e.2,
    d.nodup.sublist (List.filter_sublist.map Prod.fst)⟩

theorem get?_filter (d : Dict κ α) (keep : κ → α → Bool) (k : κ) :
    (d.filter keep).get? k = (d.get? k).filter (keep k) := by
  ext v
  rw [get?_eq_some_iff, Option.filter_eq_some_iff, get?_eq_some_iff]
  exact List.mem_filter

/-- The dictionary with a function applied to its values. -/
def mapValues {β : Type w} (f : α → β) (d : Dict κ α) : Dict κ β :=
  ⟨d.entries.map fun e => (e.1, f e.2), by
    rw [List.map_map]
    exact d.nodup⟩

theorem lookup_map {β : Type w} (f : α → β) (k : κ) (l : List (κ × α)) :
    lookup k (l.map fun e => (e.1, f e.2)) = (lookup k l).map f := by
  induction l with
  | nil => rfl
  | cons e l ih =>
    by_cases h : e.1 = k
    · simp [lookup, h]
    · simp [lookup, h, ih]

@[simp] theorem get?_mapValues {β : Type w} (f : α → β) (d : Dict κ α) (k : κ) :
    (d.mapValues f).get? k = (d.get? k).map f :=
  lookup_map f k d.entries

/-- The dictionary without a key. -/
def erase (d : Dict κ α) (k : κ) : Dict κ α :=
  d.filter fun k' _ => k' ≠ k

theorem get?_erase (d : Dict κ α) (k j : κ) :
    (d.erase k).get? j = if j = k then none else d.get? j := by
  rw [erase, get?_filter]
  by_cases h : j = k
  · cases d.get? j <;> simp [h]
  · cases d.get? j <;> simp [h]

theorem of_get?_erase {d : Dict κ α} {k j : κ} {x : α} (h : (d.erase k).get? j = some x) :
    j ≠ k ∧ d.get? j = some x := by
  rw [get?_erase] at h
  split at h
  · cases h
  · next hne => exact ⟨hne, h⟩

/-- Assign a key and make it the newest one. -/
def setLast (d : Dict κ α) (k : κ) (v : α) : Dict κ α := (d.erase k).set k v

/-- The newest entries, as many as fit. -/
def newest (d : Dict κ α) (capacity : Nat) : Dict κ α :=
  ⟨d.entries.drop (d.entries.length - capacity),
    d.nodup.sublist ((List.drop_sublist _ _).map Prod.fst)⟩

/-! ### Sums over the values -/

/-- **Accounting of an assignment.**  The sum gains the new value's share and
loses that of the value it replaced. -/
theorem sumBy_set [AddCommMonoid M] (d : Dict κ α) (k : κ) (v : α) (f : α → M) :
    (d.set k v).sumBy f + ((d.get? k).map f).getD 0 = d.sumBy f + f v := by
  show ((assign k v d.entries).map fun e => f e.2).sum +
      ((lookup k d.entries).map f).getD 0 =
    (d.entries.map fun e => f e.2).sum + f v
  generalize d.entries = entries
  induction entries with
  | nil => simp [assign, lookup]
  | cons e rest ih =>
    obtain ⟨k', v'⟩ := e
    by_cases h : k' = k
    · simp only [assign, lookup, h, if_true, List.map_cons, List.sum_cons,
        Option.map_some, Option.getD_some]
      rw [add_comm _ (f v'), add_comm (f v), add_assoc]
    · simp only [assign, lookup, h, if_false, List.map_cons, List.sum_cons, add_assoc, ih]

theorem sumBy_set_int (d : Dict κ α) (k : κ) (v : α) (f : α → Int) :
    (d.set k v).sumBy f = d.sumBy f - ((d.get? k).map f).getD 0 + f v := by
  have h := sumBy_set d k v f
  omega

theorem sumBy_set_of_new [AddCommMonoid M] (v : α) (f : α → M) (h : k ∉ d.keys) :
    (d.set k v).sumBy f = d.sumBy f + f v := by
  have hnone : d.get? k = none := get?_eq_none_iff.mpr h
  simpa [hnone] using sumBy_set d k v f

theorem sumBy_congr [AddMonoid M] {f g : α → M} (h : ∀ k v, d.get? k = some v → f v = g v) :
    d.sumBy f = d.sumBy g := by
  unfold sumBy
  congr 1
  refine List.map_congr_left ?_
  rintro ⟨k, v⟩ hmem
  exact h k v (get?_eq_some_iff.mpr hmem)

theorem sumBy_nonneg {f : α → Int} (h : ∀ k v, d.get? k = some v → 0 ≤ f v) : 0 ≤ d.sumBy f := by
  refine List.sum_nonneg ?_
  intro x hx
  obtain ⟨⟨k, v⟩, hmem, rfl⟩ := List.mem_map.mp hx
  exact h k v (get?_eq_some_iff.mpr hmem)

/-- One stored value's share is at most the sum of nonnegative shares. -/
theorem le_sumBy {f : α → Int} (h : ∀ k v, d.get? k = some v → 0 ≤ f v) (hk : d.get? k = some v) :
    f v ≤ d.sumBy f := by
  refine List.single_le_sum ?_ _ ?_
  · intro x hx
    obtain ⟨⟨k, v⟩, hmem, rfl⟩ := List.mem_map.mp hx
    exact h k v (get?_eq_some_iff.mpr hmem)
  · exact List.mem_map.mpr ⟨(k, v), get?_eq_some_iff.mp hk, rfl⟩

end Dict
