import Rynmesh.JsonValue
import Mathlib.Data.String.Basic

/-!
# Parts of JSON documents

A program that lets only listed fields through works with an object's
restriction to these (`restrict`), assigns fields that are there (`assign`) and
drops others (`without`).

* `restrict_idem`, `get?_restrict`, `get?_assign`: a restriction is stable, and
  an assignment is read back;
* `withField_without`: in key order, a field that was taken out is put back;
* `size_without`: the text of an object without a field is no longer.
-/

namespace Json

/-! ### Fields -/

/-- `{key: value[key] for key in names if key in value}`. -/
def restrict (names : List String) : Json → Json
  | .obj fields => .obj (fields.filter fun f => f.1 ∈ names)
  | other => other

/-- `value[k] = v` for a field that is there. -/
def assign (value : Json) (k : String) (v : Json) : Json :=
  match value with
  | .obj fields => .obj (fields.map fun f => if f.1 = k then (k, v) else f)
  | other => other

variable {k : String}

theorem get?_withField_ne (value : Json) {j : String} (v : Json) (h : j ≠ k) :
    (value.withField k v).get? j = value.get? j := by
  cases value with
  | obj fields => simp [withField, get?, lookup_setField, h]
  | _ => rfl

variable {value : Json}

theorem get?_withField_self (h : value.isObj = true) (k : String) (v : Json) :
    (value.withField k v).get? k = some v := by
  cases value with
  | obj fields => simp only [withField, get?, lookup_setField, if_true]
  | _ => cases h

theorem isObj_of_get? {v : Json} (h : value.get? k = some v) : value.isObj = true := by
  cases value with
  | obj fields => rfl
  | _ => cases h

theorem lookup_filter (keep : String → Bool) (k : String) (fields : List (String × Json)) :
    Dict.lookup k (fields.filter fun f => keep f.1) =
      if keep k = true then Dict.lookup k fields else none := by
  induction fields with
  | nil => simp [Dict.lookup]
  | cons f rest ih =>
    obtain ⟨k', v⟩ := f
    by_cases hk : k' = k
    · by_cases hkeep : keep k = true
      · simp [Dict.lookup, hk, hkeep]
      · simp [hk, hkeep, ih]
    · by_cases hkeep : keep k' = true
      · simp [Dict.lookup, hk, hkeep, ih]
      · simp [Dict.lookup, hk, hkeep, ih]

/-- Only the fields that are named are left. -/
theorem get?_restrict (names : List String) (value : Json) (k : String) :
    (value.restrict names).get? k = if k ∈ names then value.get? k else none := by
  cases value with
  | obj fields =>
    have h := lookup_filter (fun key => decide (key ∈ names)) k fields
    simpa [restrict, get?] using h
  | _ => simp [restrict, get?]

theorem restrict_idem (names : List String) (value : Json) :
    (value.restrict names).restrict names = value.restrict names := by
  cases value with
  | obj fields => simp [restrict, List.filter_filter]
  | _ => rfl

theorem isObj_restrict (names : List String) (value : Json) :
    (value.restrict names).isObj = value.isObj := by
  cases value <;> rfl

theorem isObj_assign (k : String) (v value : Json) : (value.assign k v).isObj = value.isObj := by
  cases value <;> rfl

theorem isObj_without (k : String) (value : Json) : (value.without k).isObj = value.isObj := by
  cases value <;> rfl

theorem lookup_map_assign (k j : String) (v : Json) (fields : List (String × Json)) :
    Dict.lookup j (fields.map fun f => if f.1 = k then (k, v) else f) =
      if j = k then (Dict.lookup j fields).map fun _ => v else Dict.lookup j fields := by
  induction fields with
  | nil => simp [Dict.lookup]
  | cons f rest ih =>
    obtain ⟨k', w⟩ := f
    by_cases hk : k' = k
    · by_cases hj : j = k
      · simp [Dict.lookup, hk, hj]
      · simp [Dict.lookup, hk, hj, Ne.symm hj, ih]
    · by_cases hj : k' = j
      · have hne : j ≠ k := hj ▸ hk
        simp [Dict.lookup, hj, hne]
      · simp [Dict.lookup, hk, hj, ih]

/-- An assignment changes a field that is there. -/
theorem get?_assign (k j : String) (v value : Json) : (value.assign k v).get? j =
      if j = k then (value.get? j).map fun _ => v else value.get? j := by
  cases value with
  | obj fields => exact lookup_map_assign k j v fields
  | _ => simp [assign, get?]

theorem restrict_assign {names : List String} (k : String) (v : Json)
    (h : value.restrict names = value) : (value.assign k v).restrict names = value.assign k v := by
  cases value with
  | obj fields =>
    simp only [restrict, obj.injEq, List.filter_eq_self, decide_eq_true_eq] at h
    simp only [restrict, assign, obj.injEq, List.filter_eq_self, decide_eq_true_eq, List.mem_map]
    rintro f ⟨g, hg, heq⟩
    by_cases hk : g.1 = k
    · rw [if_pos hk] at heq
      rw [← heq, ← hk]
      exact h g hg
    · rw [if_neg hk] at heq
      rw [← heq]
      exact h g hg
  | _ => rfl

theorem restrict_without {names : List String} (k : String) (h : value.restrict names = value) :
    (value.without k).restrict names = value.without k := by
  cases value with
  | obj fields =>
    simp only [restrict, obj.injEq, List.filter_eq_self, decide_eq_true_eq] at h
    simp only [restrict, without, obj.injEq, List.filter_eq_self, decide_eq_true_eq,
      List.mem_filter]
    intro f hf
    exact h f hf.1
  | _ => rfl

theorem without_without (k : String) (value : Json) :
    (value.without k).without k = value.without k := by
  cases value with
  | obj fields => simp [without, List.filter_filter]
  | _ => rfl

theorem assign_assign (k : String) (v value : Json) :
    (value.assign k v).assign k v = value.assign k v := by
  cases value with
  | obj fields =>
    simp only [assign, obj.injEq, List.map_map, List.map_inj_left, Function.comp]
    intro f _
    by_cases hk : f.1 = k <;> simp [hk]
  | _ => rfl

theorem assign_comm {j : String} (hne : k ≠ j) (v w value : Json) :
    (value.assign k v).assign j w = (value.assign j w).assign k v := by
  cases value with
  | obj fields =>
    simp only [assign, obj.injEq, List.map_map, List.map_inj_left, Function.comp]
    intro f _
    by_cases hk : f.1 = k
    · have hj : f.1 ≠ j := fun heq => hne (hk.symm.trans heq)
      simp [hk, hne]
    · by_cases hj : f.1 = j
      · simp [hj, Ne.symm hne]
      · simp [hk, hj]
  | _ => rfl

theorem assign_without {j : String} (hne : k ≠ j) (v value : Json) :
    (value.assign k v).without j = (value.without j).assign k v := by
  cases value with
  | obj fields =>
    simp only [assign, without, obj.injEq, List.filter_map]
    congr 1
    apply List.filter_congr
    intro f _
    by_cases hk : f.1 = k
    · have hj : f.1 ≠ j := fun heq => hne (hk.symm.trans heq)
      simp [hk, hne]
    · simp [hk]
  | _ => rfl

section InOrder

/-! ### Fields in key order -/

/-- A dictionary holds its fields in key order, each key once. -/
def InOrder (value : Json) : Prop := value.keys.Pairwise (· < ·)

variable {fields : List (String × Json)} {k : String} {v : Json}

theorem setField_setField (k : String) (v w : Json) (fields : List (String × Json)) :
    setField k w (setField k v fields) = setField k w fields := by
  induction fields with
  | nil => simp [setField]
  | cons f rest ih =>
    obtain ⟨k', v'⟩ := f
    by_cases hlt : k < k'
    · simp [setField, hlt]
    · by_cases heq : k' = k
      · simp [setField, heq]
      · simp [setField, hlt, heq, ih]

theorem filter_setField (k : String) (v : Json) (fields : List (String × Json)) :
    (setField k v fields).filter (·.1 ≠ k) = fields.filter (·.1 ≠ k) := by
  induction fields with
  | nil => simp [setField]
  | cons f rest ih =>
    obtain ⟨k', v'⟩ := f
    by_cases hlt : k < k'
    · simp [setField, hlt]
    · by_cases heq : k' = k
      · simp [setField, heq]
      · simp only [setField, hlt, heq, if_false, List.filter_cons, ih]

theorem mem_setField {f : String × Json} (h : f ∈ setField k v fields) :
    f = (k, v) ∨ f ∈ fields := by
  induction fields with
  | nil => simpa [setField] using h
  | cons g rest ih =>
    unfold setField at h
    split at h
    · simpa using h
    · split at h
      · cases h with
        | head => exact .inl rfl
        | tail _ hmem => exact .inr (.tail _ hmem)
      · cases h with
        | head => exact .inr (.head _)
        | tail _ hmem => exact (ih hmem).imp_right (List.mem_cons_of_mem _)

theorem inOrder_setField (h : (fields.map Prod.fst).Pairwise (· < ·)) :
    ((setField k v fields).map Prod.fst).Pairwise (· < ·) := by
  induction fields with
  | nil => simp [setField]
  | cons f rest ih =>
    obtain ⟨k', v'⟩ := f
    rw [List.map_cons, List.pairwise_cons] at h
    by_cases hlt : k < k'
    · simp only [setField, hlt, if_true, List.map_cons, List.pairwise_cons]
      refine ⟨fun a ha => ?_, h⟩
      cases ha with
      | head => exact hlt
      | tail _ hmem => exact hlt.trans (h.1 a hmem)
    · by_cases heq : k' = k
      · subst heq
        rw [show setField k' v ((k', v') :: rest) = (k', v) :: rest by simp [setField],
          List.map_cons, List.pairwise_cons]
        exact h
      simp only [setField, hlt, heq, if_false, List.map_cons, List.pairwise_cons]
      refine ⟨fun a ha => ?_, ih h.2⟩
      obtain ⟨f, hf, rfl⟩ := List.mem_map.mp ha
      cases mem_setField hf with
      | inl hnew =>
        rw [hnew]
        exact lt_of_le_of_ne (not_lt.mp hlt) heq
      | inr hold => exact h.1 _ (List.mem_map_of_mem hold)

theorem setField_filter (h : (fields.map Prod.fst).Pairwise (· < ·))
    (hget : Dict.lookup k fields = some v) : setField k v (fields.filter (·.1 ≠ k)) = fields := by
  induction fields with
  | nil => cases hget
  | cons f rest ih =>
    obtain ⟨k', v'⟩ := f
    rw [List.map_cons, List.pairwise_cons] at h
    by_cases heq : k' = k
    · simp only [Dict.lookup, heq, if_true, Option.some.injEq] at hget
      have hrest : rest.filter (·.1 ≠ k) = rest := List.filter_eq_self.mpr fun g hg => by
        have := h.1 g.1 (List.mem_map_of_mem hg)
        simp [← heq, this.ne']
      rw [List.filter_cons_of_neg (by simp [heq]), hrest, hget, heq]
      cases rest with
      | nil => rfl
      | cons g others =>
        have hlt : k < g.1 := heq ▸ h.1 g.1 (.head _)
        simp [setField, hlt]
    · simp only [Dict.lookup, heq, if_false] at hget
      have hlt : k' < k := h.1 k (List.mem_map.mpr ⟨_, Dict.mem_of_lookup hget, rfl⟩)
      rw [List.filter_cons_of_pos (by simp [heq])]
      simp only [setField, hlt.not_gt, heq, if_false, ih h.2 hget]

/-- Setting a field to what it is does nothing. -/
theorem setField_self (h : (fields.map Prod.fst).Pairwise (· < ·))
    (hget : Dict.lookup k fields = some v) : setField k v fields = fields := by
  conv_rhs => rw [← setField_filter h hget]
  rw [← filter_setField k v fields, setField_filter (inOrder_setField h)
    (by rw [lookup_setField, if_pos rfl])]

theorem withField_withField (value : Json) (k : String) (v w : Json) :
    (value.withField k v).withField k w = value.withField k w := by
  cases value with
  | obj fields => simp only [withField, setField_setField]
  | _ => rfl

/-- A field removed and set again. -/
theorem withField_without (h : value.InOrder) (hget : value.get? k = some v) :
    (value.without k).withField k v = value := by
  cases value with
  | obj fields => exact congrArg obj (setField_filter h hget)
  | _ => cases hget

theorem withField_self (h : value.InOrder) (hget : value.get? k = some v) :
    value.withField k v = value := by
  cases value with
  | obj fields => exact congrArg obj (setField_self h hget)
  | _ => cases hget

/-- A new field keeps the order of keys. -/
theorem InOrder.withField (h : value.InOrder) (k : String) (v : Json) :
    (value.withField k v).InOrder := by
  cases value with
  | obj fields => exact inOrder_setField h
  | _ => exact h

end InOrder

/-! ### Text -/

mutual

/-- No number in it is infinite or none, as `allow_nan=False` asks. -/
def finite : Json → Bool
  | .float value _ => value.isSome
  | .arr items => finiteItems items
  | .obj fields => finiteFields fields
  | .null | .bool _ | .int _ | .str _ => true
termination_by structural value => value

def finiteItems : List Json → Bool
  | [] => true
  | item :: rest => finite item && finiteItems rest
termination_by structural items => items

def finiteFields : List (String × Json) → Bool
  | [] => true
  | field :: rest => finiteField field && finiteFields rest
termination_by structural fields => fields

def finiteField : String × Json → Bool
  | (_, v) => finite v
termination_by structural field => field

end

theorem sizeFields_filter (keep : String × Json → Bool) (fields : List (String × Json)) :
    sizeFields (fields.filter keep) + (fields.filter keep).length ≤
      sizeFields fields + fields.length := by
  induction fields with
  | nil => exact le_refl _
  | cons f rest ih =>
    by_cases hkeep : keep f = true
    · rw [List.filter_cons_of_pos hkeep]
      simp only [sizeFields, List.length_cons]
      omega
    · rw [List.filter_cons_of_neg hkeep]
      simp only [sizeFields, List.length_cons]
      omega

/-- An object does not grow when a field goes. -/
theorem size_without (k : String) (value : Json) : (value.without k).size ≤ value.size := by
  cases value with
  | obj fields =>
    have hfields := sizeFields_filter (fun f => decide (f.1 ≠ k)) fields
    have hlength := List.length_filter_le (fun f => decide (f.1 ≠ k)) fields
    cases hcase : (fields.filter fun f => decide (f.1 ≠ k)) with
    | nil =>
      simp only [without, size, hcase, sizeFields, List.length_nil]
      omega
    | cons f rest =>
      rw [hcase] at hfields hlength
      simp only [without, size, hcase]
      simp only [List.length_cons] at hfields hlength ⊢
      omega
  | _ => exact le_refl _

theorem finiteItems_iff {items : List Json} :
    finiteItems items = true ↔ ∀ item ∈ items, item.finite = true := by
  induction items with
  | nil => simp [finiteItems]
  | cons item rest ih => simp [finiteItems, ih]

theorem finiteFields_iff {fields : List (String × Json)} :
    finiteFields fields = true ↔ ∀ f ∈ fields, f.2.finite = true := by
  induction fields with
  | nil => simp [finiteFields]
  | cons f rest ih =>
    obtain ⟨k, v⟩ := f
    simp [finiteFields, finiteField, ih]

theorem finite_get? {v : Json} (h : value.finite = true) (hget : value.get? k = some v) :
    v.finite = true := by
  cases value with
  | obj fields =>
    have hmem := Dict.mem_of_lookup hget
    exact finiteFields_iff.mp h _ hmem
  | _ => simp [get?] at hget

theorem finite_without (k : String) (h : value.finite = true) :
    (value.without k).finite = true := by
  cases value with
  | obj fields =>
    simp only [without, finite, finiteFields_iff] at h ⊢
    intro f hf
    exact h f (List.mem_of_mem_filter hf)
  | _ => exact h

theorem finite_assign {v : Json} (k : String) (h : value.finite = true) (hv : v.finite = true) :
    (value.assign k v).finite = true := by
  cases value with
  | obj fields =>
    simp only [assign, finite, finiteFields_iff, List.mem_map] at h ⊢
    rintro f ⟨g, hg, heq⟩
    by_cases hk : g.1 = k
    · rw [if_pos hk] at heq
      rw [← heq]
      exact hv
    · rw [if_neg hk] at heq
      rw [← heq]
      exact h g hg
  | _ => exact h

end Json
