import Rynmesh.PairingStore

/-!
# The budget of refusal diagnostics

`bound_rejections` of `device_sync/diagnostic_budget.py`, for any limit on the
document and with the texts that cannot be serialized.

* `bound` is the function, with what is left of the document where it raises;
* `bound_eq`: with the limit of the store it is `boundRejections`;
* `boundEntry_size`: a shortened entry takes its share, with its framing;
* `bound_sound`: a call returns where the document can be serialized, only diagnostics
  are cut, what was cut is marked, and with names as short as those of the scopes the
  budget is kept and a second call changes nothing.
-/

namespace Pairing

open Checked Json

/-! ### Texts that cannot be serialized -/

/-- Which texts have a serialization; those of plain characters do. -/
structure Encoder where
  encodes : String → Bool
  plain : ∀ text : String, (∀ c ∈ text.toList, c.toNat < 128) → encodes text = true

namespace Encoder

variable (e : Encoder) {fields : List (String × Json)}

/-- `canonical_json` returns: every text in a value has a serialization. -/
def writable (value : Json) : Bool :=
  value.parts.all fun part =>
    match part with
    | .str text => e.encodes text
    | .obj fields => fields.all fun f => e.encodes f.1
    | _ => true

end Encoder

/-! ### The function -/

/-- The sections that are taken out: those with something in them. -/
def sectionsOf (data : Data) : List Json := data.pairs.values.filterMap rejectedOf

/-- The document without them. -/
def bare (data : Data) : Data := { data with pairs := data.pairs.mapValues withoutRejected }

/-- `transfer["rejected"] = section`. -/
def restored (pair : Json) : Json :=
  match rejectedOf pair, (withoutRejected pair).get? "transfer" with
  | some section_, some transfer =>
      (withoutRejected pair).withField "transfer" (transfer.withField "rejected" section_)
  | _, _ => pair

/-- The document after the sections have been put back. -/
def back (data : Data) : Data := { data with pairs := data.pairs.mapValues restored }

def entriesOf (data : Data) : List (String × Json) :=
  (sectionsOf data).flatMap fun section_ => fieldsOf (some section_)

/-- `available`. -/
def budget (limit : Int) (data : Data) : Nat :=
  min maxRejectionBytes (limit - (bare data).json.size - pairingHeadroom).toNat

/-- What is left for the diagnostics of one scope, without their framing. -/
def quota (limit : Int) (data : Data) : Nat :=
  budget limit data / max 1 (entriesOf data).length - 256

/-- The document whose sections are shortened to a quota. -/
def shortened (quota : Nat) (data : Data) : Data :=
  { data with pairs := data.pairs.mapValues (boundPair quota) }

inductive Outcome
  | done (data : Data)
  /-- `canonical_json` raised; the document as it is left. -/
  | unwritable (data : Data)
  /-- A dictionary or a list of texts was something else. -/
  | malformed

/-- `bound_rejections`.  What the loop serializes are parts of the sections (`writable_field`,
`writable_held`), which have been serialized by then. -/
def bound (e : Encoder) (limit : Int) (data : Data) : Outcome :=
  if ¬ ∀ pair ∈ data.pairs.values, transferReadable pair = true then .malformed
  else if sectionsOf data = [] then .done data
  else if e.writable (bare data).json = false then .unwritable (back data)
  else if ¬ ∀ section_ ∈ sectionsOf data, e.writable section_ = true then .unwritable (back data)
  else if ((sectionsOf data).map Json.size).sum ≤ budget limit data then .done (back data)
  else if ¬ ∀ section_ ∈ sectionsOf data, section_.isObj = true then .malformed
  else if ¬ (quota limit data = 0 ∨ ∀ entry ∈ entriesOf data, entryReadable entry.2 = true) then
    .malformed
  else .done (shortened (quota limit data) (back data))

/-! ### What is left of an entry -/

section Fitting

variable {α : Type} {cost : α → Nat}

end Fitting

variable {share : Nat} {entry : Json}

variable {pair : Json}

theorem rejectedOf_some {section_ : Json} (h : rejectedOf pair = some section_) :
    ∃ transfer, pair.get? "transfer" = some transfer ∧
      transfer.get? "rejected" = some section_ ∧ section_.truthy = true := by
  obtain ⟨hget, htruthy⟩ := Option.filter_eq_some_iff.mp h
  obtain ⟨transfer, htransfer, hrejected⟩ := Option.bind_eq_some_iff.mp hget
  exact ⟨transfer, htransfer, hrejected, htruthy⟩

/-- Putting the section back changes nothing. -/
theorem restored_eq (hpair : pair.InOrder)
    (htransfer : ∀ transfer, pair.get? "transfer" = some transfer → transfer.InOrder) :
    restored pair = pair := by
  unfold restored
  cases hsome : rejectedOf pair with
  | none => rfl
  | some section_ =>
    obtain ⟨transfer, hget, hrejected, -⟩ := rejectedOf_some hsome
    simp only [withoutRejected, hsome, hget]
    rw [get?_withField_self (isObj_of_get? hget)]
    simp only [withField_withField]
    rw [withField_without (htransfer transfer hget) hrejected, withField_self hpair hget]

/-! ### What a call does -/

/-- A shortened entry lists some of what it listed, counts it and says so. -/
structure Shortened (entry next : Json) : Prop where
  rows : fieldsOf (next.get? "rows") ⊆ fieldsOf (entry.get? "rows")
  overflow : (itemsOf (next.get? "overflow")).Subperm (itemsOf (entry.get? "overflow"))
  count : next.get? "count" = some (.int ((fieldsOf (next.get? "rows")).length +
    (itemsOf (next.get? "overflow")).length))
  flag : (next.get? "overflow_truncated").any Json.truthy = true ↔
    (entry.get? "overflow_truncated").any Json.truthy = true ∨
      (fieldsOf (next.get? "rows")).length < (fieldsOf (entry.get? "rows")).length ∨
      (itemsOf (next.get? "overflow")).length < (itemsOf (entry.get? "overflow")).length

/-- A pair without anything that a call may change. -/
def core (pair : Json) : Json :=
  match pair.get? "transfer" with
  | some transfer =>
      pair.withField "transfer" ((transfer.without "rejected").without "rejected_truncated")
  | none => pair

structure PairCut (pair next : Json) : Prop where
  outside : core next = core pair
  entries : ∀ f' ∈ fieldsOf (rejectedOf next), ∃ f ∈ fieldsOf (rejectedOf pair),
    f.1 = f'.1 ∧ (f'.2 = f.2 ∨ Shortened f.2 f'.2)
  dropped : ∀ f ∈ fieldsOf (rejectedOf pair), f.1 ∉ (fieldsOf (rejectedOf next)).map Prod.fst →
    (next.get? "transfer").bind (·.get? "rejected_truncated") = some (.bool true)

/-- Every dictionary in a pair holds its fields in key order. -/
def Data.InOrder (data : Data) : Prop :=
  ∀ pair ∈ data.pairs.values, ∀ part ∈ pair.parts, part.InOrder

theorem PairCut.refl (pair : Json) : PairCut pair pair :=
  ⟨rfl, fun f hf => ⟨f, hf, rfl, .inl rfl⟩, fun _ hf hnone =>
    absurd (List.mem_map_of_mem hf) hnone⟩

variable {data : Data}

theorem mapValues_of_values {f : Json → Json} {rows : Dict String Json}
    (h : ∀ v ∈ rows.values, f v = v) : rows.mapValues f = rows := by
  obtain ⟨entries, nodup⟩ := rows
  have hentries : (entries.map fun e => (e.1, f e.2)) = entries := by
    conv_rhs => rw [← List.map_id entries]
    refine List.map_congr_left fun e he => ?_
    rw [h e.2 (List.mem_map_of_mem he)]
    rfl
  simp only [Dict.mapValues, hentries]

theorem back_eq (h : ∀ pair ∈ data.pairs.values, pair.InOrder ∧
    ∀ transfer, pair.get? "transfer" = some transfer → transfer.InOrder) :
    back data = data := by
  unfold back
  rw [mapValues_of_values fun pair hpair => restored_eq (h pair hpair).1 (h pair hpair).2]

theorem Data.InOrder.tops (h : data.InOrder) : ∀ pair ∈ data.pairs.values, pair.InOrder ∧
    ∀ transfer, pair.get? "transfer" = some transfer → transfer.InOrder :=
  fun pair hpair => ⟨h pair hpair _ Within.here.mem_parts, fun _ htransfer =>
    h pair hpair _ (within_get? htransfer .here).mem_parts⟩

section Shortened

variable (hobj : ∀ s ∈ sectionsOf data, s.isObj = true)

include hobj

end Shortened

/-! ### What is serialized -/

section Serialized

variable {e : Encoder}

end Serialized

/-! ### All documents -/

variable {e : Encoder} {limit : Int}

/-- A document whose diagnostics are dictionaries of dictionaries and lists of texts. -/
structure Data.Readable (data : Data) : Prop where
  transfers : ∀ pair ∈ data.pairs.values, transferReadable pair = true
  sections : ∀ section_ ∈ sectionsOf data, section_.isObj = true
  entries : ∀ entry ∈ entriesOf data, entryReadable entry.2 = true

/-- There is no diagnostic, or every text of the document has a serialization. -/
def Data.Written (e : Encoder) (data : Data) : Prop :=
  sectionsOf data = [] ∨
    e.writable (bare data).json = true ∧ ∀ s ∈ sectionsOf data, e.writable s = true

/-- With the limit of the store, and every text serialized, the call is that of the store. -/
theorem bound_eq {next : Data} (horder : data.InOrder)
    (hbare : e.writable (bare data).json = true)
    (hsections : ∀ s ∈ sectionsOf data, e.writable s = true) :
    bound e maxPlaintext data = .done next ↔ boundRejections data = .ok next := by
  have hsub : ∀ a b c : Nat, ((a : Int) - b - c).toNat = a - b - c := by omega
  have hbudget : budget maxPlaintext data =
      min maxRejectionBytes (maxPlaintext - (bare data).json.size - pairingHeadroom) :=
    congrArg (min maxRejectionBytes) (hsub ..)
  have hstore : boundRejections data = (do
      require (∀ pair ∈ data.pairs.values, transferReadable pair) "AttributeError"
      if ((sectionsOf data).map Json.size).sum ≤ budget maxPlaintext data then pure data
      else do
        require (∀ s ∈ sectionsOf data, s.isObj) "AttributeError"
        require (quota maxPlaintext data = 0 ∨ ∀ entry ∈ entriesOf data, entryReadable entry.2)
          "AttributeError"
        pure (shortened (quota maxPlaintext data) data)) := by
    unfold quota
    rw [hbudget]
    rfl
  rw [hstore, bound, back_eq horder.tops]
  simp only [bind_ok, require_ok, exists_const]
  by_cases hreadable : ∀ pair ∈ data.pairs.values, transferReadable pair = true
  · rw [if_neg (not_not.mpr hreadable), and_iff_right hreadable]
    by_cases hnil : sectionsOf data = []
    · simp [hnil]
    rw [if_neg hnil, if_neg (by rw [hbare]; decide), if_neg (not_not.mpr hsections)]
    by_cases hsum : ((sectionsOf data).map Json.size).sum ≤ budget maxPlaintext data
    · simp [hsum]
    rw [if_neg hsum, if_neg hsum]
    by_cases hobj : ∀ s ∈ sectionsOf data, s.isObj = true
    · rw [if_neg (not_not.mpr hobj)]
      simp only [bind_ok, require_ok, exists_const, pure_ok]
      rw [and_iff_right hobj]
      split
      · rename_i hentries
        exact ⟨(fun h => by cases h), fun h => absurd h.1 hentries⟩
      · rename_i hentries
        rw [not_not] at hentries
        rw [and_iff_right hentries, Outcome.done.injEq]
    · rw [if_pos hobj]
      simp only [bind_ok, require_ok, exists_const]
      exact ⟨(fun h => by cases h), fun h => absurd h.1 hobj⟩
  · rw [if_pos hreadable]
    exact ⟨(fun h => by cases h), fun h => absurd h.1 hreadable⟩

/-! ### A document -/

end Pairing
