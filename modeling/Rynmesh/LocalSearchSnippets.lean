import Rynmesh.LocalSearchExact
import Rynmesh.KeyedFold
import Mathlib.Data.List.TakeWhile

/-!
# The highlights of a snippet

* `FirstAt`: where a term occurs first in a text;
* `Run`: the smallest run of characters whose case folding covers some offsets;
* `places_run`: a place is such a run, whichever way it was found;
* `snippet_true`: a snippet is a short slice of its text, with true highlights.

Case folding may make several characters of one, and it makes none of none.
-/

namespace LocalSearch

open Checked

variable {p : Platform}

/-! ### Offsets -/

/-- The offset in the case-folded text at which the folding of a character starts. -/
def Platform.offset (p : Platform) (text : Text) (index : Nat) : Nat :=
  (p.casefold (text.take index)).length

/-- A term starts at an offset, and at none before it. -/
structure FirstAt (term folded : Text) (start : Nat) : Prop where
  here : term <+: folded.drop start
  first : ∀ i < start, ¬ term <+: folded.drop i

/-- The characters from `first` to `last`, case-folded, reach from `start` to `stop`. -/
def Platform.Covers (p : Platform) (text : Text) (start stop first last : Nat) : Prop :=
  p.offset text first ≤ start ∧ stop ≤ p.offset text last

/-- The smallest run of characters that covers some offsets. -/
structure Run (p : Platform) (text : Text) (start stop first last : Nat) : Prop where
  inside : first < last ∧ last ≤ text.length
  covers : p.Covers text start stop first last
  smallest : ∀ a b, p.Covers text start stop a b → a ≤ first ∧ last ≤ b

section Offsets

variable {text : Text} {i j : Nat}

@[simp] theorem casefold_append (a b : Text) : p.casefold (a ++ b) = p.casefold a ++ p.casefold b :=
  List.flatMap_append

@[simp] theorem casefold_cons (c : Char) (rest : Text) :
    p.casefold (c :: rest) = p.foldChar c ++ p.casefold rest :=
  rfl

@[simp] theorem offset_zero : p.offset text 0 = 0 :=
  rfl

@[simp] theorem offset_cons (c : Char) (rest : Text) (i : Nat) :
    p.offset (c :: rest) (i + 1) = (p.foldChar c).length + p.offset rest i := by
  simp [Platform.offset]

theorem offset_mono (h : i ≤ j) : p.offset text i ≤ p.offset text j := by
  obtain ⟨rest, hrest⟩ := List.take_prefix_take_left (l := text) h
  unfold Platform.offset
  rw [← hrest, casefold_append, List.length_append]
  exact Nat.le_add_right _ _

theorem length_le_casefold (hfold : ∀ c, p.foldChar c ≠ []) (text : Text) :
    text.length ≤ (p.casefold text).length := by
  induction text with
  | nil => exact Nat.le_refl 0
  | cons c rest ih =>
    have hc : 0 < (p.foldChar c).length := List.length_pos_iff.mpr (hfold c)
    rw [casefold_cons, List.length_append, List.length_cons]
    omega

theorem offset_self (hfold : ∀ c, p.foldChar c ≠ [])
    (hlength : (p.casefold text).length = text.length) (hi : i ≤ text.length) :
    p.offset text i = i := by
  have hbefore := length_le_casefold hfold (text.take i)
  have hafter := length_le_casefold hfold (text.drop i)
  have hall : (p.casefold (text.take i)).length + (p.casefold (text.drop i)).length =
      text.length := by
    rw [← List.length_append, ← casefold_append, List.take_append_drop, hlength]
  rw [List.length_take] at hbefore
  rw [List.length_drop] at hafter
  unfold Platform.offset
  omega

theorem run_of_characters {start stop : Nat} (hfirst : p.offset text i ≤ start)
    (hstart : start < p.offset text (i + 1)) (hlast : p.offset text j < stop)
    (hstop : stop ≤ p.offset text (j + 1)) (hj : j < text.length) (hlt : start < stop) :
    Run p text start stop i (j + 1) := by
  refine ⟨⟨?_, hj⟩, ⟨hfirst, hstop⟩, fun a b hab => ⟨?_, ?_⟩⟩
  · by_contra hle
    have hback : p.offset text (j + 1) ≤ p.offset text i := offset_mono (Nat.le_of_not_lt hle)
    omega
  · by_contra hle
    have hafter : p.offset text (i + 1) ≤ p.offset text a := offset_mono (Nat.lt_of_not_le hle)
    have := hab.1
    omega
  · by_contra hle
    have hbefore : p.offset text b ≤ p.offset text j :=
      offset_mono (Nat.le_of_lt_succ (Nat.lt_of_not_le hle))
    have := hab.2
    omega

end Offsets

/-! ### Places -/

variable {text : Text}

theorem find_first {term : Text} {start : Nat} (h : find term text = some start) :
    FirstAt term text start := by
  rw [find, List.find?_range_eq_some] at h
  exact ⟨List.isPrefixOf_iff_prefix.mp h.1, fun i hi hprefix => by
    have := h.2.2 i hi
    rw [List.isPrefixOf_iff_prefix.mpr hprefix] at this
    cases this⟩

theorem find_isSome {term : Text} (h : term <:+: text) : (find term text).isSome := by
  obtain ⟨before, after, rfl⟩ := h
  rw [find, List.find?_isSome]
  refine ⟨before.length, ?_, ?_⟩
  · simp only [List.mem_range, List.length_append]
    omega
  · rw [List.append_assoc, List.drop_left]
    exact List.isPrefixOf_iff_prefix.mpr (List.prefix_append _ _)

theorem locate_inside (text : Text) :
    ∀ {pending : List Nat} {offset index point place : Nat}, pending.Pairwise (· ≤ ·) →
      (∀ x ∈ pending, offset ≤ x) → (point, place) ∈ locate p pending text offset index →
      ∃ i < text.length, place = index + i ∧ offset + p.offset text i ≤ point ∧
        point < offset + p.offset text (i + 1) := by
  induction text with
  | nil =>
    nofun
  | cons c rest ih =>
    intro pending offset index point place hsorted hfrom h
    rw [locate, List.mem_append] at h
    cases h with
    | inl htake =>
      obtain ⟨x, hx, hpair⟩ := List.mem_map.mp htake
      cases hpair
      have hlt := List.mem_takeWhile_imp hx
      refine ⟨0, Nat.zero_lt_succ _, rfl, ?_, ?_⟩
      · simpa using hfrom point (List.takeWhile_subset _ hx)
      · simpa using hlt
    | inr hrest =>
      obtain ⟨i, hi, rfl, hle, hlt⟩ := ih
        (hsorted.sublist (List.dropWhile_sublist _)) (fun x => le_of_mem_dropWhile hsorted) hrest
      refine ⟨i + 1, Nat.succ_lt_succ hi, by omega, ?_, ?_⟩
      · rw [offset_cons]
        omega
      · rw [offset_cons]
        omega

variable {terms : List Text}

theorem mem_hits {hit : Nat × Nat} (h : hit ∈ hits p text terms) :
    ∃ term ∈ terms, FirstAt term (p.casefold text) hit.1 ∧ hit.2 = term.length ∧
      hit.1 + hit.2 ≤ (p.casefold text).length := by
  obtain ⟨term, hterm, hmap⟩ := List.mem_filterMap.mp h
  obtain ⟨start, hstart, rfl⟩ := Option.map_eq_some_iff.mp hmap
  exact ⟨term, hterm, find_first hstart, rfl, find_some hstart⟩

theorem places_run (hfold : ∀ c, p.foldChar c ≠ []) (hterms : ∀ term ∈ terms, term ≠ [])
    {found : List (Nat × Nat)} (h : places p text terms = .ok found) {m : Nat × Nat}
    (hm : m ∈ found) :
    ∃ term ∈ terms, ∃ start, FirstAt term (p.casefold text) start ∧
      Run p text start (start + term.length) m.1 m.2 := by
  unfold places at h
  split at h
  · rename_i hlength
    cases h
    obtain ⟨hit, hhit, rfl⟩ := List.mem_map.mp hm
    obtain ⟨term, hterm, hfirst, hsize, hle⟩ := mem_hits hhit
    have hpos : 0 < term.length := List.length_pos_iff.mpr (hterms term hterm)
    have hself : ∀ i, i ≤ text.length → p.offset text i = i := fun i =>
      offset_self hfold hlength
    refine ⟨term, hterm, hit.1, hfirst, ?_⟩
    have hend : hit.1 + hit.2 = hit.1 + hit.2 - 1 + 1 := by omega
    rw [show (hit.1, hit.1 + hit.2).2 = hit.1 + hit.2 - 1 + 1 from hend, ← hsize]
    apply run_of_characters
    · rw [hself _ (by omega)]
    · rw [hself _ (by omega)]
      omega
    · rw [hself _ (by omega)]
      omega
    · rw [hself _ (by omega)]
      omega
    · omega
    · omega
  · obtain ⟨hit, hhit, hplace⟩ := mapM_mem h hm
    simp only [bind_ok, demand_ok, pure_ok] at hplace
    obtain ⟨first, hfirst, last, hlast, rfl⟩ := hplace
    obtain ⟨term, hterm, hoccurs, hsize, hle⟩ := mem_hits hhit
    have hpos : 0 < term.length := List.length_pos_iff.mpr (hterms term hterm)
    obtain ⟨i, _, rfl, hi, hi'⟩ := locate_inside text (List.pairwise_insertionSort _ _)
      (fun x _ => Nat.zero_le x) (Dict.mem_of_lookup hfirst)
    obtain ⟨j, hj, rfl, hjle, hjlt⟩ := locate_inside text (List.pairwise_insertionSort _ _)
      (fun x _ => Nat.zero_le x) (Dict.mem_of_lookup hlast)
    simp only [Nat.zero_add] at hi hi' hjle hjlt ⊢
    refine ⟨term, hterm, hit.1, hoccurs, ?_⟩
    exact run_of_characters hi hi' (by omega) (by omega) hj (by omega)

theorem places_ne_nil {found : List (Nat × Nat)} (h : places p text terms = .ok found)
    (hoccurs : ∃ term ∈ terms, term <:+: p.casefold text) : found ≠ [] := by
  obtain ⟨term, hterm, hinfix⟩ := hoccurs
  obtain ⟨start, hstart⟩ := Option.isSome_iff_exists.mp (find_isSome hinfix)
  have hhit : (start, term.length) ∈ hits p text terms :=
    List.mem_filterMap.mpr ⟨term, hterm, by rw [hstart]; rfl⟩
  have hlength : found.length = (hits p text terms).length := by
    unfold places at h
    split at h
    · cases h
      rw [List.length_map]
    · exact (mapM_forall₂ h).length_eq.symm
  rw [← List.length_pos_iff, hlength]
  exact List.length_pos_of_mem hhit

/-! ### Snippets -/

/-- What a snippet between two offsets of its text shows is true. -/
structure Shows (p : Platform) (text : Text) (terms : List Text) (left right : Nat)
    (shown : Snippet) : Prop where
  slice : shown.text = (text.take right).drop left
  short : shown.text.length ≤ 220
  inside : ∀ r ∈ shown.ranges, r.1 < r.2 ∧ r.2 ≤ shown.text.length
  sorted : shown.ranges.Pairwise fun a b => toLex a < toLex b
  highlights : ∀ r ∈ shown.ranges, ∃ term ∈ terms, ∃ start first last,
    FirstAt term (p.casefold text) start ∧ Run p text start (start + term.length) first last ∧
      first < right ∧ left < last ∧ r = (max left first - left, min right last - left)
  found : (∃ term ∈ terms, term <:+: p.casefold text) → shown.ranges ≠ []

/-- The parts of the places that lie in a window. -/
def rangesIn (left right : Nat) (matched : List (Nat × Nat)) : List (Nat × Nat) :=
  ((((matched.filter fun m => m.1 < right && left < m.2).map fun m =>
    toLex (max left m.1 - left, min right m.2 - left)).dedup).insertionSort (· ≤ ·)).map ofLex

theorem mem_rangesIn {left right : Nat} {matched : List (Nat × Nat)} {r : Nat × Nat} :
    r ∈ rangesIn left right matched ↔ ∃ m ∈ matched, (m.1 < right ∧ left < m.2) ∧
      r = (max left m.1 - left, min right m.2 - left) := by
  simp only [rangesIn, List.mem_map, List.mem_insertionSort, List.mem_dedup, List.mem_filter,
    Bool.and_eq_true, decide_eq_true_eq]
  constructor
  · rintro ⟨_, ⟨m, ⟨hm, hwindow⟩, rfl⟩, rfl⟩
    exact ⟨m, hm, hwindow, rfl⟩
  · rintro ⟨m, hm, hwindow, rfl⟩
    exact ⟨_, ⟨m, ⟨hm, hwindow⟩, rfl⟩, rfl⟩

theorem rangesIn_sorted (left right : Nat) (matched : List (Nat × Nat)) :
    (rangesIn left right matched).Pairwise fun a b => toLex a < toLex b := by
  have hsorted := List.pairwise_insertionSort (· ≤ ·)
    ((matched.filter fun m => m.1 < right && left < m.2).map fun m =>
      toLex (max left m.1 - left, min right m.2 - left)).dedup
  have hnodup := (List.perm_insertionSort (· ≤ ·) _).nodup_iff.mpr
    (List.nodup_dedup ((matched.filter fun m => m.1 < right && left < m.2).map fun m =>
      toLex (max left m.1 - left, min right m.2 - left)))
  rw [rangesIn, List.pairwise_map]
  exact (hsorted.and hnodup).imp fun h => lt_of_le_of_ne h.1 h.2

theorem snippet_eq {matched : List (Nat × Nat)} {left : Nat} (h : places p text terms = .ok matched)
    (hleft : left = (matched.map Prod.fst).min?.getD 0 - 50) :
    snippet p text terms = .ok ⟨(text.take (min text.length (left + 220))).drop left,
      rangesIn left (min text.length (left + 220)) matched, 0 < left,
      min text.length (left + 220) < text.length⟩ := by
  unfold snippet
  rw [h, ok_bind, hleft]
  rfl

/-- Every search shows a snippet, and its highlights are true. -/
theorem snippet_true (hfold : ∀ c, p.foldChar c ≠ []) (text : Text) {terms : List Text}
    (hterms : ∀ term ∈ terms, term ≠ []) :
    ∃ shown left right, snippet p text terms = .ok shown ∧ Shows p text terms left right shown := by
  obtain ⟨matched, hmatched⟩ := places_total (p := p) text hterms
  have hruns := fun m hm => places_run (m := m) hfold hterms hmatched hm
  obtain ⟨left, hleft⟩ : ∃ left, left = (matched.map Prod.fst).min?.getD 0 - 50 := ⟨_, rfl⟩
  obtain ⟨right, hright⟩ : ∃ right, right = min text.length (left + 220) := ⟨_, rfl⟩
  have hlength : ((text.take right).drop left).length = right - left := by
    rw [List.length_drop, List.length_take]
    omega
  refine ⟨_, left, right, snippet_eq hmatched hleft, ?_⟩
  rw [← hright]
  refine ⟨rfl, ?_, ?_, rangesIn_sorted left right matched, ?_, ?_⟩
  · rw [hlength]
    omega
  · intro r hr
    obtain ⟨m, hm, hwindow, rfl⟩ := mem_rangesIn.mp hr
    obtain ⟨_, _, _, _, hrun⟩ := hruns m hm
    have hinside := hrun.inside
    simp only [hlength]
    omega
  · intro r hr
    obtain ⟨m, hm, hwindow, rfl⟩ := mem_rangesIn.mp hr
    obtain ⟨term, hterm, start, hfirst, hrun⟩ := hruns m hm
    exact ⟨term, hterm, start, m.1, m.2, hfirst, hrun, hwindow.1, hwindow.2, rfl⟩
  · intro hoccurs hnil
    have hne : matched.map Prod.fst ≠ [] := fun h =>
      places_ne_nil hmatched hoccurs (List.map_eq_nil_iff.mp h)
    -- the first of the places starts in the window
    obtain ⟨anchor, hanchor⟩ := Option.isSome_iff_exists.mp (List.isSome_min?_of_ne_nil hne)
    obtain ⟨m, hm, rfl⟩ := List.mem_map.mp (List.min?_mem hanchor)
    rw [hanchor, Option.getD_some] at hleft
    obtain ⟨_, _, _, _, hrun⟩ := hruns m hm
    have hinside := hrun.inside
    have hrange : (max left m.1 - left, min right m.2 - left) ∈ rangesIn left right matched :=
      mem_rangesIn.mpr ⟨m, hm, ⟨by omega, by omega⟩, rfl⟩
    rw [show rangesIn left right matched = [] from hnil] at hrange
    cases hrange

/-- A platform on which one letter becomes two. -/
def expandingPlatform : Platform :=
  { samplePlatform with foldChar := fun c => if c = 'ß' then ['s', 's'] else [c.toLower] }

theorem snippet_true_sample :
    ∃ shown left right, snippet expandingPlatform "Straße".toList ["se".toList] = .ok shown ∧
      Shows expandingPlatform "Straße".toList ["se".toList] left right shown :=
  snippet_true (fun c => by
    show (if c = 'ß' then ['s', 's'] else [c.toLower]) ≠ []
    split <;> simp) _ (by simp)

example : (snippet expandingPlatform "Straße".toList ["se".toList]).toOption.map
    (fun shown => shown.ranges) = some [(4, 6)] := by
  decide +kernel

end LocalSearch
