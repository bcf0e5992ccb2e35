import Mathlib.Data.Set.Insert

/-!
# What remains of writes that saw each other

Every write saw a set of earlier writes.  A set of writes is `Closed` when it
contains what its members saw, and its `frontier` are the members that no
member saw.  A register that keeps the frontier of the writes it observed
joins two of them by keeping what both have, and what one has and the other
never observed (`mem_frontier_union`); a write that saw everything leaves only
itself (`frontier_insert`).
-/

universe u

namespace Observed

variable {ω : Type u} (saw : ω → Set ω)

/-- The members saw members only. -/
def Closed (s : Set ω) : Prop :=
  ∀ e ∈ s, saw e ⊆ s

/-- The members that no member saw. -/
def frontier (s : Set ω) : Set ω :=
  {d | d ∈ s ∧ ∀ e ∈ s, d ∉ saw e}

variable {saw} {s t : Set ω} {d e : ω}

theorem not_mem_frontier (he : e ∈ s) (hd : d ∈ saw e) : d ∉ frontier saw s := by
  intro hfrontier
  exact hfrontier.2 e he hd

theorem Closed.union (hs : Closed saw s) (ht : Closed saw t) : Closed saw (s ∪ t) := by
  intro e he d hd
  rcases he with he | he
  · exact .inl (hs e he hd)
  · exact .inr (ht e he hd)

/-- Each side keeps of its frontier what the other has too or never observed. -/
theorem mem_frontier_union (hs : Closed saw s) (ht : Closed saw t) :
    d ∈ frontier saw (s ∪ t) ↔
      (d ∈ frontier saw s ∧ (d ∈ frontier saw t ∨ d ∉ t)) ∨
      (d ∈ frontier saw t ∧ (d ∈ frontier saw s ∨ d ∉ s)) := by
  constructor
  · intro ⟨hmem, hunseen⟩
    have hleft : d ∈ s → d ∈ frontier saw s := by
      intro hd
      exact ⟨hd, fun e he => hunseen e (.inl he)⟩
    have hright : d ∈ t → d ∈ frontier saw t := by
      intro hd
      exact ⟨hd, fun e he => hunseen e (.inr he)⟩
    rcases hmem with hd | hd
    · left
      by_cases hother : d ∈ t
      · exact ⟨hleft hd, .inl (hright hother)⟩
      · exact ⟨hleft hd, .inr hother⟩
    · right
      by_cases hother : d ∈ s
      · exact ⟨hright hd, .inl (hleft hother)⟩
      · exact ⟨hright hd, .inr hother⟩
  · -- a write outside the other side was seen by none of its members
    have hkept : ∀ {a b : Set ω}, Closed saw b → d ∈ frontier saw a →
        (d ∈ frontier saw b ∨ d ∉ b) → ∀ e ∈ b, d ∉ saw e := by
      intro a b hb _ hother e he hseen
      rcases hother with hfrontier | hnot
      · exact hfrontier.2 e he hseen
      · exact hnot (hb e he hseen)
    intro h
    rcases h with ⟨hd, hother⟩ | ⟨hd, hother⟩
    · refine ⟨.inl hd.1, ?_⟩
      intro e he
      rcases he with he | he
      · exact hd.2 e he
      · exact hkept ht hd hother e he
    · refine ⟨.inr hd.1, ?_⟩
      intro e he
      rcases he with he | he
      · exact hkept hs hd hother e he
      · exact hd.2 e he

theorem Closed.insert (hs : Closed saw s) (hsaw : saw e = s) : Closed saw (insert e s) := by
  intro d hd
  rcases hd with heq | hd
  · rw [heq, hsaw]
    exact Set.subset_insert e s
  · exact (hs d hd).trans (Set.subset_insert e s)

theorem frontier_insert (hs : Closed saw s) (hnew : e ∉ s) (hsaw : saw e = s) :
    frontier saw (insert e s) = {e} := by
  ext d
  constructor
  · intro ⟨hmem, hunseen⟩
    rcases hmem with heq | hd
    · exact heq
    · refine absurd ?_ (hunseen e (Set.mem_insert e s))
      rw [hsaw]
      exact hd
  · intro heq
    rw [heq]
    refine ⟨Set.mem_insert e s, ?_⟩
    intro other hother hseen
    rcases hother with heq' | hother
    · rw [heq', hsaw] at hseen
      exact hnew hseen
    · exact hnew (hs other hother hseen)

end Observed
