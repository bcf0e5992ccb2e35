import Mathlib.Data.List.Basic

/-!
# Histories whose events are explained by their past

A system that keeps a ghost record of what it did lists its events newest
first.  A safety property of such a system says of every event what must have
happened before it: `Justified P history` holds when each event satisfies `P`
together with the events under it.  One step adds a few events, so a proof looks
at these only, and `justified_iff` turns the result into a statement about every
split of the history.
-/

universe u

variable {ε : Type u}

/-- Every event satisfies `P` with the events before it. -/
def Justified (P : ε → List ε → Prop) : List ε → Prop
  | [] => True
  | event :: past => P event past ∧ Justified P past

namespace Justified

variable {P : ε → List ε → Prop}

theorem cons {event : ε} {past : List ε} (h : Justified P past) (hevent : P event past) :
    Justified P (event :: past) :=
  ⟨hevent, h⟩

theorem of_append {later past : List ε} (h : Justified P (later ++ past)) : Justified P past := by
  induction later with
  | nil => exact h
  | cons event later ih => exact ih h.2

theorem justified_iff {history : List ε} : Justified P history ↔
      ∀ later event past, history = later ++ event :: past → P event past := by
  constructor
  · intro h later event past hsplit
    rw [hsplit] at h
    exact h.of_append.1
  · induction history with
    | nil =>
      intro _
      trivial
    | cons event past ih =>
      intro h
      refine ⟨h [] event past rfl, ih ?_⟩
      intro later event' past' hsplit
      exact h (event :: later) event' past' (by rw [hsplit]; rfl)

theorem of_mem {history : List ε} {event : ε} (h : Justified P history) (hmem : event ∈ history) :
    ∃ past, P event past ∧ ∀ earlier ∈ past, earlier ∈ history := by
  obtain ⟨later, past, rfl⟩ := List.append_of_mem hmem
  refine ⟨past, justified_iff.mp h later event past rfl, ?_⟩
  intro earlier hearlier
  exact List.mem_append_right _ (.tail _ hearlier)

end Justified
