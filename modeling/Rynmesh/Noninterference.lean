import Mathlib.Data.List.Basic

/-!
# What an observer of a state machine can tell apart

A machine answers inputs; an observer issues some of them and sees the answers
to those only.  Let `R` be an equivalence on states.  When the observer's own
inputs answer alike on related states and keep them related (`Respects`), and
every other input of a run leaves the state in its class (`Silent`), two runs
with the same inputs of the observer give the same answers (`outputs_eq`).
-/

universe u v w

variable {σ : Type u} {ι : Type v} {ο : Type w}

/-- A machine: each input gives an answer and the next state. -/
structure Machine (σ : Type u) (ι : Type v) (ο : Type w) where
  answer : σ → ι → ο
  next : σ → ι → σ

namespace Machine

variable (m : Machine σ ι ο) (visible : ι → Bool)

/-- The answers to the observer's inputs. -/
def outputs : σ → List ι → List ο
  | _, [] => []
  | s, i :: rest =>
      if visible i then m.answer s i :: outputs (m.next s i) rest
      else outputs (m.next s i) rest

/-- The state after some inputs. -/
def run : σ → List ι → σ
  | s, [] => s
  | s, i :: rest => run (m.next s i) rest

/-- Every input of others keeps the state in its class. -/
def Silent (R : σ → σ → Prop) : σ → List ι → Prop
  | _, [] => True
  | s, i :: rest => (visible i = false → R s (m.next s i)) ∧ Silent R (m.next s i) rest

/-- The observer cannot tell related states apart with one input. -/
structure Respects (R : σ → σ → Prop) : Prop where
  answer : ∀ s t i, visible i = true → R s t → m.answer s i = m.answer t i
  next : ∀ s t i, visible i = true → R s t → R (m.next s i) (m.next t i)

variable {m visible} {R : σ → σ → Prop}

theorem outputs_purge (hR : Equivalence R) (hrespects : m.Respects visible R)
    {inputs : List ι} : ∀ {s t : σ}, R s t → m.Silent visible R s inputs →
      m.outputs visible s inputs = m.outputs visible t (inputs.filter visible) ∧
        R (m.run s inputs) (m.run t (inputs.filter visible)) := by
  induction inputs with
  | nil =>
    intro s t hst _
    exact ⟨rfl, hst⟩
  | cons i rest ih =>
    intro s t hst hsilent
    cases hi : visible i with
    | true =>
      have hnext := hrespects.next s t i hi hst
      obtain ⟨houtputs, hrun⟩ := ih hnext hsilent.2
      rw [List.filter_cons_of_pos hi]
      simp only [outputs, hi, if_true, run]
      rw [hrespects.answer s t i hi hst, houtputs]
      exact ⟨rfl, hrun⟩
    | false =>
      have hstep : R (m.next s i) t := hR.trans (hR.symm (hsilent.1 hi)) hst
      obtain ⟨houtputs, hrun⟩ := ih hstep hsilent.2
      have hskip : (i :: rest).filter visible = rest.filter visible :=
        List.filter_cons_of_neg (by rw [hi]; exact Bool.false_ne_true)
      rw [hskip]
      simp only [outputs, hi, run]
      exact ⟨houtputs, hrun⟩

/-- **Noninterference.**  Runs from related states with the same inputs of the
observer give the observer the same answers, and end in related states. -/
theorem outputs_eq (hR : Equivalence R) (hrespects : m.Respects visible R) {s t : σ}
    {inputs inputs' : List ι} (hst : R s t) (hsilent : m.Silent visible R s inputs)
    (hsilent' : m.Silent visible R t inputs')
    (hsame : inputs.filter visible = inputs'.filter visible) :
    m.outputs visible s inputs = m.outputs visible t inputs' ∧
      R (m.run s inputs) (m.run t inputs') := by
  obtain ⟨hleft, hrunLeft⟩ := outputs_purge hR hrespects hst hsilent
  obtain ⟨hright, hrunRight⟩ := outputs_purge hR hrespects (hR.refl t) hsilent'
  rw [hleft, hright, hsame]
  rw [hsame] at hrunLeft
  exact ⟨rfl, hR.trans hrunLeft (hR.symm hrunRight)⟩

end Machine
