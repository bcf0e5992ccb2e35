import Mathlib.Data.List.Basic
import Mathlib.Data.List.Forall2

/-!
# Computations that check and refuse

A validating program is a chain of reads and checks in `Except`: it either
refuses with the first failing check or returns.  This file gives the two
checks such a program is made of and the rules to reason about the chain.

* `bind_ok` and `require_ok` invert an accepting run into the facts it
  checked;
* `OnlyFails E x` says that every refusal of `x` satisfies `E`; it is a
  weakest-precondition reading of the error exit, and `onlyFails_bind`
  passes to each continuation what the earlier steps returned;
* `foldlM_ok_induction` is the loop rule: what one accepted iteration
  preserves holds at the end of an accepted loop.
-/

namespace Checked

universe u v w

variable {ε : Type u} {α : Type v} {β : Type v}

/-- Go on when `p` holds and refuse with `e` otherwise. -/
def require (e : ε) (p : Prop) [Decidable p] : Except ε PUnit.{v + 1} :=
  if p then .ok ⟨⟩ else .error e

/-- The value of an optional read, refusing with `e` when there is none. -/
def demand (e : ε) : Option α → Except ε α
  | some a => .ok a
  | none => .error e

/-- Run a check only when `p` holds. -/
def whenever (p : Prop) [Decidable p] (x : Except ε PUnit.{v + 1}) : Except ε PUnit.{v + 1} :=
  if p then x else .ok ⟨⟩

/-- Run `x` and remember that the value is what it returned. -/
def attach (x : Except ε α) : Except ε { a : α // x = .ok a } :=
  match x with
  | .ok a => .ok ⟨a, rfl⟩
  | .error e => .error e

variable {x : Except ε α} {f : α → Except ε β}

/-- An accepting chain accepted its first step, and the rest from there. -/
theorem bind_ok {b : β} : (x >>= f) = .ok b ↔ ∃ a, x = .ok a ∧ f a = .ok b := by
  cases x <;> simp [bind, Except.bind]

/-- Chains are equal when their first steps are and they go on alike from what these return. -/
theorem bind_congr {y : Except ε α} {g : α → Except ε β} (hxy : x = y)
    (h : ∀ a, x = .ok a → f a = g a) : (x >>= f) = (y >>= g) := by
  subst hxy
  cases x with
  | error e => rfl
  | ok a => exact h a rfl

@[simp] theorem map_ok {f : α → β} {b : β} : f <$> x = .ok b ↔ ∃ a, x = .ok a ∧ f a = b := by
  cases x <;> simp [Functor.map, Except.map]

variable {a : α}

@[simp] theorem pure_ok {b : α} : (pure a : Except ε α) = .ok b ↔ a = b := by
  simp [pure, Except.pure]

/-- A computation whose value has a property accepts. -/
theorem toOption_any {p : α → Bool} (h : x.toOption.any p = true) :
    ∃ a, x = .ok a ∧ p a = true := by
  cases x with
  | error e => cases h
  | ok a => exact ⟨a, rfl, h⟩

theorem toOption_isSome (h : x.toOption.isSome = true) : ∃ a, x = .ok a := by
  cases x with
  | error e => cases h
  | ok a => exact ⟨a, rfl⟩

theorem toOption_get (h : x.toOption.isSome = true) : x = .ok (x.toOption.get h) := by
  cases x with
  | error e => cases h
  | ok a => rfl

@[simp] theorem ok_bind : ((.ok a : Except ε α) >>= f) = f a := rfl

variable {e : ε}

@[simp] theorem error_bind : ((.error e : Except ε α) >>= f) = .error e := rfl

@[simp] theorem require_ok {p : Prop} [Decidable p] {u : PUnit.{v + 1}} :
    require.{u, v} e p = .ok u ↔ p := by
  by_cases hp : p <;> simp [require, hp]

/-- A check that holds is passed. -/
theorem require_of {p : Prop} [Decidable p] (hp : p) : require.{u, v} e p = .ok ⟨⟩ := by
  simp [require, hp]

@[simp] theorem whenever_ok {p : Prop} [Decidable p] {x : Except ε PUnit.{v + 1}}
    {u : PUnit.{v + 1}} : whenever p x = .ok u ↔ (p → x = .ok u) := by
  by_cases hp : p <;> simp [whenever, hp]

@[simp] theorem demand_some : demand e (some a) = .ok a := rfl

@[simp] theorem demand_ok {o : Option α} : demand e o = .ok a ↔ o = some a := by
  cases o <;> simp [demand]

/-- Every refusal of `x` satisfies `E`. -/
def OnlyFails (E : ε → Prop) (x : Except ε α) : Prop :=
  ∀ e, x = .error e → E e

variable {E : ε → Prop}

@[simp] theorem onlyFails_ok : OnlyFails E (.ok a : Except ε α) := nofun

@[simp] theorem onlyFails_pure : OnlyFails E (pure a : Except ε α) :=
  onlyFails_ok

@[simp] theorem onlyFails_error : OnlyFails E (.error e : Except ε α) ↔ E e := by
  simp [OnlyFails]

/-- **Sequencing.**  A chain only fails in `E` when its first step does, and
its rest does from every value the first step can return. -/
@[simp] theorem onlyFails_bind : OnlyFails E (x >>= f) ↔
      OnlyFails E x ∧ ∀ a, x = .ok a → OnlyFails E (f a) := by
  cases x <;> simp [OnlyFails, bind, Except.bind]

@[simp] theorem onlyFails_map {f : α → β} : OnlyFails E (f <$> x) ↔ OnlyFails E x := by
  cases x <;> simp [OnlyFails, Functor.map, Except.map]

@[simp] theorem onlyFails_require {p : Prop} [Decidable p] :
    OnlyFails E (require.{u, v} e p) ↔ (¬ p → E e) := by
  by_cases hp : p <;> simp [require, hp]

@[simp] theorem onlyFails_whenever {p : Prop} [Decidable p] {x : Except ε PUnit.{v + 1}} :
    OnlyFails E (whenever p x) ↔ (p → OnlyFails E x) := by
  by_cases hp : p <;> simp [whenever, hp]

@[simp] theorem onlyFails_demand {o : Option α} : OnlyFails E (demand e o) ↔ (o = none → E e) := by
  cases o <;> simp [demand]

theorem mapError_ok {δ : Type w} {f : ε → δ} : x.mapError f = .ok a ↔ x = .ok a := by
  cases x <;> simp [Except.mapError]

theorem onlyFails_mapError {δ : Type w} {E : δ → Prop} {f : ε → δ} :
    OnlyFails E (x.mapError f) ↔ OnlyFails (fun e => E (f e)) x := by
  cases x <;> simp [OnlyFails, Except.mapError]

theorem OnlyFails.mono {E' : ε → Prop} (h : OnlyFails E x) (himp : ∀ e, E e → E' e) :
    OnlyFails E' x :=
  fun e he => himp e (h e he)

/-- A loop of checks passes when every check does. -/
@[simp] theorem forM_ok {γ : Type w} {f : γ → Except ε PUnit.{v + 1}} {items : List γ}
    {u : PUnit.{v + 1}} : forM items f = .ok u ↔ ∀ c ∈ items, f c = .ok ⟨⟩ := by
  induction items with
  | nil => simp
  | cons c rest ih =>
    rw [List.forM_cons, bind_ok, List.forall_mem_cons, ← ih]
    constructor
    · intro ⟨_, hc, hrest⟩
      exact ⟨hc, hrest⟩
    · intro ⟨hc, hrest⟩
      exact ⟨⟨⟩, hc, hrest⟩

/-- A loop only fails in `E` when every iteration does. -/
theorem onlyFails_foldlM {γ : Type w} {f : α → γ → Except ε α}
    (h : ∀ a c, OnlyFails E (f a c)) : ∀ (items : List γ) (a : α),
      OnlyFails E (items.foldlM f a) := by
  intro items
  induction items with
  | nil => intro a; exact onlyFails_ok
  | cons c rest ih =>
    intro a
    rw [List.foldlM_cons, onlyFails_bind]
    exact ⟨h a c, fun b _ => ih b⟩

theorem onlyFails_forM {γ : Type w} {f : γ → Except ε PUnit.{v + 1}}
    (h : ∀ c, OnlyFails E (f c)) (items : List γ) : OnlyFails E (forM items f) := by
  induction items with
  | nil => exact onlyFails_ok
  | cons c rest ih =>
    rw [List.forM_cons, onlyFails_bind]
    exact ⟨h c, fun _ _ => ih⟩

theorem onlyFails_mapM {γ : Type w} {f : γ → Except ε α} (h : ∀ c, OnlyFails E (f c))
    (items : List γ) : OnlyFails E (items.mapM f) := by
  induction items with
  | nil =>
    exact onlyFails_pure
  | cons a rest ih =>
    rw [List.mapM_cons]
    exact onlyFails_bind.mpr ⟨h a, fun b _ =>
      onlyFails_bind.mpr ⟨ih, fun _ _ => onlyFails_pure⟩⟩

section Collecting

variable {γ : Type w} {f : γ → Except ε α} {items : List γ}

theorem mapM_total (h : ∀ a ∈ items, ∃ b, f a = .ok b) : ∃ results, items.mapM f = .ok results := by
  induction items with
  | nil => exact ⟨[], rfl⟩
  | cons a rest ih =>
    obtain ⟨b, hb⟩ := h a (.head _)
    obtain ⟨results, hrest⟩ := ih fun c hc => h c (List.mem_cons_of_mem a hc)
    refine ⟨b :: results, ?_⟩
    rw [List.mapM_cons, hb, ok_bind, hrest, ok_bind]
    rfl

theorem mapM_forall₂ : ∀ {results : List α}, items.mapM f = .ok results →
    List.Forall₂ (fun a b => f a = .ok b) items results := by
  induction items with
  | nil =>
    intro results h
    cases h
    exact .nil
  | cons a rest ih =>
    intro results h
    rw [List.mapM_cons] at h
    simp only [bind_ok, pure_ok] at h
    obtain ⟨b, hb, others, hothers, rfl⟩ := h
    exact .cons hb (ih hothers)

theorem mapM_mem {results : List α} (h : items.mapM f = .ok results) {result : α}
    (hmem : result ∈ results) : ∃ item ∈ items, f item = .ok result := by
  obtain ⟨n, hn, rfl⟩ := List.getElem_of_mem hmem
  have hall := mapM_forall₂ h
  have hlt : n < items.length := by
    rw [hall.length_eq]
    exact hn
  exact ⟨items[n], List.getElem_mem hlt, hall.get hlt hn⟩

end Collecting

/-- **The loop rule for accepted runs.**  An invariant of the items done so
far and the accumulator that each accepted iteration preserves holds when the
loop has accepted every item. -/
theorem foldlM_ok_induction {γ : Type w} {f : α → γ → Except ε α} (P : List γ → α → Prop)
    (hstep : ∀ done a c b, P done a → f a c = .ok b → P (done ++ [c]) b) :
    ∀ (items done : List γ) (a b : α), P done a →
      items.foldlM f a = .ok b → P (done ++ items) b := by
  intro items
  induction items with
  | nil =>
    intro done a b ha h
    have hab : a = b := by simpa using h
    simpa [← hab] using ha
  | cons c rest ih =>
    intro done a b ha h
    rw [List.foldlM_cons, bind_ok] at h
    obtain ⟨next, hnext, hrest⟩ := h
    have h' := ih (done ++ [c]) next b (hstep done a c next ha hnext) hrest
    simpa using h'

end Checked
