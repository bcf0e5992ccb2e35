import Mathlib.Data.List.Basic
import Mathlib.Tactic.Ring

/-!
# Reading a format within a limit

A reader goes through the bytes of a file from a position, and may fail.  A format says which
bytes stand for a value.

* `toBytes` and `ofBytes` are numbers of a fixed width, the lowest byte first;
* `Reads` says that a reader reads exactly a format, up to a limit: what it returns stands in
  the file, and what stands in the file it returns;
* `Reads.bind`, `Reads.many` and the others put readers and formats together.
-/

namespace BoundedReading

abbrev Bytes := List UInt8

/-! ### Numbers -/

def ofBytes : Bytes → Nat
  | [] => 0
  | byte :: rest => byte.toNat + 256 * ofBytes rest

def toBytes : Nat → Nat → Bytes
  | 0, _ => []
  | width + 1, n => UInt8.ofNat (n % 256) :: toBytes width (n / 256)

@[simp] theorem length_toBytes (width n : Nat) : (toBytes width n).length = width := by
  induction width generalizing n with
  | zero => rfl
  | succ width ih => rw [toBytes, List.length_cons, ih]

theorem ofBytes_lt (bytes : Bytes) : ofBytes bytes < 256 ^ bytes.length := by
  induction bytes with
  | nil => decide
  | cons byte rest ih =>
    have hbyte := byte.toNat_lt
    rw [ofBytes, List.length_cons, Nat.pow_succ]
    omega

theorem ofBytes_toBytes {width n : Nat} (h : n < 256 ^ width) : ofBytes (toBytes width n) = n := by
  induction width generalizing n with
  | zero =>
    rw [toBytes, ofBytes]
    omega
  | succ width ih =>
    have hhigh : n / 256 < 256 ^ width := by omega
    rw [toBytes, ofBytes, ih hhigh, UInt8.toNat_ofNat']
    omega

theorem toBytes_ofBytes (bytes : Bytes) : toBytes bytes.length (ofBytes bytes) = bytes := by
  induction bytes with
  | nil => rfl
  | cons byte rest ih =>
    have hbyte : byte.toNat < 256 := byte.toNat_lt
    have hlow : (byte.toNat + 256 * ofBytes rest) % 256 = byte.toNat := by omega
    have hhigh : (byte.toNat + 256 * ofBytes rest) / 256 = ofBytes rest := by omega
    rw [ofBytes, List.length_cons, toBytes, hlow, hhigh, ih, UInt8.ofNat_toNat]

/-! ### Readers -/

/-- The position in a file, and how many reads there were. -/
structure Stream where
  position : Nat
  calls : Nat

abbrev Reader (ε α : Type) := StateT Stream (Except ε) α

variable {ε α β : Type} {bytes : Bytes} {limit : Nat} {quiet : Prop}

/-- A failure unless a proposition holds. -/
def demand (p : Prop) [Decidable p] (e : ε) : Reader ε Unit :=
  if p then pure () else throw e

/-- The same reader a number of times. -/
def many (reader : Reader ε α) : Nat → Reader ε (List α)
  | 0 => pure []
  | n + 1 => do
      let first ← reader
      let rest ← many reader n
      pure (first :: rest)

/-- A reader reads exactly what a format has at the position, and no byte beyond the limit; it
fails on nothing else when it is left in peace. -/
structure Reads (bytes : Bytes) (limit : Nat) (quiet : Prop) (reader : Reader ε α)
    (format : α → Bytes → Prop) : Prop where
  sound : ∀ s a s', reader s = .ok (a, s') → ∃ word, format a word ∧
    bytes.drop s.position = word ++ bytes.drop s'.position ∧
    s'.position = s.position + word.length ∧ (s.position ≤ limit → s'.position ≤ limit)
  complete : quiet → ∀ s a word rest, format a word → bytes.drop s.position = word ++ rest →
    s.position + word.length ≤ limit →
    ∃ s', reader s = .ok (a, s') ∧ s'.position = s.position + word.length

namespace Reads

theorem congr {reader : Reader ε α} {format other : α → Bytes → Prop}
    (h : Reads bytes limit quiet reader format) (heq : ∀ a word, format a word ↔ other a word) :
    Reads bytes limit quiet reader other where
  sound s a s' hrun := by
    obtain ⟨word, hformat, hrest⟩ := h.sound s a s' hrun
    exact ⟨word, (heq a word).mp hformat, hrest⟩
  complete hquiet s a word rest hother :=
    h.complete hquiet s a word rest ((heq a word).mpr hother)

theorem pure (a : α) : Reads bytes limit quiet (pure a : Reader ε α)
    (fun b word => b = a ∧ word = []) where
  sound s b s' hrun := by
    cases hrun
    exact ⟨[], ⟨rfl, rfl⟩, rfl, rfl, id⟩
  complete _ s b word rest hformat _ _ := by
    obtain ⟨rfl, rfl⟩ := hformat
    exact ⟨s, rfl, rfl⟩

theorem fail (e : ε) : Reads bytes limit quiet (throw e : Reader ε α) (fun _ _ => False) where
  sound s b s' hrun := by cases hrun
  complete _ _ _ _ _ hformat := hformat.elim

theorem demand (p : Prop) [Decidable p] (e : ε) :
    Reads bytes limit quiet (BoundedReading.demand p e) (fun _ word => p ∧ word = []) := by
  unfold BoundedReading.demand
  by_cases hp : p
  · rw [if_pos hp]
    exact (pure ()).congr fun _ _ => by simp [hp]
  · rw [if_neg hp]
    exact (fail e).congr fun _ _ => by simp [hp]

theorem bind {reader : Reader ε α} {next : α → Reader ε β} {first : α → Bytes → Prop}
    {second : α → β → Bytes → Prop} (hfirst : Reads bytes limit quiet reader first)
    (hsecond : ∀ a, Reads bytes limit quiet (next a) (second a)) :
    Reads bytes limit quiet (reader >>= next)
      (fun b word => ∃ a u v, first a u ∧ second a b v ∧ word = u ++ v) where
  sound s b s' hrun := by
    have hbind : (reader s >>= fun r => next r.1 r.2) = .ok (b, s') := hrun
    cases hread : reader s with
    | error e =>
      rw [hread] at hbind
      cases hbind
    | ok r =>
      rw [hread] at hbind
      obtain ⟨u, hu, hdrop, hposition, hlimit⟩ := hfirst.sound s r.1 r.2 hread
      obtain ⟨v, hv, hdrop', hposition', hlimit'⟩ := (hsecond r.1).sound r.2 b s' hbind
      refine ⟨u ++ v, ⟨r.1, u, v, hu, hv, rfl⟩, ?_, ?_, fun hle => hlimit' (hlimit hle)⟩
      · rw [hdrop, hdrop', List.append_assoc]
      · rw [hposition', hposition, List.length_append, Nat.add_assoc]
  complete hquiet s b word rest hformat hdrop hlimit := by
    obtain ⟨a, u, v, hu, hv, rfl⟩ := hformat
    rw [List.append_assoc] at hdrop
    rw [List.length_append, ← Nat.add_assoc] at hlimit
    obtain ⟨s', hread, hposition⟩ :=
      hfirst.complete hquiet s a u (v ++ rest) hu hdrop (by omega)
    have hdrop' : bytes.drop s'.position = v ++ rest := by
      rw [hposition, ← List.drop_drop, hdrop, List.drop_left]
    obtain ⟨s'', hread', hposition'⟩ :=
      (hsecond a).complete hquiet s' b v rest hv hdrop' (by omega)
    refine ⟨s'', ?_, ?_⟩
    · show (reader s >>= fun r => next r.1 r.2) = _
      rw [hread]
      exact hread'
    · rw [hposition', hposition, List.length_append, Nat.add_assoc]

/-- The bytes of some values one after the other. -/
def Many (format : α → Bytes → Prop) : List α → Bytes → Prop
  | [], word => word = []
  | a :: rest, word => ∃ u v, format a u ∧ Many format rest v ∧ word = u ++ v

theorem many_iff {P : β → Prop} {enc : β → Bytes} {g : β → α} {values : List α} {word : Bytes} :
    Many (fun a word => ∃ x, P x ∧ word = enc x ∧ a = g x) values word ↔
      ∃ xs : List β, (∀ x ∈ xs, P x) ∧ word = xs.flatMap enc ∧ values = xs.map g := by
  induction values generalizing word with
  | nil =>
    constructor
    · intro h
      exact ⟨[], fun x hx => (List.not_mem_nil hx).elim, h, rfl⟩
    · rintro ⟨xs, _, rfl, hvalues⟩
      rw [List.map_eq_nil_iff.mp hvalues.symm]
      rfl
  | cons a rest ih =>
    constructor
    · rintro ⟨u, v, ⟨x, hx, rfl, rfl⟩, hrest, rfl⟩
      obtain ⟨xs, hxs, rfl, rfl⟩ := ih.mp hrest
      exact ⟨x :: xs, List.forall_mem_cons.mpr ⟨hx, hxs⟩, rfl, rfl⟩
    · rintro ⟨xs, hxs, rfl, hvalues⟩
      cases xs with
      | nil => cases hvalues
      | cons x xs =>
        obtain ⟨rfl, rfl⟩ := hvalues
        obtain ⟨hx, hxs⟩ := List.forall_mem_cons.mp hxs
        exact ⟨enc x, xs.flatMap enc, ⟨x, hx, rfl, rfl⟩, ih.mpr ⟨xs, hxs, rfl, rfl⟩, rfl⟩

theorem many {reader : Reader ε α} {format : α → Bytes → Prop}
    (h : Reads bytes limit quiet reader format) (n : Nat) :
    Reads bytes limit quiet (many reader n)
      (fun values word => values.length = n ∧ Many format values word) := by
  induction n with
  | zero =>
    refine (pure []).congr fun values word => ?_
    rw [List.length_eq_zero_iff]
    constructor
    · rintro ⟨rfl, rfl⟩
      exact ⟨rfl, rfl⟩
    · rintro ⟨rfl, hword⟩
      exact ⟨rfl, hword⟩
  | succ n ih =>
    refine (h.bind fun first => ih.bind fun rest => pure (first :: rest)).congr
      fun values word => ?_
    constructor
    · rintro ⟨first, u, v, hu, ⟨rest, u', v', hrest, ⟨rfl, rfl⟩, rfl⟩, rfl⟩
      exact ⟨by rw [List.length_cons, hrest.1], u, u', hu, hrest.2, by rw [List.append_nil]⟩
    · rintro ⟨hlength, hmany⟩
      cases values with
      | nil => cases hlength
      | cons first rest =>
        obtain ⟨u, v, hu, hv, rfl⟩ := hmany
        exact ⟨first, u, v, hu, ⟨rest, v, [], ⟨Nat.succ.inj hlength, hv⟩, ⟨rfl, rfl⟩,
          by rw [List.append_nil]⟩, rfl⟩

end Reads

end BoundedReading
