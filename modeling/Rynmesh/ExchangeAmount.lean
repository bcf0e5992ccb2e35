import Rynmesh.DecimalRounding
import Rynmesh.ExchangeRules

/-!
# Amounts of coins

`amount` of `protocol.py`: a decimal text becomes a whole number of millionths.
`Decimal` reads a text exactly, within the limits of its module; the product with
the million is rounded to 28 digits before it is tested for being whole.

* `readNumber` is the numeric string of the `decimal` module, `readDecimal` the
  number constructed from it;
* `amount_ok` says what `amount` returns, `amount_exact_iff` for which texts that
  is what the text says.
-/

namespace Exchange

open Checked DecimalFloat

/-! ### Reading a text -/

/-- What `Decimal(..)` reads; signs of what is not finite do not matter here. -/
inductive Decimal
  | finite (negative : Bool) (number : Number)
  | infinite
  | nan

/-- A character as a digit.  Digits of other scripts count too; `unicode` knows them. -/
def digit? (unicode : Char → Option (Fin 10)) (c : Char) : Option Nat :=
  if c.isDigit then some (c.toNat - '0'.toNat) else (unicode c).map Fin.val

variable (unicode : Char → Option (Fin 10))

/-- The digits that a text begins with, and the rest. -/
def takeDigits : List Char → List Nat × List Char
  | [] => ([], [])
  | c :: rest =>
      match digit? unicode c with
      | none => ([], c :: rest)
      | some digit => (digit :: (takeDigits rest).1, (takeDigits rest).2)

def readSign : List Char → Bool × List Char
  | '+' :: rest => (false, rest)
  | '-' :: rest => (true, rest)
  | rest => (false, rest)

def ofDigitList (digits : List Nat) : Nat := digits.foldl (fun n digit => 10 * n + digit) 0

/-- The exponent part, which may be missing. -/
def readExponent : List Char → Option Int
  | [] => some 0
  | c :: rest =>
      let (negative, rest) := readSign rest
      let (digits, rest) := takeDigits unicode rest
      if (c = 'e' ∨ c = 'E') ∧ digits ≠ [] ∧ rest = [] then
        some (if negative then -(ofDigitList digits : Int) else ofDigitList digits)
      else none

/-- The part after the point, and the rest. -/
def readFraction : List Char → List Nat × List Char
  | '.' :: rest => takeDigits unicode rest
  | rest => ([], rest)

def readFinite (text : List Char) : Option Number :=
  let (whole, rest) := takeDigits unicode text
  let (fraction, rest) := readFraction unicode rest
  if whole ++ fraction = [] then none
  else (readExponent unicode rest).map fun exponent =>
    ⟨ofDigitList (whole ++ fraction), exponent - fraction.length⟩

/-- `Infinity`, `Inf`, and `NaN` with what diagnoses it. -/
def readSpecial (text : List Char) : Option Decimal :=
  match text.map Char.toLower with
  | ['i', 'n', 'f'] | ['i', 'n', 'f', 'i', 'n', 'i', 't', 'y'] => some .infinite
  | 'n' :: 'a' :: 'n' :: rest | 's' :: 'n' :: 'a' :: 'n' :: rest =>
      if (takeDigits unicode rest).2 = [] then some .nan else none
  | _ => none

/-- `str.strip`. -/
def stripSpaces (text : List Char) : List Char :=
  ((text.dropWhile isSpace).reverse.dropWhile isSpace).reverse

/-- The sign of a text and the rest; blanks around the text and underscores in it do not count. -/
def signed (text : String) : Bool × List Char :=
  readSign ((stripSpaces text.toList).filter (· ≠ '_'))

/-- What a text says, whatever its size. -/
def readNumber (text : String) : Option Decimal :=
  match readFinite unicode (signed text).2 with
  | some number => some (.finite (signed text).1 number)
  | none => readSpecial unicode (signed text).2

/-- `MAX_PREC` and `MAX_EMAX` of the `decimal` module in a build of 64 bits. -/
def MAX_PREC : Nat := 999999999999999999

def MIN_ETINY : Int := -1999999999999999997

/-- A number is constructed exactly.  The leading digit of zero counts in its exponent. -/
def Constructible (text : String) (number : Number) : Prop :=
  (digits number.coefficient ≤ MAX_PREC ∧
    (readFraction unicode (takeDigits unicode (signed text).2).2).1.length ≤ MAX_PREC) ∧
  MIN_ETINY ≤ number.exponent ∧
    number.exponent + max 1 (digits number.coefficient) - 1 ≤ (MAX_PREC : Int)

instance (text : String) (number : Number) : Decidable (Constructible unicode text number) :=
  inferInstanceAs (Decidable (_ ∧ _))

/-- `Decimal(text)`: what cannot be constructed exactly is an invalid operation. -/
def readDecimal (text : String) : Option Decimal :=
  (readNumber unicode text).filter fun
    | .finite _ number => Constructible unicode text number
    | _ => true

/-- The number that a text writes. -/
def written (text : String) : Option ℚ :=
  match readNumber unicode text with
  | some (.finite negative number) => some (if negative then -number.value else number.value)
  | _ => none

/-! ### The amount -/

/-- The digits of the default context. -/
def PRECISION : Nat := 28

/-- The exponent of the smallest number of the default context. -/
def ETINY : Int := -1000026

/-- `number * UNITS`.  A number of at most a thousand million does not overflow. -/
def scale (number : Number) : Number :=
  Number.round PRECISION ETINY ⟨number.coefficient * UNITS.toNat, number.exponent⟩

/-- `to_integral_value`. -/
def toIntegral (number : Number) : Nat :=
  if 0 ≤ number.exponent then number.coefficient * 10 ^ number.exponent.toNat
  else roundHalfEven number.coefficient (10 ^ (-number.exponent).toNat)

/-- `amount`; whatever is wrong with a text, the code is the same.  The quotient that bounds a
number is a float, and exact. -/
def amount (text : String) : Except Failure Int :=
  match readDecimal unicode text with
  | some (.finite negative number) => do
      require (negative = false ∨ number.coefficient = 0) "exchange_amount_invalid"
      require (number.value ≤ (MAX_MINOR : ℚ) / UNITS) "exchange_amount_invalid"
      require ((scale number).value = toIntegral (scale number)) "exchange_amount_invalid"
      pure ⌊(scale number).value⌋
  | _ => .error (refusal "exchange_amount_invalid")

theorem toIntegral_iff (number : Number) :
    number.value = toIntegral number ↔ ∃ k : Int, number.value = k := by
  constructor
  · intro h
    exact ⟨toIntegral number, by rw [h]; rfl⟩
  · rintro ⟨k, hk⟩
    unfold toIntegral
    by_cases hexponent : 0 ≤ number.exponent
    · rw [if_pos hexponent]
      unfold Number.value
      push_cast
      rw [← zpow_natCast, Int.toNat_of_nonneg hexponent]
    rw [if_neg hexponent]
    have hten : (10 : ℚ) ^ (-number.exponent).toNat * 10 ^ number.exponent = 1 := by
      rw [← zpow_natCast, ← zpow_add₀ (by norm_num), Int.toNat_of_nonneg (by omega),
        neg_add_cancel, zpow_zero]
    have hcoefficient : (number.coefficient : ℚ) = k * 10 ^ (-number.exponent).toNat := by
      rw [← hk, Number.value, mul_assoc, mul_comm ((10 : ℚ) ^ number.exponent), hten, mul_one]
    have hcoefficient : (number.coefficient : Int) = k * 10 ^ (-number.exponent).toNat := by
      exact_mod_cast hcoefficient
    generalize hdrop : 10 ^ (-number.exponent).toNat = drop
    have hpos : 0 < drop := by
      rw [← hdrop]
      positivity
    have hdrop' : (10 : Int) ^ (-number.exponent).toNat = drop := by
      rw [← hdrop]
      rfl
    rw [hdrop'] at hcoefficient
    obtain ⟨hlow, hhigh⟩ := roundHalfEven_error (n := number.coefficient) hpos
    generalize roundHalfEven number.coefficient drop = q at hlow hhigh
    have hq : (q : Int) = k := by
      have hupper : 2 * (k - q) * drop ≤ 1 * drop := by linarith
      have hlower : 2 * (q - k) * drop ≤ 1 * (drop : Int) := by linarith
      have h1 := le_of_mul_le_mul_right hupper (by exact_mod_cast hpos)
      have h2 := le_of_mul_le_mul_right hlower (by exact_mod_cast hpos)
      omega
    rw [hk, ← hq]
    rfl

/-! ### When an amount is exact -/

/-- What `amount` returns: the rounded number of millionths, when that is whole. -/
theorem amount_ok {text : String} {k : Int} : amount unicode text = .ok k ↔
    ∃ negative number, readDecimal unicode text = some (.finite negative number) ∧
      (negative = false ∨ number.coefficient = 0) ∧ number.value ≤ (MAX_MINOR : ℚ) / UNITS ∧
      (scale number).value = k := by
  unfold amount
  split
  · rename_i negative number hread
    simp only [bind_ok, require_ok, pure_ok, toIntegral_iff]
    constructor
    · rintro ⟨_, hsign, _, hmax, _, ⟨n, hn⟩, hk⟩
      refine ⟨negative, number, hread, hsign, hmax, ?_⟩
      rw [hn, Int.floor_intCast] at hk
      rw [hn, hk]
    · rintro ⟨_, _, hread', hsign, hmax, hk⟩
      rw [hread] at hread'
      cases hread'
      refine ⟨(), hsign, (), hmax, (), ⟨k, hk⟩, ?_⟩
      rw [hk, Int.floor_intCast]
  · rename_i hnone
    constructor
    · intro h
      cases h
    · rintro ⟨negative, number, hread, _⟩
      exact absurd hread (hnone negative number)

theorem written_iff {text : String} {v : ℚ} : written unicode text = some v ↔
    ∃ negative number, readNumber unicode text = some (.finite negative number) ∧
      v = if negative then -number.value else number.value := by
  unfold written
  split
  · rename_i negative number hread
    constructor
    · intro h
      exact ⟨negative, number, hread, (Option.some.inj h).symm⟩
    · rintro ⟨_, _, hread', hv⟩
      rw [hread] at hread'
      cases hread'
      rw [hv]
  · rename_i hnone
    constructor
    · nofun
    · rintro ⟨negative, number, hread, _⟩
      exact absurd hread (hnone negative number)

/-- What is constructed is what the text says. -/
theorem readNumber_of_readDecimal {text : String} {d : Decimal}
    (h : readDecimal unicode text = some d) : readNumber unicode text = some d :=
  (Option.filter_eq_some_iff.mp h).1

theorem readDecimal_or {text : String} {d : Decimal} (h : readNumber unicode text = some d) :
    readDecimal unicode text = none ∨ readDecimal unicode text = some d := by
  cases hread : readDecimal unicode text with
  | none => exact .inl rfl
  | some d' => exact .inr ((readNumber_of_readDecimal unicode hread).symm.trans h)

theorem value_nonneg (number : Number) : 0 ≤ number.value :=
  mul_nonneg (Nat.cast_nonneg _) (ten_pos _).le

variable {number : Number}

theorem value_pos (h : 0 < number.coefficient) : 0 < number.value :=
  mul_pos (Nat.cast_pos.mpr h) (ten_pos _)

theorem millionths_value (number : Number) :
    (⟨number.coefficient * UNITS.toNat, number.exponent⟩ : Number).value =
      number.value * UNITS := by
  unfold Number.value UNITS
  push_cast
  ring

/-- Nothing is rounded to nothing. -/
theorem scale_zero (h : number.coefficient = 0) : (scale number).value = 0 :=
  Number.round_zero (by rw [h, Nat.zero_mul])

/-- A text that writes no negative number has no sign, or writes zero. -/
theorem unsigned {negative : Bool} {v : ℚ}
    (h : v = if negative then -number.value else number.value) (h0 : 0 ≤ v) :
    v = number.value ∧ (negative = false ∨ number.coefficient = 0) := by
  cases negative with
  | false => exact ⟨h, .inl rfl⟩
  | true =>
    rw [if_pos rfl] at h
    have hnonneg := value_nonneg number
    have hzero : number.coefficient = 0 := by
      by_contra hne
      have hpos := value_pos (Nat.pos_of_ne_zero hne)
      linarith
    exact ⟨by linarith, .inr hzero⟩

/-- The millionths of a number that is not too large are rounded to a fraction of one. -/
theorem scale_grid (hpos : 0 < number.coefficient) (hmax : number.value ≤ (MAX_MINOR : ℚ) / UNITS)
    {d : Int} (hlow : (10 : ℚ) ^ (d - 1) ≤ number.value * UNITS)
    (hhigh : number.value * UNITS < (10 : ℚ) ^ d) :
    (⟨number.coefficient * UNITS.toNat, number.exponent⟩ : Number).grid PRECISION ETINY =
        max (d - 28) (-1000026) ∧ max (d - 28) (-1000026) < 0 := by
  have hbounds := Number.value_bounds (x := ⟨number.coefficient * UNITS.toNat, number.exponent⟩)
    (Nat.mul_pos hpos (by decide))
  rw [millionths_value] at hbounds
  have hscale := scale_unique hlow hhigh hbounds.1 hbounds.2
  have hd : d - 1 < 16 := by
    refine (zpow_lt_zpow_iff_right₀ (show (1 : ℚ) < 10 by norm_num)).mp ?_
    refine lt_of_le_of_lt hlow ?_
    have hscaled : number.value * 1000000 ≤ 10 ^ 15 / 1000000 * 1000000 :=
      mul_le_mul_of_nonneg_right hmax (by norm_num)
    exact lt_of_le_of_lt hscaled (by norm_num)
  constructor
  · unfold Number.grid
    rw [← hscale]
    rfl
  · omega

/-- What a text says: an amount is accepted when it is a whole number of millionths within the
bound, and returned as that. -/
def Exact (text : String) : Prop :=
  ∀ k : Int, amount unicode text = .ok k ↔
    ∃ v, written unicode text = some v ∧ v = (k : ℚ) / UNITS ∧ 0 ≤ k ∧ k ≤ MAX_MINOR

/-- The millionths that a text writes are whole, or farther from a whole number than half a
unit of their 28th digit; and not whole where the number is past what can be constructed. -/
def Distinct (text : String) : Prop :=
  ∀ v, written unicode text = some v → 0 ≤ v → v ≤ (MAX_MINOR : ℚ) / UNITS →
    (readDecimal unicode text = none → ¬ ∃ k : Int, v * UNITS = k) ∧
    (readDecimal unicode text ≠ none →
      ∀ d : Int, (10 : ℚ) ^ (d - 1) ≤ v * UNITS → v * UNITS < (10 : ℚ) ^ d →
        (∃ k : Int, v * UNITS = k) ∨
          ∀ k : Int, (10 : ℚ) ^ max (d - 28) (-1000026) / 2 < |v * UNITS - k|)

theorem bounded_iff {v : ℚ} {k : Int} (h : v * UNITS = k) :
    (0 ≤ v ∧ v ≤ (MAX_MINOR : ℚ) / UNITS) ↔ 0 ≤ k ∧ k ≤ MAX_MINOR := by
  have hunits : (0 : ℚ) < (UNITS : ℚ) := by
    unfold UNITS
    norm_num
  rw [le_div_iff₀ hunits, h]
  constructor
  · rintro ⟨h0, hle⟩
    refine ⟨?_, by exact_mod_cast hle⟩
    have hk : (0 : ℚ) ≤ k := by
      rw [← h]
      exact mul_nonneg h0 hunits.le
    exact_mod_cast hk
  · rintro ⟨h0, hle⟩
    refine ⟨?_, by exact_mod_cast hle⟩
    have hk : 0 ≤ v * UNITS := by
      rw [h]
      exact_mod_cast h0
    exact nonneg_of_mul_nonneg_left hk hunits

/-- A whole number of millionths is accepted as what it is. -/
theorem scale_integer (hmax : number.value ≤ (MAX_MINOR : ℚ) / UNITS) {k : Int}
    (h : number.value * UNITS = k) : (scale number).value = k := by
  by_cases hzero : number.coefficient = 0
  · rw [scale_zero hzero, ← h, Number.value, hzero]
    simp
  have hpos : 0 < number.coefficient := Nat.pos_of_ne_zero hzero
  have hbounds := Number.value_bounds
    (x := ⟨number.coefficient * UNITS.toNat, number.exponent⟩) (Nat.mul_pos hpos (by decide))
  rw [millionths_value] at hbounds
  obtain ⟨hgrid, hneg⟩ := scale_grid hpos hmax hbounds.1 hbounds.2
  refine Number.round_integer (by rw [hgrid]; exact hneg) ?_
  rw [millionths_value, h]

/-- **Exact coin parsing.**  `amount` accepts what a text says and nothing else, exactly when the
millionths that the text writes are not within the rounding of the product, nor past what can
be constructed. -/
theorem amount_exact_iff (text : String) : Exact unicode text ↔ Distinct unicode text := by
  have hunits : (0 : ℚ) < (UNITS : ℚ) := by
    unfold UNITS
    norm_num
  have hdiv : ∀ {v : ℚ} {k : Int}, v = (k : ℚ) / UNITS ↔ v * UNITS = k := by
    intro v k
    exact eq_div_iff hunits.ne'
  constructor
  · intro hexact v hv h0 hmax
    refine ⟨fun hnone hwhole => ?_, fun hconstructed d hlow hhigh => ?_⟩
    · obtain ⟨k, hk⟩ := hwhole
      have hbounds := (bounded_iff hk).mp ⟨h0, hmax⟩
      have haccepted := (hexact k).mpr ⟨v, hv, hdiv.mpr hk, hbounds⟩
      obtain ⟨negative, number, hread, -⟩ := (amount_ok unicode).mp haccepted
      rw [hnone] at hread
      cases hread
    by_cases hinteger : ∃ k : Int, v * UNITS = k
    · exact .inl hinteger
    right
    intro k
    by_contra hnear
    rw [not_lt] at hnear
    obtain ⟨negative, number, hread, hsign⟩ := (written_iff unicode).mp hv
    replace hread := (readDecimal_or unicode hread).resolve_left hconstructed
    obtain ⟨hvalue, hnegative⟩ := unsigned hsign h0
    rw [hvalue] at hmax hlow hhigh hnear hinteger
    have hpos : 0 < number.coefficient := by
      by_contra hzero
      have hzero : number.coefficient = 0 := by omega
      refine hinteger ⟨0, ?_⟩
      rw [Number.value, hzero]
      simp
    obtain ⟨hgrid, hneg⟩ := scale_grid hpos hmax hlow hhigh
    rw [← hgrid, ← millionths_value] at hnear
    obtain ⟨n, hn⟩ := (Number.round_integer_iff (by rw [hgrid]; exact hneg)).mpr ⟨k, hnear⟩
    obtain ⟨v', hv', heq, -⟩ := (hexact n).mp
      ((amount_ok unicode).mpr ⟨negative, number, hread, hnegative, hmax, hn⟩)
    rw [hv] at hv'
    rw [← Option.some.inj hv', hvalue] at heq
    exact hinteger ⟨n, hdiv.mp heq⟩
  · intro hdistinct k
    rw [amount_ok]
    constructor
    · rintro ⟨negative, number, hread, hsign, hmax, hk⟩
      have hwritten : written unicode text = some number.value := by
        refine (written_iff unicode).mpr
          ⟨negative, number, readNumber_of_readDecimal unicode hread, ?_⟩
        rcases hsign with hsign | hzero
        · rw [hsign]
          rfl
        · have hnone : number.value = 0 := by
            rw [Number.value, hzero]
            simp
          rw [hnone]
          simp
      have hnonneg := value_nonneg number
      have hexact : number.value * UNITS = k := by
        by_cases hzero : number.coefficient = 0
        · rw [← hk, scale_zero hzero, Number.value, hzero]
          simp
        have hpos : 0 < number.coefficient := Nat.pos_of_ne_zero hzero
        have hbounds := Number.value_bounds
          (x := ⟨number.coefficient * UNITS.toNat, number.exponent⟩)
          (Nat.mul_pos hpos (by decide))
        rw [millionths_value] at hbounds
        obtain ⟨hgrid, hneg⟩ := scale_grid hpos hmax hbounds.1 hbounds.2
        rcases (hdistinct _ hwritten hnonneg hmax).2 (by simp [hread]) _ hbounds.1 hbounds.2
          with ⟨n, hn⟩ | hfar
        · have hsame := scale_integer hmax hn
          rw [hk] at hsame
          rw [hn, ← hsame]
        · -- the rounded number would be a whole number within half a unit
          obtain ⟨n, hn⟩ := (Number.round_integer_iff (by rw [hgrid]; exact hneg)).mp ⟨k, hk⟩
          rw [hgrid, millionths_value] at hn
          exact absurd hn (not_le.mpr (hfar n))
      obtain ⟨h0, hle⟩ := (bounded_iff hexact).mp ⟨hnonneg, hmax⟩
      exact ⟨number.value, hwritten, hdiv.mpr hexact, h0, hle⟩
    · rintro ⟨v, hv, heq, h0, hle⟩
      obtain ⟨negative, number, hread, hsign⟩ := (written_iff unicode).mp hv
      have hexact := hdiv.mp heq
      obtain ⟨hnonneg, hmax⟩ := (bounded_iff hexact).mpr ⟨h0, hle⟩
      replace hread := (readDecimal_or unicode hread).resolve_left fun hnone =>
        (hdistinct v hv hnonneg hmax).1 hnone ⟨k, hexact⟩
      have hvalue := unsigned hsign hnonneg
      rw [hvalue.1] at hmax hexact
      exact ⟨negative, number, hread, hvalue.2, hmax, scale_integer hmax hexact⟩

/-- Twenty-nine digits: the last one is lost in the product, and what is left is whole. -/
theorem rounded_amount_accepted :
    ¬ Exact (fun _ => none) "1.0000000000000000000000000001" := by
  intro hexact
  have hamount : amount (fun _ => none) "1.0000000000000000000000000001" = .ok 1000000 := by
    decide +kernel
  have hwritten : written (fun _ => none) "1.0000000000000000000000000001" =
      some (10000000000000000000000000001 / 10000000000000000000000000000) := by
    decide +kernel
  obtain ⟨v, hv, heq, -⟩ := (hexact 1000000).mp hamount
  rw [hwritten] at hv
  rw [← Option.some.inj hv] at heq
  unfold UNITS at heq
  norm_num at heq

example : amount (fun _ => none) " 12_5.000000 " = .ok 125000000 := by decide +kernel

example : (readDecimal (fun _ => none) "0e9999999999999999999999").isNone := by decide +kernel

end Exchange
