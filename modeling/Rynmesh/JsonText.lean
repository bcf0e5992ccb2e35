import Mathlib.Data.List.Basic
import Mathlib.Data.List.Nodup
import Rynmesh.JsonValue

/-!
# The text of a JSON value

* `text` is `json.dumps` without spaces and without escapes for other alphabets;
* `parse` is `json.loads`, which keeps the last of several values of a key;
* `Written` are the values that Python has; `parse_text`: they are read back from their text.

The reader takes a bound on its steps; twice the length of a text is enough.
-/

namespace Json

/-! ### Writing -/

def hexDigits : List Char := "0123456789abcdef".toList

def escape (c : Char) : List Char :=
  if c = '"' then ['\\', '"']
  else if c = '\\' then ['\\', '\\']
  else if c = '\n' then ['\\', 'n']
  else if c = '\r' then ['\\', 'r']
  else if c = '\t' then ['\\', 't']
  else if c.toNat = 8 then ['\\', 'b']
  else if c.toNat = 12 then ['\\', 'f']
  else if c.toNat < 32 then
    ['\\', 'u', '0', '0', hexDigits.getD (c.toNat / 16) '0', hexDigits.getD (c.toNat % 16) '0']
  else [c]

def quote (s : String) : List Char := '"' :: (s.toList.flatMap escape ++ ['"'])

mutual

def text : Json → List Char
  | .null => "null".toList
  | .bool b => if b then "true".toList else "false".toList
  | .int n => (toString n).toList
  | .float _ text => text.toList
  | .str s => quote s
  | .arr items => '[' :: (textItems items ++ [']'])
  | .obj fields => '{' :: (textFields fields ++ ['}'])
termination_by structural a => a

def textItems : List Json → List Char
  | [] => []
  | a :: as => text a ++ (if as.isEmpty then [] else ',' :: textItems as)
termination_by structural a => a

def textFields : List (String × Json) → List Char
  | [] => []
  | f :: rest => textField f ++ (if rest.isEmpty then [] else ',' :: textFields rest)
termination_by structural a => a

def textField : String × Json → List Char
  | (k, v) => quote k ++ ':' :: text v
termination_by structural a => a

end

/-! ### Reading -/

def isSpace (c : Char) : Bool := c = ' ' || c = '\n' || c = '\r' || c = '\t'

def skipSpace (cs : List Char) : List Char := cs.dropWhile isSpace

/-- What stands after a word. -/
def after : List Char → List Char → Option (List Char)
  | [], rest => some rest
  | c :: word, d :: rest => if c = d then after word rest else none
  | _ :: _, [] => none

def hexValue (c : Char) : Option Nat :=
  if c.isDigit then some (c.toNat - 48)
  else if 'a' ≤ c ∧ c ≤ 'f' then some (c.toNat - 87)
  else if 'A' ≤ c ∧ c ≤ 'F' then some (c.toNat - 55)
  else none

/-- Four hexadecimal digits. -/
def readHex : List Char → Option (Nat × List Char)
  | a :: b :: c :: d :: rest => do
      let a ← hexValue a
      let b ← hexValue b
      let c ← hexValue c
      let d ← hexValue d
      return (((a * 16 + b) * 16 + c) * 16 + d, rest)
  | _ => none

/-- The second half of a character beyond the sixteen bits. -/
def readLow (high : Nat) (rest : List Char) : Option (Char × List Char) := do
  let rest ← after ['\\', 'u'] rest
  let (low, rest) ← readHex rest
  if 0xDC00 ≤ low ∧ low ≤ 0xDFFF then
    return (Char.ofNat (0x10000 + (high - 0xD800) * 0x400 + (low - 0xDC00)), rest)
  else none

/-- What follows a backslash; half a character is no text here. -/
def readEscape : List Char → Option (Char × List Char)
  | '"' :: rest => some ('"', rest)
  | '\\' :: rest => some ('\\', rest)
  | '/' :: rest => some ('/', rest)
  | 'b' :: rest => some (Char.ofNat 8, rest)
  | 'f' :: rest => some (Char.ofNat 12, rest)
  | 'n' :: rest => some ('\n', rest)
  | 'r' :: rest => some ('\r', rest)
  | 't' :: rest => some ('\t', rest)
  | 'u' :: rest => do
      let (n, rest) ← readHex rest
      if 0xD800 ≤ n ∧ n ≤ 0xDBFF then readLow n rest
      else if 0xDC00 ≤ n ∧ n ≤ 0xDFFF then none
      else return (Char.ofNat n, rest)
  | _ => none

/-- The characters up to the closing quote. -/
def readChars : Nat → List Char → Option (List Char × List Char)
  | 0, _ | _ + 1, [] => none
  | n + 1, c :: rest =>
      if c = '"' then some ([], rest)
      else if c = '\\' then do
        let (d, rest) ← readEscape rest
        let (ds, rest) ← readChars n rest
        return (d :: ds, rest)
      else if c.toNat < 32 then none
      else do
        let (ds, rest) ← readChars n rest
        return (c :: ds, rest)

/-- Digits after a mark; where there are none, nothing is read. -/
def readDigits (mark : List Char) (cs : List Char) : List Char × List Char :=
  let digits := cs.takeWhile Char.isDigit
  if digits = [] then ([], mark ++ cs) else (mark ++ digits, cs.dropWhile Char.isDigit)

def readFraction : List Char → List Char × List Char
  | '.' :: rest => readDigits ['.'] rest
  | rest => ([], rest)

def readExponent : List Char → List Char × List Char
  | e :: s :: rest =>
      if e ≠ 'e' ∧ e ≠ 'E' then ([], e :: s :: rest)
      else if s = '+' ∨ s = '-' then readDigits [e, s] rest
      else readDigits [e] (s :: rest)
  | rest => ([], rest)

/-- The whole part of a number: no digit follows a leading zero. -/
def readWhole (cs : List Char) : List Char × List Char :=
  match cs with
  | '0' :: rest => (['0'], rest)
  | cs => (cs.takeWhile Char.isDigit, cs.dropWhile Char.isDigit)

/-- A number; `float` reads the ones with a fraction or an exponent. -/
def readNumber (float : String → Json) (cs : List Char) : Option (Json × List Char) :=
  let sign := if cs.head? = some '-' then ['-'] else []
  let (whole, rest) := readWhole (cs.drop sign.length)
  if whole = [] then
    (after "NaN".toList cs).map ((float "NaN", ·)) <|>
      (after "Infinity".toList cs).map ((float "Infinity", ·)) <|>
      (after "-Infinity".toList cs).map ((float "-Infinity", ·))
  else
    let (fraction, rest) := readFraction rest
    let (exponent, rest) := readExponent rest
    if fraction = [] ∧ exponent = [] then
      let n : Int := Nat.ofDigitChars 10 whole 0
      some (.int (if sign = [] then n else -n), rest)
    else some (float (String.ofList (sign ++ whole ++ fraction ++ exponent)), rest)

mutual

/-- A value, with what stands after it. -/
def readValue (float : String → Json) : Nat → List Char → Option (Json × List Char)
  | 0, _ => none
  | n + 1, cs =>
      match skipSpace cs with
      | '"' :: rest => (readChars (rest.length + 1) rest).map fun r => (.str (.ofList r.1), r.2)
      | '[' :: rest =>
          match skipSpace rest with
          | ']' :: rest => some (.arr [], rest)
          | rest => (readItems float n rest).map fun r => (.arr r.1, r.2)
      | '{' :: rest =>
          match skipSpace rest with
          | '}' :: rest => some (.obj [], rest)
          | rest => (readFields float n rest).map fun r =>
              (.obj (r.1.foldl (fun fields f => Dict.assign f.1 f.2 fields) []), r.2)
      | 'n' :: rest => (after "ull".toList rest).map ((.null, ·))
      | 't' :: rest => (after "rue".toList rest).map ((.bool true, ·))
      | 'f' :: rest => (after "alse".toList rest).map ((.bool false, ·))
      | cs => readNumber float cs
termination_by structural n => n

def readItems (float : String → Json) : Nat → List Char → Option (List Json × List Char)
  | 0, _ => none
  | n + 1, cs => do
      let (v, rest) ← readValue float n cs
      match skipSpace rest with
      | ']' :: rest => return ([v], rest)
      | ',' :: rest => do
          let (vs, rest) ← readItems float n rest
          return (v :: vs, rest)
      | _ => none
termination_by structural n => n

def readFields (float : String → Json) :
    Nat → List Char → Option (List (String × Json) × List Char)
  | 0, _ => none
  | n + 1, cs => do
      let rest ← after ['"'] (skipSpace cs)
      let (k, rest) ← readChars (rest.length + 1) rest
      let rest ← after [':'] (skipSpace rest)
      let (v, rest) ← readValue float n rest
      match skipSpace rest with
      | '}' :: rest => return ([(.ofList k, v)], rest)
      | ',' :: rest => do
          let (fields, rest) ← readFields float n rest
          return ((.ofList k, v) :: fields, rest)
      | _ => none
termination_by structural n => n

end

/-- `json.loads`; nothing but space may follow the value. -/
def parse (float : String → Json) (cs : List Char) : Option Json := do
  let (v, rest) ← readValue float (2 * cs.length + 1) cs
  if skipSpace rest = [] then some v else none

/-! ### Reading what was written -/

/-- Digits, at least one. -/
def Digits (cs : List Char) : Prop := cs ≠ [] ∧ ∀ c ∈ cs, c.isDigit = true

/-- The parts of a written number; no digit follows a leading zero. -/
structure Numeral (sign whole fraction exponent : List Char) : Prop where
  sign : sign = [] ∨ sign = ['-']
  whole : whole = ['0'] ∨ Digits whole ∧ whole.head? ≠ some '0'
  fraction : fraction = [] ∨ ∃ digits, fraction = '.' :: digits ∧ Digits digits
  exponent : exponent = [] ∨
    ∃ s digits, exponent = 'e' :: s :: digits ∧ (s = '+' ∨ s = '-') ∧ Digits digits

/-- `float.__repr__`, with the names that JSON gives to what is no number. -/
def FloatText (cs : List Char) : Prop :=
  cs = "NaN".toList ∨ cs = "Infinity".toList ∨ cs = "-Infinity".toList ∨
    ∃ sign whole fraction exponent, Numeral sign whole fraction exponent ∧
      ¬ (fraction = [] ∧ exponent = []) ∧ cs = sign ++ whole ++ fraction ++ exponent

mutual

/-- A value of Python: a float is read from its text, an object has each key once. -/
def Written (float : String → Json) : Json → Prop
  | .null | .bool _ | .str _ | .int _ => True
  | .float value text => FloatText text.toList ∧ float text = .float value text
  | .arr items => WrittenItems float items
  | .obj fields => (fields.map Prod.fst).Nodup ∧ WrittenFields float fields
termination_by structural a => a

def WrittenItems (float : String → Json) : List Json → Prop
  | [] => True
  | a :: as => Written float a ∧ WrittenItems float as
termination_by structural a => a

def WrittenFields (float : String → Json) : List (String × Json) → Prop
  | [] => True
  | f :: rest => WrittenField float f ∧ WrittenFields float rest
termination_by structural a => a

def WrittenField (float : String → Json) : String × Json → Prop
  | (_, v) => Written float v
termination_by structural a => a

end

/-- What may follow a value. -/
def Ends (rest : List Char) : Prop := ∀ c ∈ rest.head?, c = ',' ∨ c = ']' ∨ c = '}'

theorem hexValue_hexDigits : ∀ d < 16, hexValue (hexDigits.getD d '0') = some d := by
  decide

theorem readEscape_escape {c : Char} {cs : List Char} (h : escape c = '\\' :: cs)
    (rest : List Char) : readEscape (cs ++ rest) = some (c, rest) := by
  unfold escape at h
  split_ifs at h with hquote hslash hn hr ht hb hf hcontrol
  · cases h
    rw [hquote]
    rfl
  · cases h
    rw [hslash]
    rfl
  · cases h
    rw [hn]
    rfl
  · cases h
    rw [hr]
    rfl
  · cases h
    rw [ht]
    rfl
  · cases h
    exact congrArg (fun d => some (d, rest)) (hb ▸ Char.ofNat_toNat c)
  · cases h
    exact congrArg (fun d => some (d, rest)) (hf ▸ Char.ofNat_toNat c)
  · cases h
    have hhex : readHex ('0' :: '0' :: hexDigits.getD (c.toNat / 16) '0' ::
        hexDigits.getD (c.toNat % 16) '0' :: rest) = some (c.toNat, rest) := by
      have hzero : hexValue '0' = some 0 := rfl
      have hsum : ((0 * 16 + 0) * 16 + c.toNat / 16) * 16 + c.toNat % 16 = c.toNat := by omega
      simp only [readHex, hzero, hexValue_hexDigits _ (show c.toNat / 16 < 16 by omega),
        hexValue_hexDigits _ (show c.toNat % 16 < 16 by omega), Option.bind_eq_bind,
        Option.bind_some, hsum]
      rfl
    show (readHex ('0' :: '0' :: hexDigits.getD (c.toNat / 16) '0' ::
      hexDigits.getD (c.toNat % 16) '0' :: rest) >>= _) = _
    rw [hhex, Option.bind_eq_bind, Option.bind_some]
    show (if _ then _ else if _ then _ else _) = _
    rw [if_neg (by omega), if_neg (by omega), Char.ofNat_toNat]
    rfl
  · rw [List.cons.injEq] at h
    exact absurd h.1 hslash

theorem readChars_escape (n : Nat) (c : Char) (rest : List Char) :
    readChars (n + 1) (escape c ++ rest) =
      (readChars n rest).map fun r => (c :: r.1, r.2) := by
  by_cases hplain : escape c = [c]
  · have hquote : c ≠ '"' := by
      intro h
      subst h
      exact absurd hplain (by decide)
    have hslash : c ≠ '\\' := by
      intro h
      subst h
      exact absurd hplain (by decide)
    have hcontrol : ¬ c.toNat < 32 := by
      intro h
      unfold escape at hplain
      split_ifs at hplain <;> simp_all
    rw [hplain, List.singleton_append, readChars, if_neg hquote, if_neg hslash, if_neg hcontrol]
    cases readChars n rest <;> rfl
  · have hescape : ∃ cs, escape c = '\\' :: cs := by
      unfold escape at hplain ⊢
      split_ifs at hplain ⊢ <;> first | exact ⟨_, rfl⟩ | exact absurd rfl hplain
    obtain ⟨cs, hcs⟩ := hescape
    have hread := readEscape_escape hcs rest
    rw [hcs, List.cons_append, readChars, if_neg (by decide), if_pos rfl, hread,
      Option.bind_eq_bind, Option.bind_some]
    show (readChars n rest >>= _) = _
    cases hrest : readChars n rest <;> simp

theorem readChars_quoted (cs rest : List Char) (n : Nat) (hn : cs.length < n) :
    readChars n (cs.flatMap escape ++ '"' :: rest) = some (cs, rest) := by
  induction cs generalizing n with
  | nil =>
    cases n with
    | zero => omega
    | succ n => rfl
  | cons c cs ih =>
    cases n with
    | zero => omega
    | succ n =>
      rw [List.flatMap_cons, List.append_assoc, readChars_escape,
        ih n (by simpa using hn)]
      rfl

theorem length_le_flatMap_escape (cs : List Char) : cs.length ≤ (cs.flatMap escape).length := by
  induction cs with
  | nil => exact le_rfl
  | cons c cs ih =>
    have hone : 1 ≤ (escape c).length := by
      unfold escape
      split_ifs <;> simp
    rw [List.flatMap_cons, List.length_append, List.length_cons]
    omega

theorem readChars_quote (s : String) (rest : List Char) :
    readChars ((s.toList.flatMap escape ++ '"' :: rest).length + 1)
      (s.toList.flatMap escape ++ '"' :: rest) = some (s.toList, rest) := by
  refine readChars_quoted _ _ _ ?_
  have hle := length_le_flatMap_escape s.toList
  rw [List.length_append]
  omega

theorem skipSpace_cons {c : Char} (h : isSpace c = false) (cs : List Char) :
    skipSpace (c :: cs) = c :: cs := by
  rw [skipSpace, List.dropWhile_cons_of_neg (by simp [h])]

theorem foldl_assign (fields done : List (String × Json))
    (h : ((done ++ fields).map Prod.fst).Nodup) :
    fields.foldl (fun fields f => Dict.assign f.1 f.2 fields) done = done ++ fields := by
  induction fields generalizing done with
  | nil => simp
  | cons f rest ih =>
    have hnew : f.1 ∉ done.map Prod.fst := by
      rw [List.map_append, List.nodup_append] at h
      exact fun hmem => h.2.2 _ hmem _ (List.mem_map_of_mem (.head _)) rfl
    have hdone : (done.map Prod.fst).Nodup := by
      rw [List.map_append, List.nodup_append] at h
      exact h.1
    have hassign : Dict.assign f.1 f.2 done = done ++ [f] :=
      Dict.entries_set_of_new (d := ⟨done, hdone⟩) f.2 hnew
    rw [List.foldl_cons, hassign, ih _ (by simpa using h)]
    simp

theorem span_digits {digits rest : List Char} (h : ∀ c ∈ digits, c.isDigit = true)
    (hr : ∀ c ∈ rest.head?, c.isDigit = false) :
    (digits ++ rest).takeWhile Char.isDigit = digits ∧
      (digits ++ rest).dropWhile Char.isDigit = rest := by
  rw [List.takeWhile_append_of_pos h, List.dropWhile_append_of_pos h]
  cases rest with
  | nil => simp
  | cons c rest => simp [hr c rfl]

theorem Ends.head {rest : List Char} (h : Ends rest) {p : Char → Prop} (hcomma : p ',')
    (hitem : p ']') (hfield : p '}') : ∀ c ∈ rest.head?, p c := by
  intro c hc
  obtain rfl | rfl | rfl := h c hc
  · exact hcomma
  · exact hitem
  · exact hfield

/-- A first digit is no zero when another one follows. -/
theorem toDigits_numeral (n : Nat) : Nat.toDigits 10 n = ['0'] ∨
    Digits (Nat.toDigits 10 n) ∧ (Nat.toDigits 10 n).head? ≠ some '0' := by
  by_cases hn : n = 0
  · exact .inl (hn ▸ Nat.toDigits_zero 10)
  have hhead : (Nat.toDigits 10 n).head? ≠ some '0' := by
    induction n using Nat.strong_induction_on with
    | _ n ih =>
      rcases Nat.lt_or_ge n 10 with hlt | hge
      · interval_cases n <;> first | exact absurd rfl hn | decide
      · have hne := Nat.toDigits_ne_nil (n := n / 10) (b := 10)
        rw [Nat.toDigits_of_base_le (by decide) hge, List.head?_append_of_ne_nil _ hne]
        exact ih (n / 10) (by omega) (by omega)
  exact .inr ⟨⟨Nat.toDigits_ne_nil, fun c hc =>
    Nat.isDigit_of_mem_toDigits (by decide) (by decide) hc⟩, hhead⟩

theorem Numeral.int (n : Int) : ∃ sign whole, text (.int n) = sign ++ whole ∧
    Numeral sign whole [] [] ∧
      (if sign = [] then (Nat.ofDigitChars 10 whole 0 : Int)
        else -(Nat.ofDigitChars 10 whole 0 : Int)) = n := by
  cases n with
  | ofNat m =>
    refine ⟨[], Nat.toDigits 10 m, Nat.toList_repr,
      ⟨.inl rfl, toDigits_numeral m, .inl rfl, .inl rfl⟩, ?_⟩
    rw [if_pos rfl, Nat.ofDigitChars_ten_toDigits]
    rfl
  | negSucc m =>
    refine ⟨['-'], Nat.toDigits 10 (m + 1), ?_,
      ⟨.inr rfl, toDigits_numeral _, .inl rfl, .inl rfl⟩, ?_⟩
    · show ("-" ++ (m + 1).repr).toList = _
      rw [String.toList_append, Nat.toList_repr]
      rfl
    · rw [if_neg (by decide), Nat.ofDigitChars_ten_toDigits]
      rfl

section Values

variable (float : String → Json) {sign whole fraction exponent rest : List Char}

theorem readWhole_numeral (h : whole = ['0'] ∨ Digits whole ∧ whole.head? ≠ some '0')
    (hr : ∀ c ∈ rest.head?, c.isDigit = false) : readWhole (whole ++ rest) = (whole, rest) := by
  obtain rfl | ⟨⟨hne, hdigits⟩, hhead⟩ := h
  · rfl
  · obtain ⟨htake, hdrop⟩ := span_digits hdigits hr
    unfold readWhole
    split
    · rename_i heq
      cases whole with
      | nil => exact absurd rfl hne
      | cons c cs => exact absurd (congrArg some (List.head_eq_of_cons_eq heq)) hhead
    · rw [htake, hdrop]

theorem readDigits_numeral (mark : List Char) {digits : List Char} (h : Digits digits)
    (hr : ∀ c ∈ rest.head?, c.isDigit = false) :
    readDigits mark (digits ++ rest) = (mark ++ digits, rest) := by
  obtain ⟨htake, hdrop⟩ := span_digits h.2 hr
  unfold readDigits
  simp only [htake, hdrop, if_neg h.1]

/-- **A number is read up to what may follow it.** -/
theorem readNumber_numeral (h : Numeral sign whole fraction exponent) (hr : Ends rest) :
    readNumber float (sign ++ (whole ++ (fraction ++ (exponent ++ rest)))) =
      some (if fraction = [] ∧ exponent = [] then
          .int (if sign = [] then (Nat.ofDigitChars 10 whole 0 : Int)
            else -(Nat.ofDigitChars 10 whole 0 : Int))
        else float (String.ofList (sign ++ whole ++ fraction ++ exponent)), rest) := by
  have hexponent : readExponent (exponent ++ rest) = (exponent, rest) := by
    obtain rfl | ⟨s, digits, rfl, hs, hdigits⟩ := h.exponent
    · match rest, hr with
      | [], _ | [_], _ => rfl
      | e :: s :: rest, hr =>
        obtain rfl | rfl | rfl := hr e rfl <;> rfl
    · show readExponent ('e' :: s :: (digits ++ rest)) = _
      rw [readExponent, if_neg (by decide), if_pos hs]
      exact readDigits_numeral ['e', s] hdigits (hr.head rfl rfl rfl)
  have hmore : ∀ c ∈ (exponent ++ rest).head?, c.isDigit = false ∧ c ≠ '.' := by
    obtain rfl | ⟨s, digits, rfl, -, -⟩ := h.exponent
    · exact hr.head (by decide) (by decide) (by decide)
    · rintro c ⟨⟩
      decide
  have hfraction : readFraction (fraction ++ (exponent ++ rest)) =
      (fraction, exponent ++ rest) := by
    obtain rfl | ⟨digits, rfl, hdigits⟩ := h.fraction
    · unfold readFraction
      split
      · rename_i heq
        exact absurd rfl (hmore '.' (by rw [← List.nil_append (exponent ++ rest), heq]; rfl)).2
      · rfl
    · exact readDigits_numeral ['.'] hdigits fun c hc => (hmore c hc).1
  have hwhole : readWhole (whole ++ (fraction ++ (exponent ++ rest))) =
      (whole, fraction ++ (exponent ++ rest)) := by
    refine readWhole_numeral h.whole ?_
    obtain rfl | ⟨digits, rfl, -⟩ := h.fraction
    · exact fun c hc => (hmore c hc).1
    · rintro c ⟨⟩
      rfl
  have hne : whole ≠ [] := by
    obtain rfl | ⟨hdigits, -⟩ := h.whole
    · exact List.cons_ne_nil _ _
    · exact hdigits.1
  have hsign : (if (sign ++ (whole ++ (fraction ++ (exponent ++ rest)))).head? = some '-' then ['-']
      else []) = sign := by
    obtain rfl | rfl := h.sign
    · refine if_neg fun hhead => ?_
      rw [List.nil_append, List.head?_append_of_ne_nil _ hne] at hhead
      obtain rfl | ⟨hdigits, -⟩ := h.whole
      · cases hhead
      · exact absurd (hdigits.2 _ (List.mem_of_head? hhead)) (by decide)
    · rfl
  unfold readNumber
  simp only [hsign, List.drop_left, hwhole, if_neg hne, hfraction, hexponent]
  split <;> rfl

/-- A mark that begins a number, which is none of the others. -/
def Leads (c : Char) : Prop :=
  isSpace c = false ∧ c ∉ [']', '"', '[', '{', 'n', 't', 'f']

theorem leads_digit {c : Char} (h : c.isDigit = true) : Leads c := by
  have hne : ∀ d : Char, d.isDigit = false → c ≠ d := by
    rintro d hd rfl
    exact absurd h (by rw [hd]; decide)
  have hmarks : ∀ d ∈ [' ', '\n', '\r', '\t', ']', '"', '[', '{', 'n', 't', 'f'], c ≠ d :=
    fun d hd => hne d (by revert d; simp)
  simp only [List.forall_mem_cons] at hmarks
  simp [Leads, isSpace, hmarks]

theorem Numeral.head (h : Numeral sign whole fraction exponent) (rest : List Char) :
    ∃ c cs, sign ++ (whole ++ rest) = c :: cs ∧ Leads c := by
  obtain hsign | rfl := h.sign
  · obtain rfl | ⟨⟨hne, hdigits⟩, -⟩ := h.whole
    · exact ⟨'0', rest, by rw [hsign]; rfl, by decide, by decide⟩
    · cases whole with
      | nil => exact absurd rfl hne
      | cons c cs =>
        exact ⟨c, cs ++ rest, by rw [hsign]; rfl, leads_digit (hdigits c (.head _))⟩
  · exact ⟨'-', whole ++ rest, rfl, by decide, by decide⟩

theorem readValue_number {c : Char} (h : Leads c) (n : Nat) (cs : List Char) :
    readValue float (n + 1) (c :: cs) = readNumber float (c :: cs) := by
  have hmarks := h.2
  rw [readValue, skipSpace, List.dropWhile_cons_of_neg (by simp [h.1])]
  split <;> simp_all

/-- A written number leads with its own mark, and is read. -/
theorem number_text {v : Json} (hv : Written float v)
    (hnumber : (∃ n, v = .int n) ∨ ∃ value text, v = .float value text) :
    ∃ c cs, text v = c :: cs ∧ Leads c ∧
      ∀ rest, Ends rest → readNumber float (text v ++ rest) = some (v, rest) := by
  obtain ⟨n, rfl⟩ | ⟨value, written, rfl⟩ := hnumber
  · obtain ⟨sign, whole, htext, hnumeral, hvalue⟩ := Numeral.int n
    obtain ⟨c, cs, hcs, hlead⟩ := hnumeral.head []
    refine ⟨c, cs, by rw [htext, ← hcs, List.append_nil], hlead, fun rest hr => ?_⟩
    rw [htext, List.append_assoc]
    refine (readNumber_numeral float hnumeral hr).trans ?_
    rw [if_pos ⟨rfl, rfl⟩, hvalue]
  · obtain ⟨hwritten, hfloat⟩ := hv
    obtain h | h | h | ⟨sign, whole, fraction, exponent, hnumeral, hpart, htext⟩ := hwritten
    · obtain rfl := String.toList_inj.mp h
      exact ⟨'N', _, rfl, ⟨rfl, by decide⟩, fun rest _ => congrArg (fun x => some (x, rest)) hfloat⟩
    · obtain rfl := String.toList_inj.mp h
      exact ⟨'I', _, rfl, ⟨rfl, by decide⟩, fun rest _ => congrArg (fun x => some (x, rest)) hfloat⟩
    · obtain rfl := String.toList_inj.mp h
      exact ⟨'-', _, rfl, ⟨rfl, by decide⟩, fun rest _ => congrArg (fun x => some (x, rest)) hfloat⟩
    · obtain ⟨c, cs, hcs, hlead⟩ := hnumeral.head (fraction ++ exponent)
      refine ⟨c, cs, by rw [text, htext, ← hcs]; simp, hlead, fun rest hr => ?_⟩
      rw [text, htext]
      simp only [List.append_assoc]
      rw [readNumber_numeral float hnumeral hr, if_neg hpart, ← htext, String.ofList_toList, hfloat]

/-- A value starts with a mark that is no space and closes nothing. -/
theorem text_head {v : Json} (h : Written float v) :
    ∃ c cs, text v = c :: cs ∧ isSpace c = false ∧ c ≠ ']' := by
  have hnumber : ((∃ n, v = .int n) ∨ ∃ value text, v = .float value text) →
      ∃ c cs, text v = c :: cs ∧ isSpace c = false ∧ c ≠ ']' := by
    intro hv
    obtain ⟨c, cs, hcs, ⟨hspace, hmarks⟩, -⟩ := number_text float h hv
    exact ⟨c, cs, hcs, hspace, fun hc => hmarks (hc ▸ (.head _))⟩
  cases v with
  | null => exact ⟨'n', _, rfl, by decide, by decide⟩
  | bool b =>
    cases b with
    | true => exact ⟨'t', _, rfl, by decide, by decide⟩
    | false => exact ⟨'f', _, rfl, by decide, by decide⟩
  | int n => exact hnumber (.inl ⟨n, rfl⟩)
  | float value text => exact hnumber (.inr ⟨value, text, rfl⟩)
  | str s => exact ⟨'"', _, rfl, by decide, by decide⟩
  | arr items => exact ⟨'[', _, rfl, by decide, by decide⟩
  | obj fields => exact ⟨'{', _, rfl, by decide, by decide⟩

theorem readValue_written {v : Json} (h : Written float v)
    (hnumber : (∃ n, v = .int n) ∨ ∃ value text, v = .float value text) {n : Nat}
    (hn : 2 * (text v).length ≤ n) (hr : Ends rest) :
    readValue float n (text v ++ rest) = some (v, rest) := by
  obtain ⟨c, cs, hcs, hlead, hread⟩ := number_text float h hnumber
  cases n with
  | zero => simp [hcs] at hn
  | succ n =>
    have hvalue := hread rest hr
    rw [hcs, List.cons_append] at hvalue ⊢
    rw [readValue_number float hlead, hvalue]

theorem readValue_open {c : Char} (hspace : isSpace c = false) (hclose : c ≠ ']') (n : Nat)
    (cs : List Char) : readValue float (n + 1) ('[' :: c :: cs) =
      (readItems float n (c :: cs)).map fun r => (.arr r.1, r.2) := by
  show (match skipSpace (c :: cs) with | ']' :: rest => _ | rest => _) = _
  rw [skipSpace_cons hspace]
  split
  · rename_i heq
    exact absurd (List.head_eq_of_cons_eq heq) hclose
  · rfl

theorem readItems_last {n : Nat} {cs rest : List Char} {v : Json}
    (h : readValue float n cs = some (v, ']' :: rest)) :
    readItems float (n + 1) cs = some ([v], rest) := by
  rw [readItems, h]
  rfl

theorem readItems_more {n : Nat} {cs rest : List Char} {v : Json}
    (h : readValue float n cs = some (v, ',' :: rest)) :
    readItems float (n + 1) cs = (readItems float n rest).map fun r => (v :: r.1, r.2) := by
  rw [readItems, h]
  show (readItems float n rest >>= _) = _
  cases readItems float n rest <;> rfl

theorem readValue_field (n : Nat) (cs : List Char) : readValue float (n + 1) ('{' :: '"' :: cs) =
    (readFields float n ('"' :: cs)).map fun r =>
      (.obj (r.1.foldl (fun fields f => Dict.assign f.1 f.2 fields) []), r.2) := rfl

theorem readFields_key (n : Nat) (k : String) (cs : List Char) :
    readFields float (n + 1) (quote k ++ ':' :: cs) = (readValue float n cs).bind fun r =>
      match skipSpace r.2 with
      | '}' :: rest => some ([(k, r.1)], rest)
      | ',' :: rest => (readFields float n rest).map fun s => ((k, r.1) :: s.1, s.2)
      | _ => none := by
  have hkey : (quote k ++ ':' :: cs) = '"' :: (k.toList.flatMap escape ++ '"' :: ':' :: cs) := by
    simp [quote]
  rw [hkey, readFields]
  show (readChars _ _ >>= _) = _
  rw [readChars_quote, Option.bind_eq_bind, Option.bind_some]
  show (readValue float n cs >>= _) = _
  cases readValue float n cs with
  | none => rfl
  | some r =>
    obtain ⟨v, rest⟩ := r
    rw [Option.bind_eq_bind, Option.bind_some, Option.bind_some, String.ofList_toList]
    dsimp only
    split
    · rfl
    · rename_i rest _
      show (readFields float n rest >>= _) = _
      cases readFields float n rest <;> rfl
    · rfl

mutual

theorem readValue_text : ∀ v, Written float v → ∀ n rest, 2 * (text v).length ≤ n → Ends rest →
    readValue float n (text v ++ rest) = some (v, rest)
  | .null, _, 0, _, hn, _ => by simp [text] at hn
  | .null, _, _ + 1, _, _, _ => rfl
  | .bool b, _, 0, _, hn, _ => by cases b <;> simp [text] at hn
  | .bool b, _, _ + 1, _, _, _ => by cases b <;> rfl
  | .int m, hv, _, _, hn, hr => readValue_written float hv (.inl ⟨m, rfl⟩) hn hr
  | .float value text, hv, _, _, hn, hr =>
      readValue_written float hv (.inr ⟨value, text, rfl⟩) hn hr
  | .str s, _, 0, _, hn, _ => by simp [text, quote] at hn
  | .str s, _, n + 1, rest, _, _ => by
      have hread := readChars_quote s rest
      show ((readChars _ ((s.toList.flatMap escape ++ ['"']).append rest)).map _) = _
      rw [show (s.toList.flatMap escape ++ ['"']).append rest =
        s.toList.flatMap escape ++ '"' :: rest by simp, hread]
      simp
  | .arr items, hv, 0, _, hn, _ => by simp [text] at hn
  | .arr [], _, n + 1, rest, _, _ => rfl
  | .arr (a :: as), hv, n + 1, rest, hn, _ => by
      have hitems := readItems_text (a :: as) (List.cons_ne_nil a as) hv n rest (by
        simp only [text, List.length_cons, List.length_append] at hn
        omega)
      obtain ⟨c, cs, hcs, hspace, hclose⟩ := text_head float hv.1
      have htext : textItems (a :: as) ++ ']' :: rest = c :: (cs ++
          ((if as.isEmpty then [] else ',' :: textItems as) ++ ']' :: rest)) := by
        simp [textItems, hcs]
      rw [text, List.cons_append, List.append_assoc, List.singleton_append, htext,
        readValue_open float hspace hclose, ← htext, hitems]
      rfl
  | .obj fields, hv, 0, _, hn, _ => by simp [text] at hn
  | .obj [], _, n + 1, rest, _, _ => rfl
  | .obj ((k, v) :: fields), hv, n + 1, rest, hn, _ => by
      have hfields := readFields_text ((k, v) :: fields) (List.cons_ne_nil _ fields) hv.2 n rest (by
        simp only [text, List.length_cons, List.length_append] at hn
        omega)
      have hfirst : ∃ cs, textFields ((k, v) :: fields) ++ '}' :: rest = '"' :: cs := by
        simp [textFields, textField, quote]
      obtain ⟨cs, hcs⟩ := hfirst
      rw [text, List.cons_append, List.append_assoc, List.singleton_append, hcs, readValue_field,
        ← hcs, hfields, Option.map_some, foldl_assign _ [] hv.1]
      rfl

theorem readItems_text : ∀ items, items ≠ [] → WrittenItems float items → ∀ n rest,
    2 * (textItems items).length + 1 ≤ n →
      readItems float n (textItems items ++ ']' :: rest) = some (items, rest)
  | [], hne, _, _, _, _ => absurd rfl hne
  | _ :: _, _, _, 0, _, hn => by omega
  | [a], _, hv, n + 1, rest, hn => by
      have hitem := readValue_text a hv.1 n (']' :: rest) (by
        simp only [textItems, List.isEmpty_nil, if_true, List.append_nil] at hn
        omega) (by simp [Ends])
      have htext : textItems [a] = text a := by simp [textItems]
      rw [htext, readItems_last float hitem]
  | a :: b :: as, _, hv, n + 1, rest, hn => by
      have htext : textItems (a :: b :: as) = text a ++ ',' :: textItems (b :: as) := rfl
      have hlength : (textItems (a :: b :: as)).length =
          (text a).length + ((textItems (b :: as)).length + 1) := by
        rw [htext, List.length_append, List.length_cons]
      have hitem := readValue_text a hv.1 n (',' :: (textItems (b :: as) ++ ']' :: rest))
        (by omega) (by simp [Ends])
      have hitems := readItems_text (b :: as) (List.cons_ne_nil b as) hv.2 n rest (by omega)
      rw [htext, List.append_assoc, List.cons_append, readItems_more float hitem, hitems]
      rfl

theorem readFields_text : ∀ fields, fields ≠ [] → WrittenFields float fields → ∀ n rest,
    2 * (textFields fields).length + 1 ≤ n →
      readFields float n (textFields fields ++ '}' :: rest) = some (fields, rest)
  | [], hne, _, _, _, _ => absurd rfl hne
  | _ :: _, _, _, 0, _, hn => by omega
  | [(k, v)], _, hv, n + 1, rest, hn => by
      have hlength : (textFields [(k, v)]).length = (quote k).length + ((text v).length + 1) := by
        simp [textFields, textField]
      have hvalue := readField_text (k, v) hv.1 n ('}' :: rest) (by
        show 2 * (text v).length ≤ n
        omega) (by simp [Ends])
      have htext : textFields [(k, v)] ++ '}' :: rest =
          quote k ++ ':' :: (text v ++ '}' :: rest) := by
        simp [textFields, textField]
      rw [htext, readFields_key, hvalue]
      rfl
  | (k, v) :: g :: more, _, hv, n + 1, rest, hn => by
      have hlength : (textFields ((k, v) :: g :: more)).length = (quote k).length +
          ((text v).length + ((textFields (g :: more)).length + 2)) := by
        simp only [textFields, textField, List.isEmpty_cons, Bool.false_eq_true, if_false,
          List.length_append, List.length_cons]
        omega
      have hvalue := readField_text (k, v) hv.1 n (',' :: (textFields (g :: more) ++ '}' :: rest))
        (by
          show 2 * (text v).length ≤ n
          omega) (by simp [Ends])
      have hfields := readFields_text (g :: more) (List.cons_ne_nil g more) hv.2 n rest (by omega)
      have htext : textFields ((k, v) :: g :: more) ++ '}' :: rest =
          quote k ++ ':' :: (text v ++ ',' :: (textFields (g :: more) ++ '}' :: rest)) := by
        simp [textFields, textField]
      rw [htext, readFields_key, hvalue]
      show (readFields float n (textFields (g :: more) ++ '}' :: rest)).map _ = _
      rw [hfields]
      rfl

theorem readField_text : ∀ f : String × Json, WrittenField float f → ∀ n rest,
    2 * (text f.2).length ≤ n → Ends rest → readValue float n (text f.2 ++ rest) = some (f.2, rest)
  | (_, v), hv, n, rest, hn, hr => readValue_text v hv n rest hn hr

end

/-- **A value is read back from its text.** -/
theorem parse_text {v : Json} (h : Written float v) : parse float (text v) = some v := by
  have hread := readValue_text float v h (2 * (text v).length + 1) [] (by omega) (by simp [Ends])
  rw [List.append_nil] at hread
  unfold parse
  rw [hread]
  rfl

end Values

end Json
