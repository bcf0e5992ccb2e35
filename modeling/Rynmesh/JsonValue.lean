import Rynmesh.InsertionDict
import Mathlib.Data.Nat.Digits.Defs
import Mathlib.Data.Nat.Digits.Lemmas

/-!
# JSON values as a Python program sees them

A program that compares, hashes and stores parsed JSON never observes the
order of the keys of an object: dictionary equality ignores it and the
canonical text sorts it.  An object is therefore held as the list of its
fields: a parsed one in key order, which `object` and `setField` keep, and one
that a function builds in the order it is built.  A float is held
with its exact value (none for NaN and the infinities) and its shortest text,
since Python compares floats with integers by value but prints them apart.

* `get?` reads a field, `HasKeys` is the test `set(value) == {..}`;
* `pyEq` is Python's `==`, under which `1`, `1.0` and `True` are equal;
* `size` is the number of bytes of the canonical text;
* `encode` is a prefix code, which shows that distinct values can be told
  apart by a string (`encode_injective`).
-/

/-- A parsed JSON value. -/
inductive Json
  | null
  | bool (value : Bool)
  | int (value : Int)
  | float (value : Option Rat) (text : String)
  | str (value : String)
  | arr (items : List Json)
  | obj (fields : List (String × Json))

namespace Json

instance : Inhabited Json := ⟨null⟩

/-! ### Equality -/

mutual

/-- Equality of values, field by field. -/
def same : Json → Json → Bool
  | .null, .null => true
  | .bool a, .bool b => a == b
  | .int a, .int b => a == b
  | .float a s, .float b t => a == b && s == t
  | .str a, .str b => a == b
  | .arr a, .arr b => sameItems a b
  | .obj a, .obj b => sameFields a b
  | _, _ => false
termination_by structural a => a

def sameItems : List Json → List Json → Bool
  | [], [] => true
  | a :: as, b :: bs => same a b && sameItems as bs
  | _, _ => false
termination_by structural a => a

def sameFields : List (String × Json) → List (String × Json) → Bool
  | [], [] => true
  | a :: as, b :: bs => sameField a b && sameFields as bs
  | _, _ => false
termination_by structural a => a

def sameField : String × Json → String × Json → Bool
  | (k, v), (k', v') => k == k' && same v v'
termination_by structural a => a

end

mutual

theorem same_iff : ∀ a b : Json, same a b = true ↔ a = b
  | .null, b => by cases b <;> simp [same]
  | .bool _, b => by cases b <;> simp [same]
  | .int _, b => by cases b <;> simp [same]
  | .float _ _, b => by cases b <;> simp [same]
  | .str _, b => by cases b <;> simp [same]
  | .arr a, b => by cases b <;> simp [same, sameItems_iff a]
  | .obj a, b => by cases b <;> simp [same, sameFields_iff a]

theorem sameItems_iff : ∀ a b : List Json, sameItems a b = true ↔ a = b
  | [], b => by cases b <;> simp [sameItems]
  | a :: as, b => by cases b <;> simp [sameItems, same_iff a, sameItems_iff as]

theorem sameFields_iff : ∀ a b : List (String × Json), sameFields a b = true ↔ a = b
  | [], b => by cases b <;> simp [sameFields]
  | a :: as, b => by cases b <;> simp [sameFields, sameField_iff a, sameFields_iff as]

theorem sameField_iff : ∀ a b : String × Json, sameField a b = true ↔ a = b
  | (k, v), (k', v') => by simp [sameField, same_iff v]

end

instance : DecidableEq Json := fun a b => decidable_of_iff _ (same_iff a b)

/-- The number a scalar denotes under Python's comparisons. -/
def number? : Json → Option Rat
  | .bool b => some (if b then 1 else 0)
  | .int n => some n
  | .float v _ => v
  | _ => none

mutual

/-- Python's `==`: numbers by value, objects up to key order. -/
def pyEq : Json → Json → Bool
  | .null, .null => true
  | .str a, .str b => a == b
  | .arr a, .arr b => pyEqItems a b
  | .obj a, .obj b => a.length == b.length && pyEqFields a b
  | .float none s, .float none t => s == t && s != "NaN"
  | a, b =>
      match a.number?, b.number? with
      | some x, some y => x == y
      | _, _ => false
termination_by structural a => a

def pyEqItems : List Json → List Json → Bool
  | [], [] => true
  | a :: as, b :: bs => pyEq a b && pyEqItems as bs
  | _, _ => false
termination_by structural a => a

def pyEqFields : List (String × Json) → List (String × Json) → Bool
  | [], _ => true
  | f :: rest, other => pyEqField f other && pyEqFields rest other
termination_by structural a => a

def pyEqField : String × Json → List (String × Json) → Bool
  | (k, v), other =>
      match Dict.lookup k other with
      | some w => pyEq v w
      | none => false
termination_by structural a => a

end

/-! ### Objects -/

/-- Assign a field, keeping the keys in order. -/
def setField (k : String) (v : Json) : List (String × Json) → List (String × Json)
  | [] => [(k, v)]
  | (k', v') :: rest =>
      if k < k' then (k, v) :: (k', v') :: rest
      else if k' = k then (k, v) :: rest
      else (k', v') :: setField k v rest

/-- A dictionary display `{"k": v, ..}`. -/
def object (fields : List (String × Json)) : Json :=
  .obj (fields.foldr (fun f acc => setField f.1 f.2 acc) [])

/-- The value of a field of an object. -/
def get? : Json → String → Option Json
  | .obj fields, k => Dict.lookup k fields
  | _, _ => none

/-- Python's `bool` of a value. -/
def truthy : Json → Bool
  | .null => false
  | .bool b => b
  | .int n => n ≠ 0
  | .float value _ => value ≠ some 0
  | .str s => s ≠ ""
  | .arr items => !items.isEmpty
  | .obj fields => !fields.isEmpty

/-- `{**value, k: v}`. -/
def withField (value : Json) (k : String) (v : Json) : Json :=
  match value with
  | .obj fields => .obj (setField k v fields)
  | other => other

/-- The object without one of its fields. -/
def without (k : String) : Json → Json
  | .obj fields => .obj (fields.filter (·.1 ≠ k))
  | other => other

/-- The keys of an object. -/
def keys : Json → List String
  | .obj fields => fields.map Prod.fst
  | _ => []

def isObj : Json → Bool
  | .obj _ => true
  | _ => false

/-- `isinstance(value, dict) and set(value) == {..}`. -/
def HasKeys (value : Json) (names : List String) : Prop :=
  value.isObj = true ∧ (∀ k ∈ names, k ∈ value.keys) ∧ ∀ k ∈ value.keys, k ∈ names

instance (value : Json) (names : List String) : Decidable (HasKeys value names) :=
  inferInstanceAs (Decidable (_ ∧ _ ∧ _))

def asStr? : Json → Option String
  | .str s => some s
  | _ => none

def asArr? : Json → Option (List Json)
  | .arr items => some items
  | _ => none

def asInt? : Json → Option Int
  | .int n => some n
  | _ => none

def asBool? : Json → Option Bool
  | .bool b => some b
  | _ => none

/-- One entry of an iterable handed to Python's `dict`: a pair with a string
key, or a string of two characters. -/
def pair? : Json → Option (String × Json)
  | .arr [.str k, v] => some (k, v)
  | .str s =>
      match s.toList with
      | [a, b] => some (String.singleton a, .str (String.singleton b))
      | _ => none
  | _ => none

/-- Python's `dict(value)`, as an object. -/
def dict? : Json → Option Json
  | .obj fields => some (.obj fields)
  | .arr items =>
      (items.mapM pair?).map fun pairs =>
        .obj (pairs.foldl (fun acc f => setField f.1 f.2 acc) [])
  | .str "" => some (.obj [])
  | _ => none

variable {k : String}

variable {v : Json}

/-- A value with a field is taken for a dictionary as it is. -/
theorem dict?_of_get? {w payload : Json} (h : v.get? k = some w) (hdict : v.dict? = some payload) :
    payload = v := by
  cases v with
  | obj fields => simpa [dict?, eq_comm] using hdict
  | _ => simp [get?] at h

theorem lookup_setField (k j : String) (v : Json) (l : List (String × Json)) :
    Dict.lookup j (setField k v l) = if j = k then some v else Dict.lookup j l := by
  induction l with
  | nil =>
    by_cases h : k = j
    · simp [setField, Dict.lookup, h]
    · have h' : ¬ j = k := fun e => h e.symm
      simp [setField, Dict.lookup, h, h']
  | cons e rest ih =>
    obtain ⟨k', v'⟩ := e
    by_cases hlt : k < k'
    · have hset : setField k v ((k', v') :: rest) = (k, v) :: (k', v') :: rest := by
        simp [setField, hlt]
      by_cases h : j = k
      · simp [hset, Dict.lookup, h]
      · simp [hset, Dict.lookup, h, Ne.symm h]
    · by_cases heq : k' = k
      · have hset : setField k v ((k', v') :: rest) = (k, v) :: rest := by
          simp [setField, heq]
        rw [hset]
        by_cases h : j = k
        · simp [Dict.lookup, h]
        · simp [Dict.lookup, h, Ne.symm h, heq]
      · have hset : setField k v ((k', v') :: rest) = (k', v') :: setField k v rest := by
          simp [setField, hlt, heq]
        rw [hset]
        by_cases h : k' = j
        · have hne : ¬ j = k := fun e => heq (h.trans e)
          simp [Dict.lookup, h, hne]
        · simp [Dict.lookup, h, ih]

@[simp] theorem get?_object_nil (j : String) : (object []).get? j = none := rfl

@[simp] theorem get?_object_cons (k j : String) (v : Json) (rest : List (String × Json)) :
    (object ((k, v) :: rest)).get? j =
      if j = k then some v else (object rest).get? j := by
  simp [object, get?, lookup_setField]

@[simp] theorem isObj_object (fields : List (String × Json)) :
    (object fields).isObj = true := rfl

theorem get?_withField (fields : List (String × Json)) (k j : String) (v : Json) :
    ((object fields).withField k v).get? j =
      if j = k then some v else (object fields).get? j := by
  simp [object, withField, get?, lookup_setField]

variable {value : Json}

theorem mem_keys_iff : k ∈ value.keys ↔ ∃ v, value.get? k = some v := by
  cases value with
  | obj fields =>
    rw [← Option.isSome_iff_exists, ← not_iff_not, Option.not_isSome_iff_eq_none]
    exact Dict.lookup_eq_none_iff.symm
  | _ => simp [keys, get?]

variable {fields : List (String × Json)}

@[simp] theorem mem_keys_object : k ∈ (object fields).keys ↔ k ∈ fields.map Prod.fst := by
  rw [mem_keys_iff]
  induction fields with
  | nil => simp
  | cons f rest ih =>
    obtain ⟨k', v'⟩ := f
    by_cases h : k = k' <;> simp_all

theorem get?_without (value : Json) (k j : String) :
    (value.without k).get? j = if j = k then none else value.get? j := by
  cases value with
  | obj fields =>
    show Dict.lookup j (fields.filter (·.1 ≠ k)) = _
    induction fields with
    | nil => by_cases h : j = k <;> simp [Dict.lookup, get?, h]
    | cons f rest ih =>
      obtain ⟨k', v'⟩ := f
      have ih' : Dict.lookup j (rest.filter (·.1 ≠ k)) =
          if j = k then none else Dict.lookup j rest := ih
      by_cases hk : k' = k
      · rw [List.filter_cons_of_neg (by simpa using hk), ih']
        by_cases h : j = k
        · simp [h]
        · have hne : ¬ k' = j := fun e => h (e.symm.trans hk)
          simp [get?, Dict.lookup, h, hne]
      · rw [List.filter_cons_of_pos (by simpa using hk)]
        by_cases h : k' = j
        · have hne : ¬ j = k := fun e => hk (h.trans e)
          simp [get?, Dict.lookup, h, hne]
        · simp only [Dict.lookup, h, if_false, ih', get?]
  | _ => simp [without, get?]

variable {names : List String}

theorem hasKeys_object (h : ∀ k, k ∈ fields.map Prod.fst ↔ k ∈ names) :
    (object fields).HasKeys names :=
  ⟨rfl, fun k hk => mem_keys_object.mpr ((h k).mpr hk),
    fun k hk => (h k).mp (mem_keys_object.mp hk)⟩

theorem hasKeys_without (h : value.HasKeys (k :: names)) (hk : k ∉ names) :
    (value.without k).HasKeys names := by
  obtain ⟨hobj, hnames, hkeys⟩ := h
  refine ⟨?_, fun j hj => ?_, fun j hj => ?_⟩
  · cases value <;> simp_all [isObj, without]
  · obtain ⟨v, hv⟩ := mem_keys_iff.mp (hnames j (.tail _ hj))
    have hne : j ≠ k := fun e => hk (e ▸ hj)
    exact mem_keys_iff.mpr ⟨v, by simp [get?_without, hne, hv]⟩
  · obtain ⟨v, hv⟩ := mem_keys_iff.mp hj
    rw [get?_without] at hv
    by_cases hne : j = k
    · simp [hne] at hv
    · rw [if_neg hne] at hv
      exact (List.mem_cons.mp (hkeys j (mem_keys_iff.mpr ⟨v, hv⟩))).resolve_left hne

theorem pyEq_str_left {b : Json} {s : String} (h : (Json.str s).pyEq b = true) :
    b = .str s := by
  cases b with
  | str t =>
    have heq : s = t := by simpa [pyEq] using h
    rw [heq]
  | _ => simp [pyEq, number?] at h

theorem pyEqFields_lookup {a b : List (String × Json)} (h : pyEqFields a b = true)
    (hk : Dict.lookup k a = some v) : ∃ w, Dict.lookup k b = some w ∧ v.pyEq w = true := by
  induction a with
  | nil => simp [Dict.lookup] at hk
  | cons f rest ih =>
    obtain ⟨k', v'⟩ := f
    simp only [pyEqFields, Bool.and_eq_true] at h
    by_cases hkk : k' = k
    · simp only [Dict.lookup, hkk, if_true, Option.some.injEq] at hk
      subst hk hkk
      have hf := h.1
      unfold pyEqField at hf
      cases hw : Dict.lookup k' b with
      | none => simp [hw] at hf
      | some w => exact ⟨w, rfl, by simpa [hw] using hf⟩
    · simp only [Dict.lookup, hkk, if_false] at hk
      exact ih h.2 hk

/-- Equal objects have equal fields. -/
theorem pyEq_get? {a b : Json} (h : a.pyEq b = true) (hk : a.get? k = some v) :
    ∃ w, b.get? k = some w ∧ v.pyEq w = true := by
  cases a with
  | obj fields =>
    cases b with
    | obj fields' =>
      simp only [pyEq, Bool.and_eq_true] at h
      exact pyEqFields_lookup h.2 hk
    | _ => simp [pyEq, number?] at h
  | _ => simp [get?] at hk

/-! ### Parts of a value -/

/-- A value occurs in another, at any depth. -/
inductive Within (part : Json) : Json → Prop
  | here : Within part part
  | item {items : List Json} {v : Json} (hv : v ∈ items) (h : Within part v) :
      Within part (.arr items)
  | field {fields : List (String × Json)} {k : String} {v : Json}
      (hv : (k, v) ∈ fields) (h : Within part v) : Within part (.obj fields)

mutual

/-- The values that occur in a value, itself first. -/
def parts : Json → List Json
  | .arr items => .arr items :: partsItems items
  | .obj fields => .obj fields :: partsFields fields
  | value => [value]
termination_by structural a => a

def partsItems : List Json → List Json
  | [] => []
  | v :: rest => parts v ++ partsItems rest
termination_by structural a => a

def partsFields : List (String × Json) → List Json
  | [] => []
  | f :: rest => partsField f ++ partsFields rest
termination_by structural a => a

def partsField : String × Json → List Json
  | (_, v) => parts v
termination_by structural a => a

end

theorem parts_subset_partsItems {items : List Json} (hv : v ∈ items) :
    v.parts ⊆ partsItems items := by
  induction items with
  | nil => cases hv
  | cons head rest ih =>
    rw [partsItems]
    rcases List.mem_cons.mp hv with rfl | hv
    · exact List.subset_append_left _ _
    · exact List.Subset.trans (ih hv) (List.subset_append_right _ _)

theorem parts_subset_partsFields (hv : (k, v) ∈ fields) : v.parts ⊆ partsFields fields := by
  induction fields with
  | nil => cases hv
  | cons head rest ih =>
    rw [partsFields]
    rcases List.mem_cons.mp hv with rfl | hv
    · rw [partsField]
      exact List.subset_append_left _ _
    · exact List.Subset.trans (ih hv) (List.subset_append_right _ _)

theorem Within.mem_parts {part : Json} (h : Within part value) : part ∈ value.parts := by
  induction h with
  | here => cases part <;> simp [parts]
  | item hv _ ih =>
    rw [parts]
    exact .tail _ (parts_subset_partsItems hv ih)
  | field hv _ ih =>
    rw [parts]
    exact .tail _ (parts_subset_partsFields hv ih)

theorem within_get? {part : Json} (h : value.get? k = some v) (hp : Within part v) :
    Within part value := by
  cases value with
  | obj fields => exact .field (Dict.mem_of_lookup h) hp
  | _ => simp [get?] at h

/-! ### Sizes -/

/-- The bytes of a character inside a canonical string. -/
def charSize (c : Char) : Nat :=
  if c = '"' ∨ c = '\\' ∨ c = '\n' ∨ c = '\r' ∨ c = '\t' ∨ c.toNat = 8 ∨ c.toNat = 12 then 2
  else if c.toNat < 32 then 6
  else c.utf8Size

def stringSize (s : String) : Nat := 2 + (s.toList.map charSize).sum

def intSize (n : Int) : Nat :=
  (if n < 0 then 1 else 0) + (Nat.toDigits 10 n.natAbs).length

mutual

/-- The number of bytes of the canonical text, `len(canonical_json(value))`. -/
def size : Json → Nat
  | .null => 4
  | .bool b => if b then 4 else 5
  | .int n => intSize n
  | .float _ text => text.utf8ByteSize
  | .str s => stringSize s
  | .arr items => 2 + sizeItems items + (items.length - 1)
  | .obj fields => 2 + sizeFields fields + (fields.length - 1)
termination_by structural a => a

def sizeItems : List Json → Nat
  | [] => 0
  | a :: as => size a + sizeItems as
termination_by structural a => a

def sizeFields : List (String × Json) → Nat
  | [] => 0
  | f :: rest => sizeField f + sizeFields rest
termination_by structural a => a

def sizeField : String × Json → Nat
  | (k, v) => stringSize k + 1 + size v
termination_by structural a => a

end

theorem charSize_le (c : Char) : charSize c ≤ 6 := by
  have := Char.utf8Size_le_four c
  unfold charSize
  split
  · omega
  · split <;> omega

theorem stringSize_le (s : String) : stringSize s ≤ 2 + 6 * s.toList.length := by
  unfold stringSize
  induction s.toList with
  | nil => simp
  | cons c rest ih =>
    have := charSize_le c
    simp only [List.map_cons, List.sum_cons, List.length_cons]
    omega

theorem intSize_le {n : Int} {k : Nat} (hn : 0 ≤ n) (hk : 0 < k) (h : n < 10 ^ k) :
    intSize n ≤ k := by
  have hlt : n.natAbs < 10 ^ k := by
    zify
    rwa [abs_of_nonneg hn]
  have := (Nat.length_toDigits_le_iff (by norm_num) hk).mpr hlt
  unfold intSize
  rw [if_neg (by omega)]
  omega

theorem sizeFields_setField (k : String) (v : Json) (l : List (String × Json)) :
    sizeFields (setField k v l) ≤ sizeField (k, v) + sizeFields l ∧
      (setField k v l).length ≤ l.length + 1 := by
  induction l with
  | nil => simp [setField, sizeFields]
  | cons f rest ih =>
    unfold setField
    split
    · simp [sizeFields]
    · split
      · simp [sizeFields]
      · simp [sizeFields]
        omega

theorem size_object_le (fields : List (String × Json)) :
    (object fields).size ≤ 2 + fields.length + sizeFields fields := by
  have hfold : ∀ fields : List (String × Json),
      sizeFields (fields.foldr (fun f acc => setField f.1 f.2 acc) []) ≤ sizeFields fields ∧
        (fields.foldr (fun f acc => setField f.1 f.2 acc) []).length ≤ fields.length := by
    intro fields
    induction fields with
    | nil => simp [sizeFields]
    | cons f rest ih =>
      obtain ⟨k, v⟩ := f
      have := sizeFields_setField k v
        (rest.foldr (fun f acc => setField f.1 f.2 acc) [])
      simp only [List.foldr_cons, sizeFields, List.length_cons]
      omega
  have := hfold fields
  simp only [object, size]
  omega

/-! ### A prefix code -/

/-- A code none of whose words continues another one. -/
def PrefixFree {α : Type} (code : α → List Char) : Prop :=
  ∀ a b x y, code a ++ x = code b ++ y → a = b ∧ x = y

def unary (n : Nat) : List Char := List.replicate n '1' ++ ['0']

def listCode {α : Type} (code : α → List Char) : List α → List Char
  | [] => ['0']
  | a :: as => '1' :: code a ++ listCode code as

def natCode (n : Nat) : List Char := listCode unary (Nat.digits 10 n)

def stringCode (s : String) : List Char := listCode (fun c => [c]) s.toList

def intCode : Int → List Char
  | .ofNat n => '0' :: natCode n
  | .negSucc n => '1' :: natCode n

def numberCode : Option Rat → List Char
  | none => ['0']
  | some q => '1' :: intCode q.num ++ natCode q.den

mutual

/-- A word for every value. -/
def encode : Json → List Char
  | .null => ['n']
  | .bool b => [if b then 't' else 'f']
  | .int n => 'i' :: intCode n
  | .float v text => 'd' :: numberCode v ++ stringCode text
  | .str s => 's' :: stringCode s
  | .arr items => 'a' :: encodeItems items
  | .obj fields => 'o' :: encodeFields fields
termination_by structural a => a

def encodeItems : List Json → List Char
  | [] => ['0']
  | a :: as => '1' :: encode a ++ encodeItems as
termination_by structural a => a

def encodeFields : List (String × Json) → List Char
  | [] => ['0']
  | f :: rest => '1' :: encodeField f ++ encodeFields rest
termination_by structural a => a

def encodeField : String × Json → List Char
  | (k, v) => stringCode k ++ encode v
termination_by structural a => a

end

theorem prefixFree_unary : PrefixFree unary := by
  intro a
  induction a with
  | zero =>
    intro b x y h
    cases b with
    | zero => simpa [unary] using h
    | succ n => simp [unary, List.replicate_succ] at h
  | succ m ih =>
    intro b x y h
    cases b with
    | zero => simp [unary, List.replicate_succ] at h
    | succ n =>
      have h' : unary m ++ x = unary n ++ y := by
        simpa [unary, List.replicate_succ] using h
      obtain ⟨hmn, hxy⟩ := ih n x y h'
      exact ⟨by omega, hxy⟩

theorem prefixFree_listCode {α : Type} {code : α → List Char}
    (hcode : PrefixFree code) : PrefixFree (listCode code) := by
  intro a
  induction a with
  | nil =>
    intro b x y h
    cases b with
    | nil => simpa [listCode] using h
    | cons b bs => simp [listCode] at h
  | cons a as ih =>
    intro b x y h
    cases b with
    | nil => simp [listCode] at h
    | cons b bs =>
      have h' : code a ++ (listCode code as ++ x) = code b ++ (listCode code bs ++ y) := by
        simpa [listCode] using h
      obtain ⟨hab, hrest⟩ := hcode a b _ _ h'
      obtain ⟨hbs, hxy⟩ := ih bs x y hrest
      exact ⟨by rw [hab, hbs], hxy⟩

theorem prefixFree_natCode : PrefixFree natCode := by
  intro a b x y h
  obtain ⟨hd, hxy⟩ := prefixFree_listCode prefixFree_unary _ _ x y h
  exact ⟨Nat.digits_inj_iff.mp hd, hxy⟩

theorem prefixFree_stringCode : PrefixFree stringCode := by
  intro a b x y h
  have hchar : PrefixFree (fun c : Char => [c]) := by
    intro c d u v hc
    simpa using hc
  obtain ⟨hl, hxy⟩ := prefixFree_listCode hchar _ _ x y h
  exact ⟨String.toList_inj.mp hl, hxy⟩

theorem prefixFree_intCode : PrefixFree intCode := by
  intro a b x y h
  cases a <;> cases b <;> simp only [intCode, List.cons_append, List.cons.injEq] at h
  · obtain ⟨hn, hxy⟩ := prefixFree_natCode _ _ x y h.2
    exact ⟨by rw [hn], hxy⟩
  · exact absurd h.1 (by decide)
  · exact absurd h.1 (by decide)
  · obtain ⟨hn, hxy⟩ := prefixFree_natCode _ _ x y h.2
    exact ⟨by rw [hn], hxy⟩

theorem prefixFree_numberCode : PrefixFree numberCode := by
  intro a b x y h
  cases a <;> cases b <;>
    simp only [numberCode, List.cons_append, List.nil_append, List.cons.injEq,
      List.append_assoc] at h
  · exact ⟨rfl, h.2⟩
  · exact absurd h.1 (by decide)
  · exact absurd h.1 (by decide)
  · obtain ⟨hnum, hrest⟩ := prefixFree_intCode _ _ _ _ h.2
    obtain ⟨hden, hxy⟩ := prefixFree_natCode _ _ x y hrest
    exact ⟨by rw [Rat.ext hnum hden], hxy⟩

mutual

theorem encode_prefixFree : ∀ (a b : Json) (x y : List Char),
    encode a ++ x = encode b ++ y → a = b ∧ x = y
  | .null, b, x, y, h => by cases b <;> simp_all [encode]; grind
  | .bool c, b, x, y, h => by cases b <;> cases c <;> simp_all [encode]
  | .int n, b, x, y, h => by
      cases b with
      | int m =>
        simp only [encode, List.cons_append, List.cons.injEq, true_and] at h
        simpa using prefixFree_intCode n m x y h
      | bool c => cases c <;> simp [encode] at h
      | _ => simp [encode] at h
  | .float v s, b, x, y, h => by
      cases b with
      | float w t =>
        simp only [encode, List.cons_append, List.append_assoc, List.cons.injEq,
          true_and] at h
        obtain ⟨hv, hrest⟩ := prefixFree_numberCode v w _ _ h
        obtain ⟨hs, hxy⟩ := prefixFree_stringCode s t x y hrest
        exact ⟨by rw [hv, hs], hxy⟩
      | bool c => cases c <;> simp [encode] at h
      | _ => simp [encode] at h
  | .str s, b, x, y, h => by
      cases b with
      | str t =>
        simp only [encode, List.cons_append, List.cons.injEq, true_and] at h
        simpa using prefixFree_stringCode s t x y h
      | bool c => cases c <;> simp [encode] at h
      | _ => simp [encode] at h
  | .arr as, b, x, y, h => by
      cases b with
      | arr bs =>
        simp only [encode, List.cons_append, List.cons.injEq, true_and] at h
        simpa using encodeItems_prefixFree as bs x y h
      | bool c => cases c <;> simp [encode] at h
      | _ => simp [encode] at h
  | .obj as, b, x, y, h => by
      cases b with
      | obj bs =>
        simp only [encode, List.cons_append, List.cons.injEq, true_and] at h
        simpa using encodeFields_prefixFree as bs x y h
      | bool c => cases c <;> simp [encode] at h
      | _ => simp [encode] at h

theorem encodeItems_prefixFree : ∀ (a b : List Json) (x y : List Char),
    encodeItems a ++ x = encodeItems b ++ y → a = b ∧ x = y
  | [], b, x, y, h => by cases b <;> simp_all [encodeItems]
  | a :: as, b, x, y, h => by
      cases b with
      | nil => simp [encodeItems] at h
      | cons b bs =>
        simp only [encodeItems, List.cons_append, List.append_assoc, List.cons.injEq,
          true_and] at h
        obtain ⟨hab, hrest⟩ := encode_prefixFree a b _ _ h
        obtain ⟨hbs, hxy⟩ := encodeItems_prefixFree as bs x y hrest
        exact ⟨by rw [hab, hbs], hxy⟩

theorem encodeFields_prefixFree : ∀ (a b : List (String × Json)) (x y : List Char),
    encodeFields a ++ x = encodeFields b ++ y → a = b ∧ x = y
  | [], b, x, y, h => by cases b <;> simp_all [encodeFields]
  | a :: as, b, x, y, h => by
      cases b with
      | nil => simp [encodeFields] at h
      | cons b bs =>
        simp only [encodeFields, List.cons_append, List.append_assoc, List.cons.injEq,
          true_and] at h
        obtain ⟨hab, hrest⟩ := encodeField_prefixFree a b _ _ h
        obtain ⟨hbs, hxy⟩ := encodeFields_prefixFree as bs x y hrest
        exact ⟨by rw [hab, hbs], hxy⟩

theorem encodeField_prefixFree : ∀ (a b : String × Json) (x y : List Char),
    encodeField a ++ x = encodeField b ++ y → a = b ∧ x = y
  | (k, v), (k', v'), x, y, h => by
      simp only [encodeField, List.append_assoc] at h
      obtain ⟨hk, hrest⟩ := prefixFree_stringCode k k' _ _ h
      obtain ⟨hv, hxy⟩ := encode_prefixFree v v' x y hrest
      exact ⟨by rw [hk, hv], hxy⟩

end

/-- **Values can be told apart by a string.** -/
theorem encode_injective : Function.Injective fun value => String.ofList (encode value) := by
  intro a b h
  have hl : encode a ++ [] = encode b ++ [] := by
    simpa using String.ofList_inj.mp h
  exact (encode_prefixFree a b [] [] hl).1

end Json
