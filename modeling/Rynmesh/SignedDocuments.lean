import Rynmesh.CheckedComputation
import Rynmesh.JsonValue

/-!
# Signed documents

`crypto.py`: a payload, its Ed25519 signature and the key to verify it, and what
Python's conversions make of the JSON values that are read from one.

* `int`, `float`, `dict` and `tuple` convert a JSON value or raise; `Fault` is what is
  raised, by the classes that the callers tell apart;
* `Mapping` is a dictionary as `dict` builds it: a list of pairs may give it keys that
  are no texts, and then its canonical text may not exist (`Mapping.document`);
* `verifySignedPayload` and `signPayload` check and make a signature.

Python's limits on the depth of a value and on the digits of an integer are not part of
the model.
-/

namespace Documents

open Checked

/-! ### Exceptions -/

/-- A raised exception with its text; the last three are subclasses of `ValueError`. -/
inductive Fault
  | keyError (text : String)
  | typeError (text : String)
  | valueError (text : String)
  | overflowError (text : String)
  | signatureError (text : String)
  | provenanceError (text : String)
  | identityError (text : String)
  deriving DecidableEq

def Fault.text : Fault → String
  | .keyError text | .typeError text | .valueError text | .overflowError text
  | .signatureError text | .provenanceError text | .identityError text => text

/-- `except (KeyError, TypeError, ValueError)` catches everything but an overflow. -/
def Fault.isOverflow : Fault → Bool
  | .overflowError _ => true
  | _ => false

/-- A Python float: its exact value, none when it is not finite. -/
abbrev PyFloat := Option Rat

/-- What the code takes from Python and from the cryptography library: `str` of a value
that is no text, `int` and `float` of a text, the text of a document as it stands,
SHA-256 with its label, and Ed25519 over texts, where `isKey` and `isBase64` tell what
can be decoded. -/
structure Platform where
  repr : Json → String
  parseInt : String → Option Int
  parseFloat : String → Option PyFloat
  text : Json → String
  sha256 : String → String
  isKey : String → Bool
  isBase64 : String → Bool
  publicKey : String → String
  signature : String → String → String
  verifies : String → String → String → Bool

/-! ### Conversions -/

/-- `type(value).__name__`. -/
def typeName : Json → String
  | .null => "NoneType"
  | .bool _ => "bool"
  | .int _ => "int"
  | .float _ _ => "float"
  | .str _ => "str"
  | .arr _ => "list"
  | .obj _ => "dict"

variable (p : Platform)

/-- `str(value)`. -/
def str : Json → String
  | .str s => s
  | value => p.repr value

/-- Truncation towards zero. -/
def truncate (q : Rat) : Int := Int.tdiv q.num q.den

/-- `int(value)`. -/
def int : Json → Except Fault Int
  | .int n => .ok n
  | .bool b => .ok (if b then 1 else 0)
  | .float (some q) _ => .ok (truncate q)
  | .float none text =>
      if text = "NaN" then .error (.valueError "cannot convert float NaN to integer")
      else .error (.overflowError "cannot convert float infinity to integer")
  | .str s => demand (.valueError ("invalid literal for int() with base 10: " ++
      p.repr (.str s))) (p.parseInt s)
  | value => .error (.typeError ("int() argument must be a string, a bytes-like object or " ++
      "a real number, not '" ++ typeName value ++ "'"))

/-- The first integer that is too large for a float: what lies from half a unit below
`2 ^ 1024` on is rounded up to it. -/
def floatLimit : Nat := 2 ^ 1024 - 2 ^ 970

/-- `float(value)`, in exact arithmetic. -/
def float : Json → Except Fault PyFloat
  | .int n =>
      if n.natAbs < floatLimit then .ok (some n)
      else .error (.overflowError "int too large to convert to float")
  | .bool b => .ok (some (if b then 1 else 0))
  | .float value _ => .ok value
  | .str s => demand (.valueError ("could not convert string to float: " ++
      p.repr (.str s))) (p.parseFloat s)
  | value => .error (.typeError ("float() argument must be a string or a real number, not '" ++
      typeName value ++ "'"))

/-- `tuple(value)`. -/
def tuple : Json → Except Fault (List Json)
  | .arr items => .ok items
  | .str s => .ok (s.toList.map fun c => .str (String.singleton c))
  | .obj fields => .ok (fields.map fun f => .str f.1)
  | value => .error (.typeError ("'" ++ typeName value ++ "' object is not iterable"))

/-- A key of a dictionary. -/
inductive Key
  | str (name : String)
  | null
  | number (value : Option Rat) (name : String)
  deriving DecidableEq

/-- A value as a key, none where it cannot be hashed. -/
def Key.of? : Json → Option Key
  | .str s => some (.str s)
  | .null => some .null
  | .bool b => some (.number (some (if b then 1 else 0)) (if b then "true" else "false"))
  | .int n => some (.number (some n) n.repr)
  | .float value text => some (.number value text)
  | .arr _ | .obj _ => none

/-- Two keys are the same one: numbers by their value, and NaN never. -/
def Key.same : Key → Key → Bool
  | .str a, .str b => a == b
  | .null, .null => true
  | .number (some a) _, .number (some b) _ => a == b
  | .number none a, .number none b => a == b && a != "NaN"
  | _, _ => false

/-- The name of a key in the canonical text. -/
def Key.name : Key → String
  | .str name => name
  | .null => "null"
  | .number _ name => name

def Key.isStr : Key → Bool
  | .str _ => true
  | _ => false

def Key.isNumber : Key → Bool
  | .number _ _ => true
  | _ => false

/-- A dictionary, in the order of insertion. -/
structure Mapping where
  entries : List (Key × Json)

namespace Mapping

/-- An object as a dictionary. -/
def ofObject : Json → Mapping
  | .obj fields => ⟨fields.map fun f => (.str f.1, f.2)⟩
  | _ => ⟨[]⟩

/-- `entries[key] = value`. -/
def assign (key : Key) (value : Json) : List (Key × Json) → List (Key × Json)
  | [] => [(key, value)]
  | (k, v) :: rest =>
      if k.same key then (k, value) :: rest else (k, v) :: assign key value rest

def lookup (name : String) : List (Key × Json) → Option Json
  | [] => none
  | (k, v) :: rest => if k = .str name then some v else lookup name rest

/-- `mapping.get(name)`. -/
def get? (m : Mapping) (name : String) : Option Json := lookup name m.entries

/-- `mapping[name]`. -/
def item (m : Mapping) (name : String) : Except Fault Json :=
  demand (.keyError ("'" ++ name ++ "'")) (m.get? name)

/-- All keys are texts. -/
def Named (m : Mapping) : Prop := m.entries.all (fun e => e.1.isStr) = true

/-- The keys can be compared with each other. -/
def Sortable (m : Mapping) : Prop :=
  m.entries.length ≤ 1 ∨ m.Named ∨ m.entries.all (fun e => e.1.isNumber) = true

instance (m : Mapping) : Decidable m.Named := inferInstanceAs (Decidable (_ = _))

instance (m : Mapping) : Decidable m.Sortable :=
  inferInstanceAs (Decidable (_ ∨ _ ∨ _))

/-- `a < b` for numbers, where it holds of no NaN. -/
def before : Key → Key → Bool
  | .number (some a) _, .number (some b) _ => a < b
  | .number none a, .number none b => a = "-Infinity" ∧ b = "Infinity"
  | .number none a, .number (some _) _ => a = "-Infinity"
  | .number (some _) _, .number none b => b = "Infinity"
  | _, _ => false

/-- Insert into sorted entries, after those that are not larger. -/
def insert (entry : Key × Json) : List (Key × Json) → List (Key × Json)
  | [] => [entry]
  | other :: rest =>
      if before entry.1 other.1 then entry :: other :: rest else other :: insert entry rest

/-- The document that is encoded, its keys sorted. -/
def sorted (m : Mapping) : Json :=
  if m.Named then .object (m.entries.map fun e => (e.1.name, e.2))
  else .obj ((m.entries.foldl (fun acc e => insert e acc) []).map fun e => (e.1.name, e.2))

/-- The document that `canonical_json` encodes. -/
def document (m : Mapping) : Except Fault Json := do
  require (.typeError "'<' not supported between instances of keys") m.Sortable
  pure m.sorted

@[simp] theorem get?_ofObject (value : Json) (name : String) :
    (ofObject value).get? name = value.get? name := by
  cases value with
  | obj fields =>
    induction fields with
    | nil => rfl
    | cons field rest ih =>
      have ih : lookup name (rest.map fun f => (.str f.1, f.2)) = Dict.lookup name rest := ih
      show lookup name ((Key.str field.1, field.2) :: rest.map fun f => (.str f.1, f.2)) =
        Dict.lookup name (field :: rest)
      by_cases h : field.1 = name
      · simp [lookup, Dict.lookup, h]
      · simp [lookup, Dict.lookup, h, ih]
  | _ => rfl

theorem named_ofObject (value : Json) : (ofObject value).Named := by
  cases value <;> simp [Named, ofObject, Key.isStr]

/-- The document of a dictionary whose keys are texts has its fields. -/
theorem get?_sorted {m : Mapping} (h : m.Named) (name : String) :
    m.sorted.get? name = m.get? name := by
  unfold sorted
  rw [if_pos h]
  obtain ⟨entries⟩ := m
  induction entries with
  | nil => rfl
  | cons entry rest ih =>
    obtain ⟨key, value⟩ := entry
    have hall := List.all_eq_true.mp h
    have hrest : Named ⟨rest⟩ :=
      List.all_eq_true.mpr fun e he => hall e (.tail _ he)
    have ih : (Json.object (rest.map fun e => (e.1.name, e.2))).get? name = lookup name rest :=
      ih hrest
    have hkey := hall (key, value) (.head _)
    cases key with
    | str text =>
      show (Json.object ((text, value) :: rest.map fun e => (e.1.name, e.2))).get? name =
        lookup name ((.str text, value) :: rest)
      rw [Json.get?_object_cons, ih]
      by_cases htext : text = name
      · simp [lookup, htext]
      · simp [lookup, htext, Ne.symm htext]
    | null | number _ _ => cases hkey

theorem mem_of_lookup {name : String} {value : Json} {entries : List (Key × Json)}
    (h : lookup name entries = some value) : (.str name, value) ∈ entries := by
  induction entries with
  | nil => cases h
  | cons entry rest ih =>
    obtain ⟨key, other⟩ := entry
    unfold lookup at h
    split at h
    · next hkey =>
      rw [hkey, Option.some.inj h]
      exact (.head _)
    · exact .tail _ (ih h)

/-- A dictionary with two texts among its keys can only be encoded when all are. -/
theorem named_of_sortable {m : Mapping} {a b : String} {v w : Json} (hsort : m.Sortable)
    (hne : a ≠ b) (ha : m.get? a = some v) (hb : m.get? b = some w) : m.Named := by
  have ha := mem_of_lookup ha
  have hb := mem_of_lookup hb
  rcases hsort with hlength | hnamed | hnumbers
  · cases hentries : m.entries with
    | nil =>
      rw [hentries] at ha
      cases ha
    | cons entry rest =>
      have hrest : rest = [] := by
        rw [hentries, List.length_cons] at hlength
        exact List.eq_nil_of_length_eq_zero (by omega)
      rw [hentries, hrest, List.mem_singleton] at ha hb
      have hkeys : Key.str a = Key.str b := congrArg Prod.fst (ha.trans hb.symm)
      exact absurd (Key.str.inj hkeys) hne
  · exact hnamed
  · have hkey := List.all_eq_true.mp hnumbers _ ha
    cases hkey

theorem document_ok {m : Mapping} {document : Json} (h : m.document = .ok document) :
    m.Sortable ∧ document = m.sorted := by
  obtain ⟨_, hsort, heq⟩ := bind_ok.mp h
  exact ⟨require_ok.mp hsort, (pure_ok.mp heq).symm⟩

theorem document_ofObject (value : Json) :
    (ofObject value).document = .ok (ofObject value).sorted := by
  have hsort : (ofObject value).Sortable := Or.inr (Or.inl (named_ofObject value))
  unfold document
  rw [require_of hsort]
  rfl

end Mapping

/-- One entry that `dict` is given, at its place. -/
def pair (place : Nat) : Json → Except Fault (Key × Json)
  | .arr items => ofItems items
  | .str s => ofItems (s.toList.map fun c => .str (String.singleton c))
  | .obj fields => ofItems (fields.map fun f => .str f.1)
  | _ => .error (.typeError ("cannot convert dictionary update sequence element #" ++
      place.repr ++ " to a sequence"))
where
  ofItems : List Json → Except Fault (Key × Json)
    | [key, value] => do
        let key ← demand (.typeError ("unhashable type: '" ++ typeName key ++ "'")) (Key.of? key)
        pure (key, value)
    | items => .error (.valueError ("dictionary update sequence element #" ++ place.repr ++
        " has length " ++ items.length.repr ++ "; 2 is required"))

/-- `dict(value)`. -/
def dict (value : Json) : Except Fault Mapping :=
  match value with
  | .obj fields => .ok (.ofObject (.obj fields))
  | value => do
      let items ← tuple value
      let pairs ← items.zipIdx.mapM fun e => pair e.2 e.1
      pure ⟨pairs.foldl (fun acc e => Mapping.assign e.1 e.2 acc) []⟩

/-! ### Signed payloads -/

/-- `SIGNATURE_ALG`. -/
def signatureAlg : String := "ed25519"

structure SignedPayload where
  payload : Mapping
  signature : String
  publicKey : String
  alg : String

/-- `str(mapping.get(name, default))`. -/
def textField (m : Mapping) (name default : String) : String :=
  str p ((m.get? name).getD (.str default))

/-- `str(mapping[name])`. -/
def textItem (m : Mapping) (name : String) : Except Fault String := do
  let value ← m.item name
  pure (str p value)

/-- `SignedPayload.from_dict`. -/
def SignedPayload.fromDict (data : Mapping) : Except Fault SignedPayload := do
  let payload ← data.item "payload"
  let payload ← dict payload
  let signature ← textItem p data "signature"
  let publicKey ← textItem p data "public_key"
  pure { payload, signature, publicKey, alg := textField p data "alg" signatureAlg }

/-- `SignedPayload.to_dict`, as the document that is encoded. -/
def SignedPayload.document (signed : SignedPayload) : Except Fault Json := do
  let payload ← signed.payload.document
  pure (.object [("alg", .str signed.alg), ("public_key", .str signed.publicKey),
    ("signature", .str signed.signature), ("payload", payload)])

/-- `verify_signed_payload`. -/
def verifySignedPayload (signed : SignedPayload) : Except Fault Unit := do
  require (.signatureError ("unsupported signature algorithm: " ++ signed.alg))
    (signed.alg = signatureAlg)
  require (.signatureError "signed payload verification failed")
    (p.isKey signed.publicKey = true ∧ p.isBase64 signed.signature = true)
  let document ← signed.payload.document
  require (.signatureError "signed payload verification failed")
    (p.verifies signed.publicKey signed.signature (p.text document) = true)

/-- `sign_payload` of an object. -/
def signPayload (payload : Json) (privateKey : String) : Except Fault SignedPayload := do
  let document ← (Mapping.ofObject payload).document
  pure
    { payload := .ofObject payload
      signature := p.signature privateKey (p.text document)
      publicKey := p.publicKey privateKey
      alg := signatureAlg }

/-- What the cryptography library promises of a signature that was made with a key. -/
structure Platform.Signs : Prop where
  isKey : ∀ key, p.isKey (p.publicKey key) = true
  isBase64 : ∀ key text, p.isBase64 (p.signature key text) = true
  verifies : ∀ key text, p.verifies (p.publicKey key) (p.signature key text) text = true

variable {p}

theorem verifySignedPayload_ok {signed : SignedPayload} {u : Unit} :
    verifySignedPayload p signed = .ok u ↔
      signed.alg = signatureAlg ∧ p.isKey signed.publicKey = true ∧
        p.isBase64 signed.signature = true ∧ ∃ document, signed.payload.document = .ok document ∧
          p.verifies signed.publicKey signed.signature (p.text document) = true := by
  unfold verifySignedPayload
  simp only [bind_ok, require_ok]
  constructor
  · rintro ⟨_, halg, _, hkeys, document, hdocument, hverifies⟩
    exact ⟨halg, hkeys.1, hkeys.2, document, hdocument, hverifies⟩
  · rintro ⟨halg, hkey, hbase, document, hdocument, hverifies⟩
    exact ⟨⟨⟩, halg, ⟨⟩, ⟨hkey, hbase⟩, document, hdocument, hverifies⟩

theorem signPayload_eq (payload : Json) (privateKey : String) :
    signPayload p payload privateKey = .ok
      { payload := .ofObject payload
        signature := p.signature privateKey (p.text (Mapping.ofObject payload).sorted)
        publicKey := p.publicKey privateKey
        alg := signatureAlg } := by
  unfold signPayload
  rw [Mapping.document_ofObject]
  rfl

theorem verify_signPayload (hsigns : p.Signs) {payload : Json} {privateKey : String}
    {signed : SignedPayload} (h : signPayload p payload privateKey = .ok signed) :
    verifySignedPayload p signed = .ok ⟨⟩ := by
  rw [signPayload_eq] at h
  have heq := Except.ok.inj h
  rw [verifySignedPayload_ok, ← heq]
  exact ⟨rfl, hsigns.isKey _, hsigns.isBase64 _ _, _, Mapping.document_ofObject payload,
    hsigns.verifies _ _⟩

/-! ### What the conversions raise -/

/-- An exception that `except (KeyError, TypeError, ValueError)` catches. -/
def Fault.Caught (fault : Fault) : Prop := fault.isOverflow = false

/-- `Infinity`, of either sign. -/
def Infinite (value : Json) : Prop := ∃ text, value = .float none text ∧ text ≠ "NaN"

/-- An integer that is too large for a float. -/
def Huge (value : Json) : Prop := ∃ n, value = .int n ∧ floatLimit ≤ n.natAbs

theorem caught_int {value : Json} : OnlyFails Fault.Caught (int p value) ↔ ¬ Infinite value := by
  cases value with
  | float number text =>
    cases number with
    | some _ => simp [int, Infinite]
    | none =>
      by_cases htext : text = "NaN" <;>
        simp [int, Infinite, htext, Fault.Caught, Fault.isOverflow]
  | _ => simp [int, Infinite, Fault.Caught, Fault.isOverflow]

theorem caught_float {value : Json} : OnlyFails Fault.Caught (float p value) ↔ ¬ Huge value := by
  cases value with
  | int n =>
    by_cases hlt : n.natAbs < floatLimit
    · simp [float, Huge, hlt]
    · simp [float, Huge, hlt, Nat.le_of_not_lt hlt, Fault.Caught, Fault.isOverflow]
  | _ => simp [float, Huge, Fault.Caught, Fault.isOverflow]

theorem caught_item (m : Mapping) (name : String) : OnlyFails Fault.Caught (m.item name) := by
  simp [Mapping.item, Fault.Caught, Fault.isOverflow]

theorem caught_textItem (m : Mapping) (name : String) :
    OnlyFails Fault.Caught (textItem p m name) := by
  simp [textItem, caught_item]

theorem caught_tuple (value : Json) : OnlyFails Fault.Caught (tuple value) := by
  cases value <;> simp [tuple, Fault.Caught, Fault.isOverflow]

theorem caught_pair (place : Nat) (value : Json) : OnlyFails Fault.Caught (pair place value) := by
  have hitems : ∀ values, OnlyFails Fault.Caught (pair.ofItems place values) := by
    intro values
    unfold pair.ofItems
    split <;> simp [Fault.Caught, Fault.isOverflow]
  cases value <;> simp [pair, hitems, Fault.Caught, Fault.isOverflow]

theorem caught_dict (value : Json) : OnlyFails Fault.Caught (dict value) := by
  unfold dict
  split
  · exact onlyFails_ok
  · have hpair : ∀ e : Json × Nat, OnlyFails Fault.Caught (pair e.2 e.1) :=
      fun e => caught_pair e.2 e.1
    exact onlyFails_bind.mpr ⟨caught_tuple _, fun _ _ => onlyFails_bind.mpr
      ⟨onlyFails_mapM hpair _, fun _ _ => onlyFails_pure⟩⟩

theorem caught_fromDict (data : Mapping) :
    OnlyFails Fault.Caught (SignedPayload.fromDict p data) := by
  simp [SignedPayload.fromDict, caught_item, caught_dict, caught_textItem]

theorem caught_verifySignedPayload (signed : SignedPayload) :
    OnlyFails Fault.Caught (verifySignedPayload p signed) := by
  simp [verifySignedPayload, Mapping.document, Fault.Caught, Fault.isOverflow]

end Documents
