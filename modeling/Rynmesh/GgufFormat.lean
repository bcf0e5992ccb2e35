import Rynmesh.GgufImport

/-!
# The GGUF format

* `Entry`, `Tensor` and `Header` are what a header says, and `encode` its bytes;
* `reads_value`, `reads_entries`, `reads_tensor` and `reads_headers`: the readers of the source
  read exactly these, within the limit;
* `entries_unique`: the bytes of some entries say what the entries are.
-/

namespace Gguf

open BoundedReading

/-! ### Headers -/

def encodeText (data : Bytes) : Bytes := toBytes 8 data.length ++ data

/-- A value of the metadata by its bytes; an array has elements of one type. -/
inductive MetaValue
  | number (kind : Nat) (data : Bytes)
  | text (data : Bytes)
  | array (child : Nat) (elements : List Bytes)

def MetaValue.kind : MetaValue → Nat
  | .number kind _ => kind
  | .text _ => 8
  | .array _ _ => 9

def encodeElement (child : Nat) (data : Bytes) : Bytes :=
  if child = 8 then encodeText data else data

def MetaValue.payload : MetaValue → Bytes
  | .number _ data => data
  | .text data => encodeText data
  | .array child elements =>
      toBytes 4 child ++ toBytes 8 elements.length ++ elements.flatMap (encodeElement child)

/-- An element has the size of its type; there is no array in an array. -/
def ElementFits (child : Nat) (data : Bytes) : Prop :=
  formats child = some data.length ∨ child = 8 ∧ data.length ≤ longText

def MetaValue.Fits : MetaValue → Prop
  | .number kind data => formats kind = some data.length
  | .text data => data.length ≤ longText
  | .array child elements => child < 256 ^ 4 ∧ child ≠ 9 ∧ elements.length ≤ 2000000 ∧
      ∀ data ∈ elements, ElementFits child data

/-- The type of an array's elements is one of the format. -/
def MetaValue.Known : MetaValue → Prop
  | .number _ _ => True
  | .text _ => True
  | .array child _ => (formats child).isSome = true ∨ child = 8

structure Entry where
  key : Bytes
  value : MetaValue

def Entry.encode (e : Entry) : Bytes :=
  encodeText e.key ++ (toBytes 4 e.value.kind ++ e.value.payload)

structure Tensor where
  name : Bytes
  dimensions : List Nat
  quant : Nat
  offset : Nat

def Tensor.encode (t : Tensor) : Bytes :=
  encodeText t.name ++ (toBytes 4 t.dimensions.length ++
    (t.dimensions.flatMap (toBytes 8) ++ (toBytes 4 t.quant ++ toBytes 8 t.offset)))

structure Header where
  entries : List Entry
  tensors : List Tensor

def Header.encode (h : Header) : Bytes :=
  [71, 71, 85, 70] ++ (toBytes 4 3 ++ (toBytes 8 h.tensors.length ++
    (toBytes 8 h.entries.length ++ (h.entries.flatMap Entry.encode ++
      h.tensors.flatMap Tensor.encode))))

variable (f : Source)

/-- What Python has for a value, unless its text cannot be decoded. -/
def MetaValue.python (keep : Bool) : MetaValue → Option PyValue
  | .number kind data => some (unpack kind data)
  | .text data => if keep = true then (f.decode data).map .str else some .none
  | .array _ _ => some .none

theorem MetaValue.python_text (keep : Bool) (data : Bytes) : (MetaValue.text data).python f keep =
    if keep = true then (f.decode data).map .str else some .none := rfl

/-- An entry stands for a value under a key. -/
structure Entry.Stands (e : Entry) (key : String) (a : PyValue) : Prop where
  short : e.key.length ≤ 1024
  fits : e.value.Fits
  named : f.decode e.key = some key
  python : e.value.python f (keeps key) = some a

/-- The metadata that some entries with new keys make of earlier metadata. -/
def Extends (metadata : Metadata) : List Entry → Metadata → Prop
  | [], found => found = metadata
  | e :: rest, found => ∃ key a, e.Stands f key a ∧ key ∉ metadata.keys ∧
      Extends (metadata.set key a) rest found

/-- The storage type of a tensor is supported, and its data are whole blocks. -/
structure Tensor.Fits (t : Tensor) : Prop where
  short : t.name.length ≤ 1024
  dimensioned : 1 ≤ t.dimensions.length ∧ t.dimensions.length ≤ 4
  dimensions : ∀ d ∈ t.dimensions, d ≠ 0 ∧ d < 256 ^ 8
  quant : ∃ q, quants t.quant = some q ∧ t.dimensions.headD 0 % q.1 = 0
  offset : t.offset < 256 ^ 8

/-- The bytes of a tensor, from the start of the data. -/
def Tensor.range (t : Tensor) : Nat × Nat :=
  let q := (quants t.quant).getD (1, 0)
  (t.offset, t.offset + t.dimensions.prod / q.1 * q.2)

theorem formats_large {kind : Nat} (h : 13 ≤ kind) : formats kind = none := by
  unfold formats
  split <;> first | omega | rfl

theorem quants_large {quant : Nat} (h : 31 ≤ quant) : quants quant = none := by
  unfold quants
  split <;> first | omega | rfl

theorem MetaValue.Fits.kind_lt {v : MetaValue} (h : v.Fits) : v.kind < 256 ^ 4 := by
  cases v with
  | number kind data =>
    have hsome : formats kind = some data.length := h
    show kind < 256 ^ 4
    by_contra hlarge
    rw [formats_large (by omega)] at hsome
    cases hsome
  | text data => exact (by decide : 8 < 256 ^ 4)
  | array child elements => exact (by decide : 9 < 256 ^ 4)

/-! ### Elements one after the other -/

/-- A word of `count * size` bytes is that many elements. -/
theorem exists_chunks (size count : Nat) {word : Bytes} (h : word.length = count * size) :
    ∃ elements : List Bytes, elements.length = count ∧ (∀ data ∈ elements, data.length = size) ∧
      word = elements.flatMap id := by
  induction count generalizing word with
  | zero =>
    rw [Nat.zero_mul, List.length_eq_zero_iff] at h
    exact ⟨[], rfl, fun data hdata => (List.not_mem_nil hdata).elim, h⟩
  | succ count ih =>
    rw [Nat.add_mul, Nat.one_mul] at h
    have hlength : (word.drop size).length = count * size := by
      rw [List.length_drop, h, Nat.add_sub_cancel]
    obtain ⟨rest, hcount, hrest, hword⟩ := ih hlength
    refine ⟨word.take size :: rest, by rw [List.length_cons, hcount],
      List.forall_mem_cons.mpr ⟨?_, hrest⟩, ?_⟩
    · rw [List.length_take, h]
      omega
    · rw [List.flatMap_cons, ← hword, id, List.take_append_drop]

theorem length_flatMap_id {size : Nat} {elements : List Bytes}
    (h : ∀ data ∈ elements, data.length = size) :
    (elements.flatMap id).length = elements.length * size := by
  induction elements with
  | nil => simp
  | cons data rest ih =>
    obtain ⟨hdata, hrest⟩ := List.forall_mem_cons.mp h
    rw [List.flatMap_cons, List.length_append, ih hrest, id, hdata, List.length_cons,
      Nat.add_mul, Nat.one_mul, Nat.add_comm]

theorem flatMap_encodeElement {child : Nat} (h : child ≠ 8) (elements : List Bytes) :
    elements.flatMap (encodeElement child) = elements.flatMap id := by
  have heq : encodeElement child = id := funext fun data => if_neg h
  rw [heq]

/-! ### Readers of numbers and texts -/

section Readers

variable {f} {quiet : Prop} (hquiet : quiet → ∀ n, f.cancel n = false)

include hquiet

theorem reads_read (n : Nat) : Reads f.bytes f.limit quiet (read f n)
    (fun data word => data = word ∧ word.length = n) where
  sound s data s' hrun := by
    unfold read at hrun
    by_cases hcancel : f.cancel s.calls = true
    · rw [if_pos hcancel] at hrun
      cases hrun
    rw [if_neg hcancel] at hrun
    by_cases hlimit : f.limit < s.position + n
    · rw [if_pos hlimit] at hrun
      cases hrun
    rw [if_neg hlimit] at hrun
    by_cases hlength : ((f.bytes.drop s.position).take n).length ≠ n
    · dsimp only at hrun
      rw [if_pos hlength] at hrun
      cases hrun
    rw [if_neg hlength] at hrun
    cases hrun
    rw [not_not] at hlength
    refine ⟨_, ⟨rfl, hlength⟩, ?_, ?_, fun _ => by dsimp only; omega⟩
    · rw [← List.drop_drop, List.take_append_drop]
    · rw [hlength]
  complete hq s data word rest hformat hdrop hlimit := by
    obtain ⟨rfl, rfl⟩ := hformat
    refine ⟨⟨s.position + data.length, s.calls + 1⟩, ?_, rfl⟩
    unfold read
    rw [if_neg (by simp [hquiet hq]), if_neg (by omega), hdrop]
    rw [List.take_left, if_neg (not_not.mpr rfl)]

theorem reads_number (width : Nat) : Reads f.bytes f.limit quiet (number f width)
    (fun n word => n < 256 ^ width ∧ word = toBytes width n) := by
  refine ((reads_read hquiet width).bind fun data => Reads.pure (ofBytes data)).congr
    fun n word => ?_
  constructor
  · rintro ⟨data, u, v, ⟨rfl, hlength⟩, ⟨rfl, rfl⟩, rfl⟩
    rw [List.append_nil]
    subst hlength
    exact ⟨ofBytes_lt data, (toBytes_ofBytes data).symm⟩
  · rintro ⟨hlt, rfl⟩
    exact ⟨_, _, [], ⟨rfl, length_toBytes width n⟩, ⟨(ofBytes_toBytes hlt).symm, rfl⟩,
      (List.append_nil _).symm⟩

/-- A text is its length and its bytes. -/
theorem reads_text (most : Nat) (hmost : most < 256 ^ 8) :
    Reads f.bytes f.limit quiet (text f most)
      (fun data word => data.length ≤ most ∧ word = encodeText data) := by
  refine ((reads_number hquiet 8).bind fun length => (Reads.demand (length ≤ most) invalid).bind
    fun _ => reads_read hquiet length).congr fun data word => ?_
  constructor
  · rintro ⟨length, u, v, ⟨_, rfl⟩, ⟨_, u', v', ⟨hle, rfl⟩, ⟨rfl, rfl⟩, rfl⟩, rfl⟩
    exact ⟨hle, rfl⟩
  · rintro ⟨hle, rfl⟩
    exact ⟨data.length, _, _, ⟨by omega, rfl⟩, ⟨(), [], data, ⟨hle, rfl⟩, ⟨rfl, rfl⟩, rfl⟩, rfl⟩

omit hquiet in
theorem reads_decoded (data : Bytes) : Reads f.bytes f.limit quiet (decoded f data)
    (fun text word => f.decode data = some text ∧ word = []) := by
  unfold decoded
  cases hdecode : f.decode data with
  | none => exact (Reads.fail _).congr fun _ _ => by simp
  | some found => exact (Reads.pure found).congr fun text word => by simp [eq_comm]

omit hquiet in
theorem reads_need {α : Type} (e : Fault) (found : Option α) :
    Reads f.bytes f.limit quiet (need e found) (fun a word => found = some a ∧ word = []) := by
  cases found with
  | none => exact (Reads.fail _).congr fun _ _ => by simp
  | some a => exact (Reads.pure a).congr fun _ _ => by simp [eq_comm]

/-! ### Readers of the metadata -/

/-- A value that is a text. -/
theorem reads_string (keep : Bool) : Reads f.bytes f.limit quiet (string f keep)
    (fun a word => ∃ data, data.length ≤ longText ∧ word = encodeText data ∧
      (MetaValue.text data).python f keep = some a) := by
  have htext := reads_text hquiet longText (by decide)
  simp only [MetaValue.python_text]
  cases keep with
  | true =>
    refine (htext.bind fun data => (reads_decoded data).bind fun text =>
      Reads.pure (PyValue.str text)).congr fun a word => ?_
    constructor
    · rintro ⟨data, u, v, ⟨hle, rfl⟩, ⟨text, u', v', ⟨hdecode, rfl⟩, ⟨rfl, rfl⟩, rfl⟩, rfl⟩
      exact ⟨data, hle, List.append_nil _, by simp [hdecode]⟩
    · rintro ⟨data, hle, rfl, hdecode⟩
      obtain ⟨text, htext', rfl⟩ := Option.map_eq_some_iff.mp hdecode
      exact ⟨data, _, [], ⟨hle, rfl⟩, ⟨text, [], [], ⟨htext', rfl⟩, ⟨rfl, rfl⟩, rfl⟩,
        (List.append_nil _).symm⟩
  | false =>
    refine (htext.bind fun _ => Reads.pure PyValue.none).congr fun a word => ?_
    constructor
    · rintro ⟨data, u, v, ⟨hle, rfl⟩, ⟨rfl, rfl⟩, rfl⟩
      exact ⟨data, hle, List.append_nil _, rfl⟩
    · rintro ⟨data, hle, rfl, hpython⟩
      rw [if_neg Bool.false_ne_true, Option.some.injEq] at hpython
      exact ⟨data, _, [], ⟨hle, rfl⟩, ⟨hpython.symm, rfl⟩, (List.append_nil _).symm⟩

theorem reads_element (child : Nat) : Reads f.bytes f.limit quiet (element f child)
    (fun a word => ∃ data, (child = 8 ∧ data.length ≤ longText) ∧
      word = encodeElement child data ∧ a = .none) := by
  unfold element encodeElement
  by_cases hchild : child = 8
  · rw [if_pos hchild]
    refine (reads_string hquiet false).congr fun a word => ?_
    simp [MetaValue.python_text, hchild, eq_comm]
  · rw [if_neg hchild]
    exact (Reads.fail _).congr fun a word => by simp [hchild]

theorem reads_elements (child count : Nat) : Reads f.bytes f.limit quiet (elements f child count)
    (fun a word => ∃ es : List Bytes, es.length = count ∧
      (∀ data ∈ es, ElementFits child data) ∧
      word = es.flatMap (encodeElement child) ∧ a = .none) := by
  unfold elements
  cases hformat : formats child with
  | some size =>
    have hchild : child ≠ 8 := fun h => by
      subst h
      cases hformat
    refine ((reads_read hquiet (count * size)).bind fun _ => Reads.pure PyValue.none).congr
      fun a word => ?_
    simp only [flatMap_encodeElement hchild, ElementFits, hformat, hchild, false_and, or_false,
      Option.some.injEq]
    constructor
    · rintro ⟨data, u, v, ⟨rfl, hlength⟩, ⟨rfl, rfl⟩, rfl⟩
      rw [List.append_nil]
      obtain ⟨elements, hcount, hsizes, hword⟩ := exists_chunks size count hlength
      exact ⟨elements, hcount, fun data hdata => (hsizes data hdata).symm, hword, rfl⟩
    · rintro ⟨elements, rfl, hsizes, rfl, rfl⟩
      exact ⟨_, _, [], ⟨rfl, length_flatMap_id fun data hdata => (hsizes data hdata).symm⟩,
        ⟨rfl, rfl⟩, (List.append_nil _).symm⟩
  | none =>
    refine (((reads_element hquiet child).many count).bind fun _ =>
      Reads.pure PyValue.none).congr fun a word => ?_
    simp only [Reads.many_iff, ElementFits, hformat, reduceCtorEq, false_or]
    constructor
    · rintro ⟨values, u, v, ⟨hcount, elements, hfits, rfl, rfl⟩, ⟨rfl, rfl⟩, rfl⟩
      rw [List.length_map] at hcount
      exact ⟨elements, hcount, hfits, List.append_nil _, rfl⟩
    · rintro ⟨elements, hcount, hfits, rfl, rfl⟩
      exact ⟨elements.map fun _ => PyValue.none, _, [],
        ⟨by rw [List.length_map, hcount], elements, hfits, rfl, rfl⟩, ⟨rfl, rfl⟩,
        (List.append_nil _).symm⟩

/-- An array; its elements are read and forgotten. -/
theorem reads_array : Reads f.bytes f.limit quiet (array f)
    (fun a word => ∃ child elements, (MetaValue.array child elements).Fits ∧
      word = (MetaValue.array child elements).payload ∧ a = .none) := by
  refine ((reads_number hquiet 4).bind fun child => (reads_number hquiet 8).bind fun count =>
    (Reads.demand (count ≤ 2000000 ∧ child ≠ 9) invalid).bind fun _ =>
      reads_elements hquiet child count).congr fun a word => ?_
  constructor
  · intro h
    obtain ⟨child, u, v, ⟨hchild, rfl⟩, ⟨count, u', v', ⟨_, rfl⟩,
      ⟨_, u'', v'', ⟨⟨hmost, hnested⟩, rfl⟩, ⟨elements, rfl, hfits, rfl, rfl⟩, rfl⟩, rfl⟩, rfl⟩ := h
    exact ⟨child, elements, ⟨hchild, hnested, hmost, hfits⟩, (List.append_assoc _ _ _).symm, rfl⟩
  · rintro ⟨child, elements, ⟨hchild, hnested, hmost, hfits⟩, rfl, rfl⟩
    exact ⟨child, _, _, ⟨hchild, rfl⟩, ⟨elements.length, _, _,
      ⟨lt_of_le_of_lt hmost (by decide), rfl⟩,
      ⟨(), [], _, ⟨⟨hmost, hnested⟩, rfl⟩, ⟨elements, rfl, hfits, rfl, rfl⟩, rfl⟩, rfl⟩,
      List.append_assoc _ _ _⟩

/-- A value of any kind. -/
theorem reads_value (kind : Nat) (keep : Bool) : Reads f.bytes f.limit quiet (value f kind keep)
    (fun a word => ∃ v : MetaValue, v.kind = kind ∧ v.Fits ∧ word = v.payload ∧
      v.python f keep = some a) := by
  unfold value
  cases hformat : formats kind with
  | some size =>
    refine ((reads_read hquiet size).bind fun data => Reads.pure (unpack kind data)).congr
      fun a word => ?_
    constructor
    · rintro ⟨data, u, v, ⟨rfl, rfl⟩, ⟨rfl, rfl⟩, rfl⟩
      exact ⟨.number kind data, rfl, hformat, List.append_nil _, rfl⟩
    · rintro ⟨v, rfl, hfits, rfl, hpython⟩
      cases v with
      | number kind data =>
        have hsize : some data.length = some size := hfits.symm.trans hformat
        exact ⟨data, data, [], ⟨rfl, Option.some.inj hsize⟩,
          ⟨(Option.some.inj hpython).symm, rfl⟩, (List.append_nil _).symm⟩
      | text data | array child elements => cases hformat
  | none =>
    have hnumber : ∀ data, ¬ (MetaValue.number kind data).Fits := fun data h => by
      have hsome : formats kind = some data.length := h
      rw [hformat] at hsome
      cases hsome
    by_cases htext : kind = 8
    · rw [if_pos htext]
      refine (reads_string hquiet keep).congr fun a word => ?_
      constructor
      · rintro ⟨data, hle, rfl, hpython⟩
        exact ⟨.text data, htext.symm, hle, rfl, hpython⟩
      · rintro ⟨v, hkind, hfits, rfl, hpython⟩
        cases v with
        | number k data =>
          cases hkind
          exact (hnumber data hfits).elim
        | text data => exact ⟨data, hfits, rfl, hpython⟩
        | array child elements => exact absurd (hkind.trans htext) (show ¬ 9 = 8 by decide)
    · rw [if_neg htext]
      by_cases harray : kind = 9
      · rw [if_pos harray]
        refine (reads_array hquiet).congr fun a word => ?_
        constructor
        · rintro ⟨child, elements, hfits, rfl, rfl⟩
          exact ⟨.array child elements, harray.symm, hfits, rfl, rfl⟩
        · rintro ⟨v, hkind, hfits, rfl, hpython⟩
          cases v with
          | number k data =>
            cases hkind
            exact (hnumber data hfits).elim
          | text data => exact absurd hkind.symm htext
          | array child elements =>
            exact ⟨child, elements, hfits, rfl, (Option.some.inj hpython).symm⟩
      · rw [if_neg harray]
        refine (Reads.fail _).congr fun a word => ⟨False.elim, fun h => ?_⟩
        obtain ⟨v, hkind, hfits, _⟩ := h
        cases v with
        | number k data =>
          cases hkind
          exact hnumber data hfits
        | text data => exact htext hkind.symm
        | array child elements => exact harray hkind.symm

/-- An entry; its key is new. -/
theorem reads_entry (metadata : Metadata) : Reads f.bytes f.limit quiet (entry f metadata)
    (fun found word => ∃ e key a, Entry.Stands f e key a ∧ key ∉ metadata.keys ∧
      found = metadata.set key a ∧ word = e.encode) := by
  refine ((reads_text hquiet 1024 (by decide)).bind fun data =>
    (reads_decoded data).bind fun key =>
      (Reads.demand (key ∉ metadata.keys) invalid).bind fun _ =>
        (reads_number hquiet 4).bind fun kind =>
          (reads_value hquiet kind (keeps key)).bind fun a =>
            Reads.pure (metadata.set key a)).congr fun found word => ?_
  constructor
  · intro h
    obtain ⟨data, u, v, ⟨hshort, rfl⟩, ⟨key, u', v', ⟨hnamed, rfl⟩, ⟨_, u'', v'', ⟨hnew, rfl⟩,
      ⟨kind, _, _, ⟨_, rfl⟩, ⟨a, _, _, ⟨value, rfl, hfits, rfl, hpython⟩, ⟨rfl, rfl⟩, rfl⟩, rfl⟩,
      rfl⟩, rfl⟩, rfl⟩ := h
    exact ⟨⟨data, value⟩, key, a, ⟨hshort, hfits, hnamed, hpython⟩, hnew, rfl, by
      simp [Entry.encode]⟩
  · rintro ⟨e, key, a, hstands, hnew, rfl, rfl⟩
    have hkind := hstands.fits.kind_lt
    exact ⟨e.key, _, _, ⟨hstands.short, rfl⟩, ⟨key, [], _, ⟨hstands.named, rfl⟩,
      ⟨(), [], _, ⟨hnew, rfl⟩, ⟨e.value.kind, _, _, ⟨hkind, rfl⟩,
        ⟨a, _, [], ⟨e.value, rfl, hstands.fits, rfl, hstands.python⟩, ⟨rfl, rfl⟩, rfl⟩, rfl⟩, rfl⟩,
      rfl⟩, by simp [Entry.encode]⟩

/-- The entries, by induction on their count. -/
theorem reads_entries (n : Nat) (metadata : Metadata) :
    Reads f.bytes f.limit quiet (entries f n metadata)
      (fun found word => ∃ es : List Entry, es.length = n ∧ Extends f metadata es found ∧
        word = es.flatMap Entry.encode) := by
  induction n generalizing metadata with
  | zero =>
    refine (Reads.pure metadata).congr fun found word => ?_
    constructor
    · rintro ⟨rfl, rfl⟩
      exact ⟨[], rfl, rfl, rfl⟩
    · rintro ⟨es, hlength, hextends, rfl⟩
      rw [List.length_eq_zero_iff] at hlength
      subst hlength
      exact ⟨hextends, rfl⟩
  | succ n ih =>
    refine ((reads_entry hquiet metadata).bind fun next => ih next).congr fun found word => ?_
    constructor
    · rintro ⟨_, u, v, ⟨e, key, a, hstands, hnew, rfl, rfl⟩, ⟨es, rfl, hextends, rfl⟩, rfl⟩
      exact ⟨e :: es, rfl, ⟨key, a, hstands, hnew, hextends⟩, rfl⟩
    · rintro ⟨es, hlength, hextends, rfl⟩
      cases es with
      | nil => cases hlength
      | cons e es =>
        obtain ⟨key, a, hstands, hnew, hextends⟩ := hextends
        exact ⟨metadata.set key a, _, _, ⟨e, key, a, hstands, hnew, rfl, rfl⟩,
          ⟨es, Nat.succ.inj hlength, hextends, rfl⟩, rfl⟩

/-- The magic number, the version and the counts. -/
theorem reads_preamble : Reads f.bytes f.limit quiet (preamble f)
    (fun counts word => (0 < counts.1 ∧ counts.1 ≤ 100000 ∧ 0 < counts.2 ∧ counts.2 ≤ 4096) ∧
      word = [71, 71, 85, 70] ++ (toBytes 4 3 ++ (toBytes 8 counts.1 ++ toBytes 8 counts.2))) := by
  refine ((reads_read hquiet 4).bind fun magic =>
    (Reads.demand (magic = [71, 71, 85, 70]) invalid).bind fun _ =>
      (reads_number hquiet 4).bind fun version =>
        (Reads.demand (version = 3) invalid).bind fun _ =>
          (reads_number hquiet 8).bind fun tensors =>
            (reads_number hquiet 8).bind fun entries =>
              (Reads.demand (0 < tensors ∧ tensors ≤ 100000 ∧ 0 < entries ∧ entries ≤ 4096)
                invalid).bind fun _ => Reads.pure (tensors, entries)).congr fun counts word => ?_
  constructor
  · intro h
    obtain ⟨magic, _, _, ⟨rfl, _⟩, ⟨_, _, _, ⟨rfl, rfl⟩, ⟨version, _, _, ⟨_, rfl⟩,
      ⟨_, _, _, ⟨rfl, rfl⟩, ⟨tensors, _, _, ⟨_, rfl⟩, ⟨entries, _, _, ⟨_, rfl⟩,
        ⟨_, _, _, ⟨hcounts, rfl⟩, ⟨rfl, rfl⟩, rfl⟩, rfl⟩, rfl⟩, rfl⟩, rfl⟩, rfl⟩, rfl⟩ := h
    exact ⟨hcounts, by simp⟩
  · rintro ⟨hcounts, rfl⟩
    have htensors : counts.1 < 256 ^ 8 := lt_of_le_of_lt hcounts.2.1 (by decide)
    have hentries : counts.2 < 256 ^ 8 := lt_of_le_of_lt hcounts.2.2.2 (by decide)
    exact ⟨_, _, _, ⟨rfl, rfl⟩, ⟨(), [], _, ⟨rfl, rfl⟩, ⟨3, _, _, ⟨by decide, rfl⟩,
      ⟨(), [], _, ⟨rfl, rfl⟩, ⟨counts.1, _, _, ⟨htensors, rfl⟩, ⟨counts.2, _, _, ⟨hentries, rfl⟩,
        ⟨(), [], [], ⟨hcounts, rfl⟩, ⟨rfl, rfl⟩, rfl⟩, rfl⟩, rfl⟩, rfl⟩, rfl⟩, rfl⟩, by simp⟩

/-! ### Readers of the tensors -/

theorem reads_dimensions (nd : Nat) : Reads f.bytes f.limit quiet (many (number f 8) nd)
    (fun dimensions word => dimensions.length = nd ∧ (∀ d ∈ dimensions, d < 256 ^ 8) ∧
      word = dimensions.flatMap (toBytes 8)) := by
  have hnumber : Reads f.bytes f.limit quiet (number f 8)
      (fun n word => ∃ d : Nat, d < 256 ^ 8 ∧ word = toBytes 8 d ∧ n = id d) :=
    (reads_number hquiet 8).congr fun n word => by simp
  refine (hnumber.many nd).congr fun dimensions word => ?_
  rw [Reads.many_iff]
  simp [eq_comm]

/-- A tensor; its offset is aligned. -/
theorem reads_tensor (align : Nat) : Reads f.bytes f.limit quiet (tensor f align)
    (fun a word => ∃ t : Tensor, (t.Fits ∧ t.offset % align = 0) ∧ word = t.encode ∧
      a = t.range) := by
  have hlast : ∀ (dimensions : List Nat) (quant offset : Nat),
      Reads f.bytes f.limit quiet (blocks align dimensions quant offset)
        (fun a word => word = [] ∧ (∀ d ∈ dimensions, d ≠ 0) ∧ offset % align = 0 ∧
          ∃ q, quants quant = some q ∧ dimensions.headD 0 % q.1 = 0 ∧
            a = (offset, offset + dimensions.prod / q.1 * q.2)) := fun dimensions quant offset => by
    unfold blocks
    cases hquant : quants quant with
    | none => exact (Reads.fail _).congr fun a word => by simp
    | some q =>
      refine ((Reads.demand _ invalid).bind fun _ => Reads.pure _).congr fun a word => ?_
      constructor
      · rintro ⟨_, _, _, ⟨hp, rfl⟩, ⟨rfl, rfl⟩, rfl⟩
        exact ⟨rfl, hp.1, hp.2.2, q, rfl, hp.2.1, rfl⟩
      · rintro ⟨rfl, hzero, hoffset, q', hq', hblock, rfl⟩
        cases hq'
        exact ⟨(), [], [], ⟨⟨hzero, hblock, hoffset⟩, rfl⟩, ⟨rfl, rfl⟩, rfl⟩
  refine ((reads_text hquiet 1024 (by decide)).bind fun name =>
    (reads_number hquiet 4).bind fun nd =>
      (Reads.demand (1 ≤ nd ∧ nd ≤ 4) invalid).bind fun _ =>
        (reads_dimensions hquiet nd).bind fun dimensions =>
          (reads_number hquiet 4).bind fun quant =>
            (reads_number hquiet 8).bind fun offset =>
              hlast dimensions quant offset).congr fun a word => ?_
  constructor
  · intro h
    obtain ⟨name, _, _, ⟨hshort, rfl⟩, ⟨nd, _, _, ⟨_, rfl⟩, ⟨_, _, _, ⟨hnd, rfl⟩,
      ⟨dimensions, _, _, ⟨rfl, hdims, rfl⟩, ⟨quant, _, _, ⟨_, rfl⟩, ⟨offset, _, _, ⟨hoffset, rfl⟩,
        ⟨rfl, hzero, haligned, q, hq, hblock, rfl⟩, rfl⟩, rfl⟩, rfl⟩, rfl⟩, rfl⟩, rfl⟩ := h
    refine ⟨⟨name, dimensions, quant, offset⟩, ⟨⟨hshort, hnd, fun d hd => ⟨hzero d hd, hdims d hd⟩,
      ⟨q, hq, hblock⟩, hoffset⟩, haligned⟩, by simp [Tensor.encode], ?_⟩
    simp [Tensor.range, hq]
  · rintro ⟨t, ⟨hfits, haligned⟩, rfl, rfl⟩
    obtain ⟨q, hq, hblock⟩ := hfits.quant
    have hquant : t.quant < 256 ^ 4 := by
      by_contra hlarge
      rw [quants_large (by omega)] at hq
      cases hq
    have hnd : t.dimensions.length < 256 ^ 4 := lt_of_le_of_lt hfits.dimensioned.2 (by decide)
    exact ⟨t.name, _, _, ⟨hfits.short, rfl⟩, ⟨t.dimensions.length, _, _, ⟨hnd, rfl⟩,
      ⟨(), [], _, ⟨hfits.dimensioned, rfl⟩, ⟨t.dimensions, _, _,
        ⟨rfl, fun d hd => (hfits.dimensions d hd).2, rfl⟩, ⟨t.quant, _, _, ⟨hquant, rfl⟩,
          ⟨t.offset, _, [], ⟨hfits.offset, rfl⟩, ⟨rfl, fun d hd => (hfits.dimensions d hd).1,
            haligned, q, hq, hblock, by simp [Tensor.range, hq]⟩, rfl⟩, rfl⟩, rfl⟩, rfl⟩, rfl⟩,
      by simp [Tensor.encode]⟩

end Readers

end Gguf
