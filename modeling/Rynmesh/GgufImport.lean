import Rynmesh.BoundedReading
import Rynmesh.CheckedComputation
import Rynmesh.InsertionDict

/-!
# Inspection of GGUF files

`inspect_model` of `llm_package/gguf_import.py`.

* `read` is the bounded read of the source, `number` and `text` what it reads with it;
* `value` reads a value of the metadata, and `entries` the metadata;
* `tensor` reads what the header says of one tensor, and `place` goes through their ranges;
* `inspectModel` puts them together.

A floating-point number is its bits: only whether it is zero or one matters.
-/

namespace Gguf

open Checked BoundedReading

/-! ### Files and failures -/

inductive Fault
  | native (code : String)
  | unicode

/-- A path to a file: its name, its stem, and the answers to the checks of its suffix and kind. -/
structure Path where
  name : String
  stem : String
  isGguf : Bool
  isFile : Bool

/-- The bytes of a file, the answers of `cancel` one call after the other, and `decode`. -/
structure Source where
  bytes : Bytes
  cancel : Nat → Bool
  decode : Bytes → Option String

def maxModelBytes : Nat := 64 * 1024 ^ 3

def architectures : List String :=
  ["llama", "qwen2", "qwen2moe", "qwen3", "qwen3moe", "qwen35", "qwen35moe", "gemma", "gemma2",
    "gemma3", "phi2", "phi3"]

/-- The elements of a block and its bytes, for each storage type. -/
def quants : Nat → Option (Nat × Nat)
  | 0 => some (1, 4)
  | 1 => some (1, 2)
  | 2 => some (32, 18)
  | 3 => some (32, 20)
  | 6 => some (32, 22)
  | 7 => some (32, 24)
  | 8 => some (32, 34)
  | 9 => some (32, 36)
  | 10 => some (256, 84)
  | 11 => some (256, 110)
  | 12 => some (256, 144)
  | 13 => some (256, 176)
  | 14 => some (256, 210)
  | 15 => some (256, 292)
  | 24 => some (1, 1)
  | 25 => some (1, 2)
  | 26 => some (1, 4)
  | 27 | 28 => some (1, 8)
  | 30 => some (1, 2)
  | _ => none

def invalid : Fault := .native "invalid_gguf"

variable (f : Source)

/-- No byte is read at or after this position. -/
def Source.limit : Nat := min f.bytes.length (128 * 1024 ^ 2)

/-! ### Reading -/

def read (n : Nat) : Reader Fault Bytes := fun s =>
  if f.cancel s.calls = true then .error (.native "cancelled")
  else if f.limit < s.position + n then .error invalid
  else
    let data := (f.bytes.drop s.position).take n
    if data.length ≠ n then .error invalid
    else .ok (data, ⟨s.position + n, s.calls + 1⟩)

/-- A number without sign of a width in bytes. -/
def number (width : Nat) : Reader Fault Nat := do
  let data ← read f width
  pure (ofBytes data)

/-- The bytes of a string. -/
def text (limit : Nat) : Reader Fault Bytes := do
  let length ← number f 8
  demand (length ≤ limit) invalid
  read f length

/-- `data.decode("utf-8")`. -/
def decoded (data : Bytes) : Reader Fault String :=
  match f.decode data with
  | none => throw .unicode
  | some text => pure text

/-- A value as Python has it; a float by its bits. -/
inductive PyValue
  | int (n : Int)
  | bool (b : Bool)
  | float (double : Bool) (bits : Nat)
  | str (text : String)
  | none

/-- The bytes of a kind of numbers. -/
def formats : Nat → Option Nat
  | 0 | 1 => some 1
  | 2 | 3 => some 2
  | 4 | 5 | 6 => some 4
  | 7 => some 1
  | 10 | 11 | 12 => some 8
  | _ => none

/-- `struct.unpack` for the kind of a number. -/
def unpack (kind : Nat) (data : Bytes) : PyValue :=
  if kind ∈ [1, 3, 5, 11] then
    if 2 * ofBytes data < 256 ^ data.length then .int (ofBytes data)
    else .int (ofBytes data - 256 ^ data.length)
  else if kind = 6 then .float false (ofBytes data)
  else if kind = 12 then .float true (ofBytes data)
  else if kind = 7 then .bool (ofBytes data ≠ 0)
  else .int (ofBytes data)

def longText : Nat := 16 * 1024 ^ 2

/-- `string(keep)`. -/
def string (keep : Bool) : Reader Fault PyValue := do
  let data ← text f longText
  if keep = true then
    let text ← decoded f data
    pure (.str text)
  else pure .none

/-- An element of an array whose elements are no numbers. -/
def element (child : Nat) : Reader Fault PyValue :=
  if child = 8 then string f false else throw invalid

/-- The elements of an array: of numbers by one read, else one by one. -/
def elements (child count : Nat) : Reader Fault PyValue :=
  match formats child with
  | some size => do
      let _ ← read f (count * size)
      pure .none
  | none => do
      let _ ← many (element f child) count
      pure .none

def array : Reader Fault PyValue := do
  let child ← number f 4
  let count ← number f 8
  demand (count ≤ 2000000 ∧ child ≠ 9) invalid
  elements f child count

def value (kind : Nat) (keep : Bool) : Reader Fault PyValue :=
  match formats kind with
  | some size => do
      let data ← read f size
      pure (unpack kind data)
  | none => if kind = 8 then string f keep else if kind = 9 then array f else throw invalid

/-- Whether a value of text is kept. -/
def keeps (key : String) : Bool :=
  "general.".toList.isPrefixOf key.toList || ".context_length".toList.isSuffixOf key.toList

abbrev Metadata := Dict String PyValue

def entry (metadata : Metadata) : Reader Fault Metadata := do
  let data ← text f 1024
  let key ← decoded f data
  demand (key ∉ metadata.keys) invalid
  let kind ← number f 4
  let found ← value f kind (keeps key)
  pure (metadata.set key found)

def entries : Nat → Metadata → Reader Fault Metadata
  | 0, metadata => pure metadata
  | n + 1, metadata => do
      let metadata ← entry f metadata
      entries n metadata

/-- The magic and the version, and the numbers of tensors and entries. -/
def preamble : Reader Fault (Nat × Nat) := do
  let magic ← read f 4
  demand (magic = [71, 71, 85, 70]) invalid
  let version ← number f 4
  demand (version = 3) invalid
  let tensors ← number f 8
  let entries ← number f 8
  demand (0 < tensors ∧ tensors ≤ 100000 ∧ 0 < entries ∧ entries ≤ 4096) invalid
  pure (tensors, entries)

/-! ### Checks of the metadata -/

def PyValue.isOne : PyValue → Bool
  | .int n => n = 1
  | .bool b => b
  | .float false bits => bits = 0x3f800000
  | .float true bits => bits = 0x3ff0000000000000
  | .str _ => false
  | .none => false

def PyValue.truthy : PyValue → Bool
  | .int n => n ≠ 0
  | .bool b => b
  | .float false bits => bits % 2 ^ 31 ≠ 0
  | .float true bits => bits % 2 ^ 63 ≠ 0
  | .str text => text ≠ ""
  | .none => false

def PyValue.str? : PyValue → Option String
  | .str text => some text
  | _ => Option.none

def PyValue.int? : PyValue → Option Int
  | .int n => some n
  | _ => Option.none

/-- `metadata.get(key, default)`. -/
def get (metadata : Metadata) (key : String) (default : PyValue) : PyValue :=
  (metadata.get? key).getD default

/-- The architecture, if the file holds one model that is supported. -/
def architecture (metadata : Metadata) : Option String :=
  if ((get metadata "general.type" (.str "model")).str? = some "model") then
    ((get metadata "general.architecture" .none).str?).filter (· ∈ architectures)
  else none

def alignment (metadata : Metadata) : Option Nat :=
  match (get metadata "general.alignment" (.int 32)).int? with
  | none => none
  | some n => if 1 ≤ n ∧ n ≤ 4096 ∧ n.toNat &&& (n.toNat - 1) = 0 then some n.toNat else none

def contextWindow (metadata : Metadata) (arch : String) : Option Int :=
  ((get metadata (arch ++ ".context_length") (.int 4096)).int?).filter (256 ≤ ·)

/-- `metadata.get(key) or default`, which has to be a text. -/
def textOr (metadata : Metadata) (key default : String) : Option String :=
  if (get metadata key .none).truthy = true then (get metadata key .none).str? else some default

/-! ### Tensors -/

/-- The checks of a tensor's blocks, and its bytes from the start of the data. -/
def blocks (align : Nat) (dimensions : List Nat) (quant offset : Nat) : Reader Fault (Nat × Nat) :=
  match quants quant with
  | none => throw (.native "unsupported_quantization")
  | some q => do
      demand ((∀ d ∈ dimensions, d ≠ 0) ∧ dimensions.headD 0 % q.1 = 0 ∧ offset % align = 0) invalid
      pure (offset, offset + dimensions.prod / q.1 * q.2)

def tensor (align : Nat) : Reader Fault (Nat × Nat) := do
  let _ ← text f 1024
  let nd ← number f 4
  demand (1 ≤ nd ∧ nd ≤ 4) invalid
  let dimensions ← many (number f 8) nd
  let quant ← number f 4
  let offset ← number f 8
  blocks align dimensions quant offset

/-- The order of pairs in Python. -/
def before (a b : Nat × Nat) : Prop := a.1 < b.1 ∨ a.1 = b.1 ∧ a.2 ≤ b.2

instance : DecidableRel before := fun a b =>
  inferInstanceAs (Decidable (a.1 < b.1 ∨ a.1 = b.1 ∧ a.2 ≤ b.2))

/-- The pass over the sorted ranges. -/
def place (start size : Nat) : Nat → List (Nat × Nat) → Bool
  | _, [] => true
  | previous, (first, last) :: rest =>
      if first < previous ∨ size < last + start then false else place start size last rest

def aligned (position align : Nat) : Nat := (position + align - 1) / align * align

/-! ### The inspection -/

structure Info where
  name : String
  fileName : String
  sizeBytes : Nat
  architecture : String
  contextWindow : Int
  licenseId : String

/-- `text[:limit]`. -/
def cut (limit : Nat) (text : String) : String := String.ofList (text.toList.take limit)

/-- A failure for nothing. -/
def need (e : Fault) (found : Option α) : Reader Fault α :=
  match found with
  | none => throw e
  | some a => pure a

/-- What is read of the header: the metadata with what is checked of it before the tensors, and
their ranges. -/
structure Headers where
  metadata : Metadata
  arch : String
  align : Nat
  ranges : List (Nat × Nat)

def headers : Reader Fault Headers := do
  let counts ← preamble f
  let metadata ← entries f counts.2 .empty
  let arch ← need (.native "unsupported_model") (architecture metadata)
  demand ((get metadata "split.count" (.int 1)).isOne = true) (.native "split_model_unsupported")
  let align ← need invalid (alignment metadata)
  let ranges ← many (tensor f align) counts.1
  pure ⟨metadata, arch, align, ranges⟩

/-- The checks after the tensors were read up to a position. -/
def conclude (path : Path) (h : Headers) (tell : Nat) : Except Fault Info := do
  require invalid (place (aligned tell h.align) f.bytes.length 0
    (h.ranges.insertionSort before) = true)
  let context ← demand (.native "unsupported_model") (contextWindow h.metadata h.arch)
  let name ← demand invalid (textOr h.metadata "general.name" path.stem)
  let license ← demand invalid (textOr h.metadata "general.license" "unknown")
  pure ⟨cut 160 name, path.name, f.bytes.length, h.arch, min context 4096, cut 120 license⟩

def inspect (path : Path) : Except Fault Info := do
  let (h, s) ← headers f ⟨0, 0⟩
  conclude f path h s.position

/-- `except (UnicodeError, ..)` maps what is no error of this module. -/
def inspectModel (path : Path) : Except Fault Info :=
  if ¬ (path.isGguf = true ∧ path.isFile = true) then .error (.native "unsupported_file")
  else if maxModelBytes < f.bytes.length then .error (.native "model_too_large")
  else
    match inspect f path with
    | .ok info => .ok info
    | .error (.native code) => .error (.native code)
    | .error .unicode => .error invalid

end Gguf
