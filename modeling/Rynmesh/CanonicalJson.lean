import Mathlib.Data.String.Basic
import Rynmesh.JsonText

/-!
# Canonical JSON

`canonical_json` of `crypto.py`: what is signed and hashed is the text of a value with
the keys of every object sorted, as UTF-8.

* `Alike` values differ in the order of keys only;
* `canonicalJson_eq_iff`: these are the values with the same bytes;
* `size_canonicalJson`: `size` counts the bytes.
-/

namespace Json

mutual

/-- A value as `sort_keys` writes it. -/
def sorted : Json → Json
  | .null => .null
  | .bool b => .bool b
  | .int n => .int n
  | .float value text => .float value text
  | .str s => .str s
  | .arr items => .arr (sortedItems items)
  | .obj fields => .obj ((sortedFields fields).insertionSort fun f g => f.1 ≤ g.1)
termination_by structural a => a

def sortedItems : List Json → List Json
  | [] => []
  | a :: as => sorted a :: sortedItems as
termination_by structural a => a

def sortedFields : List (String × Json) → List (String × Json)
  | [] => []
  | f :: rest => sortedField f :: sortedFields rest
termination_by structural a => a

def sortedField : String × Json → String × Json
  | (k, v) => (k, sorted v)
termination_by structural a => a

end

def canonicalJson (value : Json) : ByteArray := (String.ofList (text (sorted value))).toUTF8

/-- The keys of some objects stand in another order. -/
inductive Alike : Json → Json → Prop
  | refl (v : Json) : Alike v v
  | item {v w : Json} (before after : List Json) (h : Alike v w) :
      Alike (.arr (before ++ v :: after)) (.arr (before ++ w :: after))
  | field {v w : Json} (before after : List (String × Json)) (k : String) (h : Alike v w) :
      Alike (.obj (before ++ (k, v) :: after)) (.obj (before ++ (k, w) :: after))
  | order {fields others : List (String × Json)} (h : fields.Perm others) :
      Alike (.obj fields) (.obj others)
  | trans {u v w : Json} (h : Alike u v) (h' : Alike v w) : Alike u w

theorem Alike.symm {v w : Json} (h : Alike v w) : Alike w v := by
  induction h with
  | refl v => exact .refl v
  | item before after _ ih => exact .item before after ih
  | field before after k _ ih => exact .field before after k ih
  | order h => exact .order h.symm
  | trans _ _ ih ih' => exact .trans ih' ih

mutual

theorem alike_sorted : ∀ v, Alike v (sorted v)
  | .null => .refl _
  | .bool _ => .refl _
  | .int _ => .refl _
  | .float _ _ => .refl _
  | .str _ => .refl _
  | .arr items => alike_sortedItems items []
  | .obj fields => (alike_sortedFields fields []).trans (.order (List.perm_insertionSort _ _).symm)

theorem alike_sortedItems : ∀ items before,
    Alike (.arr (before ++ items)) (.arr (before ++ sortedItems items))
  | [], _ => .refl _
  | a :: as, before => by
      have hrest := alike_sortedItems as (before ++ [sorted a])
      rw [List.append_assoc, List.append_assoc] at hrest
      exact (Alike.item before as (alike_sorted a)).trans hrest

theorem alike_sortedFields : ∀ fields before,
    Alike (.obj (before ++ fields)) (.obj (before ++ sortedFields fields))
  | [], _ => .refl _
  | (k, v) :: rest, before => by
      have hrest := alike_sortedFields rest (before ++ [(k, sorted v)])
      rw [List.append_assoc, List.append_assoc] at hrest
      exact (Alike.field before rest k (alike_sortedField (k, v))).trans hrest

theorem alike_sortedField : ∀ f : String × Json, Alike f.2 (sorted f.2)
  | (_, v) => alike_sorted v

end

theorem sortedItems_eq (items : List Json) : sortedItems items = items.map sorted := by
  induction items with
  | nil => rfl
  | cons a as ih => rw [sortedItems, ih, List.map_cons]

theorem sortedFields_eq (fields : List (String × Json)) :
    sortedFields fields = fields.map fun f => (f.1, sorted f.2) := by
  induction fields with
  | nil => rfl
  | cons f rest ih => rw [sortedFields, ih, List.map_cons, sortedField]

section Reading

variable {float : String → Json} {v w : Json} {fields others : List (String × Json)}

theorem writtenItems_iff {items : List Json} :
    WrittenItems float items ↔ ∀ a ∈ items, Written float a := by
  induction items with
  | nil => simp [WrittenItems]
  | cons a as ih => rw [WrittenItems, ih, List.forall_mem_cons]

theorem writtenFields_iff : WrittenFields float fields ↔ ∀ f ∈ fields, Written float f.2 := by
  induction fields with
  | nil => simp [WrittenFields]
  | cons f rest ih => rw [WrittenFields, ih, List.forall_mem_cons, WrittenField]

/-- Where each key stands once, sorting forgets the order. -/
theorem sortedFields_perm (hnodup : (fields.map Prod.fst).Nodup) (h : fields.Perm others) :
    (sortedFields fields).insertionSort (fun f g => f.1 ≤ g.1) =
      (sortedFields others).insertionSort fun f g => f.1 ≤ g.1 := by
  rw [sortedFields_eq, sortedFields_eq]
  have hmap := h.map fun f => (f.1, sorted f.2)
  have hsorted : ∀ l : List (String × Json),
      (l.insertionSort fun f g => f.1 ≤ g.1).Pairwise fun f g => f.1 ≤ g.1 :=
    List.pairwise_insertionSort _
  refine List.Perm.eq_of_pairwise ?_ (hsorted _) (hsorted _) ((List.perm_insertionSort _ _).trans
    (hmap.trans (List.perm_insertionSort _ _).symm))
  intro f g hf hg hle hge
  have hkeys : ((fields.map fun f => (f.1, sorted f.2)).map Prod.fst).Nodup := by
    rw [List.map_map]
    exact hnodup
  rw [List.mem_insertionSort] at hf
  rw [List.mem_insertionSort, ← hmap.mem_iff] at hg
  exact List.inj_on_of_nodup_map hkeys hf hg (le_antisymm hle hge)

/-- **Alike values are written the same way.** -/
theorem Alike.sorted_eq (h : Alike v w) (hv : Written float v) :
    Written float w ∧ sorted v = sorted w := by
  induction h with
  | refl v => exact ⟨hv, rfl⟩
  | item before after _ ih =>
    simp only [Written, writtenItems_iff, List.forall_mem_append, List.forall_mem_cons] at hv ⊢
    obtain ⟨hw, heq⟩ := ih hv.2.1
    exact ⟨⟨hv.1, hw, hv.2.2⟩, by simp [sorted, sortedItems_eq, heq]⟩
  | field before after k _ ih =>
    simp only [Written, writtenFields_iff, List.forall_mem_append, List.forall_mem_cons] at hv ⊢
    obtain ⟨hw, heq⟩ := ih hv.2.2.1
    exact ⟨⟨by simpa using hv.1, hv.2.1, hw, hv.2.2.2⟩, by simp [sorted, sortedFields_eq, heq]⟩
  | order h =>
    rw [Written, writtenFields_iff] at hv ⊢
    refine ⟨⟨(h.map Prod.fst).nodup_iff.mp hv.1, fun f hf => hv.2 f (h.mem_iff.mpr hf)⟩, ?_⟩
    rw [sorted, sorted, sortedFields_perm hv.1 h]
  | trans _ _ ih ih' =>
    obtain ⟨hu, heq⟩ := ih hv
    obtain ⟨hw, heq'⟩ := ih' hu
    exact ⟨hw, heq.trans heq'⟩

/-- **The canonical bytes of a value tell the value**, but for the order of its keys, and
it is read back from them. -/
theorem canonicalJson_eq_iff (hv : Written float v) (hw : Written float w) :
    parse float (text (sorted v)) = some (sorted v) ∧
      (canonicalJson v = canonicalJson w ↔ Alike v w) := by
  have hread : ∀ u, Written float u → parse float (text (sorted u)) = some (sorted u) :=
    fun u hu => parse_text float ((alike_sorted u).sorted_eq hu).1
  refine ⟨hread v hv, fun h => ?_, fun h => ?_⟩
  · rw [canonicalJson, canonicalJson, String.toUTF8_eq_toByteArray, String.toUTF8_eq_toByteArray,
      String.toByteArray_inj] at h
    have hsorted : sorted v = sorted w := by
      rw [← Option.some.injEq, ← hread v hv, String.ofList_injective h, hread w hw]
    exact (alike_sorted v).trans (hsorted ▸ (alike_sorted w).symm)
  · rw [canonicalJson, canonicalJson, (h.sorted_eq hv).2]

/-- The fields `b`, a float, and `a` in both orders. -/
theorem canonicalJson_eq_iff_sample :
    canonicalJson (.obj [("b", .float (some (3 / 2)) "1.5"), ("a", .int (-20))]) =
      canonicalJson (.obj [("a", .int (-20)), ("b", .float (some (3 / 2)) "1.5")]) := by
  have htext : FloatText "1.5".toList :=
    .inr (.inr (.inr ⟨[], ['1'], ['.', '5'], [], ⟨.inl rfl,
      .inr ⟨⟨by decide, by simp⟩, by decide⟩, .inr ⟨['5'], rfl, by decide, by simp⟩, .inl rfl⟩,
      by decide, rfl⟩))
  have hwritten : Written (.float (some (3 / 2)))
      (.obj [("b", .float (some (3 / 2)) "1.5"), ("a", .int (-20))]) :=
    ⟨by decide, ⟨htext, rfl⟩, trivial, trivial⟩
  have hother : Written (.float (some (3 / 2)))
      (.obj [("a", .int (-20)), ("b", .float (some (3 / 2)) "1.5")]) :=
    ⟨by decide, trivial, ⟨htext, rfl⟩, trivial⟩
  exact (canonicalJson_eq_iff hwritten hother).2.mpr (.order (.swap _ _ _))

end Reading

/-! ### The size of the bytes -/

theorem utf8Len_ascii {cs : List Char} (h : ∀ c ∈ cs, c.toNat < 128) :
    String.utf8Len cs = cs.length := by
  induction cs with
  | nil => rfl
  | cons c cs ih =>
    rw [List.forall_mem_cons] at h
    have hc : c.utf8Size = 1 :=
      Char.utf8Size_eq_one_iff.mpr (UInt32.le_iff_toNat_le.mpr (Nat.le_of_lt_succ h.1))
    rw [String.utf8Len_cons, ih h.2, hc, List.length_cons]

theorem utf8Len_escape (c : Char) : String.utf8Len (escape c) = charSize c := by
  have hhex : ∀ d < 16, (hexDigits.getD d '0').toNat < 128 := by decide
  unfold escape
  split_ifs with hquote hslash hn hr ht hb hf hcontrol
  iterate 7
    · rw [charSize, if_pos (by simp [*])]
      rfl
  · rw [charSize, if_neg (by simp [*]), if_pos hcontrol, utf8Len_ascii]
    · rfl
    · simp only [List.forall_mem_cons]
      exact ⟨by decide, by decide, by decide, by decide, hhex _ (by omega), hhex _ (by omega),
        by simp⟩
  · rw [charSize, if_neg (by simp [*]), if_neg hcontrol]
    exact Nat.zero_add _

theorem utf8Len_quote (s : String) : String.utf8Len (quote s) = stringSize s := by
  have hchars : ∀ cs : List Char,
      String.utf8Len (cs.flatMap escape) = (cs.map charSize).sum := by
    intro cs
    induction cs with
    | nil => rfl
    | cons c cs ih =>
      rw [List.flatMap_cons, String.utf8Len_append, ih, utf8Len_escape, List.map_cons,
        List.sum_cons]
  have hmark : Char.utf8Size '"' = 1 := rfl
  rw [quote, String.utf8Len_cons, String.utf8Len_append, hchars, stringSize]
  simp only [String.utf8Len_cons, String.utf8Len_nil, hmark]
  omega

theorem utf8Len_int (n : Int) : String.utf8Len (text (.int n)) = intSize n := by
  have hdigits : ∀ m : Nat, ∀ c ∈ Nat.toDigits 10 m, c.toNat < 128 := by
    intro m c hc
    have hdigit := Nat.isDigit_of_mem_toDigits (by decide) (by decide) hc
    simp only [Char.isDigit, Bool.and_eq_true, decide_eq_true_eq] at hdigit
    have := UInt32.le_iff_toNat_le.mp hdigit.2
    exact lt_of_le_of_lt this (by decide)
  cases n with
  | ofNat m =>
    show String.utf8Len m.repr.toList = _
    rw [Nat.toList_repr, utf8Len_ascii (hdigits m)]
    simp [intSize]
  | negSucc m =>
    show String.utf8Len ("-" ++ (m + 1).repr).toList = _
    rw [String.toList_append, Nat.toList_repr, String.utf8Len_append, utf8Len_ascii (hdigits _),
      intSize, if_pos (Int.negSucc_lt_zero m)]
    rfl

mutual

theorem utf8Len_text : ∀ v, String.utf8Len (text v) = size v
  | .null => rfl
  | .bool true => rfl
  | .bool false => rfl
  | .int n => utf8Len_int n
  | .float _ text => String.utf8Len_toList text
  | .str s => utf8Len_quote s
  | .arr items => by
      have hitems := utf8Len_textItems items
      rw [text, String.utf8Len_cons, String.utf8Len_append, hitems, size]
      show _ + 1 + 1 = _
      omega
  | .obj fields => by
      have hfields := utf8Len_textFields fields
      rw [text, String.utf8Len_cons, String.utf8Len_append, hfields, size]
      show _ + 1 + 1 = _
      omega

theorem utf8Len_textItems : ∀ items,
    String.utf8Len (textItems items) = sizeItems items + (items.length - 1)
  | [] => rfl
  | [a] => by simp [textItems, sizeItems, utf8Len_text a]
  | a :: b :: as => by
      have hrest := utf8Len_textItems (b :: as)
      have htext : textItems (a :: b :: as) = text a ++ ',' :: textItems (b :: as) := rfl
      have hsize : sizeItems (a :: b :: as) = size a + sizeItems (b :: as) := rfl
      rw [htext, String.utf8Len_append, String.utf8Len_cons, utf8Len_text a, hrest, hsize]
      show _ + (_ + 1) = _
      simp only [List.length_cons]
      omega

theorem utf8Len_textFields : ∀ fields,
    String.utf8Len (textFields fields) = sizeFields fields + (fields.length - 1)
  | [] => rfl
  | [f] => by simp [textFields, sizeFields, utf8Len_textField f]
  | f :: g :: more => by
      have hrest := utf8Len_textFields (g :: more)
      have htext : textFields (f :: g :: more) = textField f ++ ',' :: textFields (g :: more) := rfl
      have hsize : sizeFields (f :: g :: more) = sizeField f + sizeFields (g :: more) := rfl
      rw [htext, String.utf8Len_append, String.utf8Len_cons, utf8Len_textField f, hrest, hsize]
      show _ + (_ + 1) = _
      simp only [List.length_cons]
      omega

theorem utf8Len_textField : ∀ f, String.utf8Len (textField f) = sizeField f
  | (k, v) => by
      rw [textField, String.utf8Len_append, String.utf8Len_cons, utf8Len_quote, utf8Len_text v,
        sizeField]
      show _ + (_ + 1) = _
      omega

end

theorem sizeItems_eq (items : List Json) : sizeItems items = (items.map size).sum := by
  induction items with
  | nil => rfl
  | cons a as ih => rw [sizeItems, ih, List.map_cons, List.sum_cons]

theorem sizeFields_eq (fields : List (String × Json)) :
    sizeFields fields = (fields.map sizeField).sum := by
  induction fields with
  | nil => rfl
  | cons f rest ih => rw [sizeFields, ih, List.map_cons, List.sum_cons]

theorem Alike.size_eq {v w : Json} (h : Alike v w) : size v = size w := by
  induction h with
  | refl v => rfl
  | item before after _ ih => simp [size, sizeItems_eq, ih]
  | field before after k _ ih => simp [size, sizeFields_eq, sizeField, ih]
  | order h =>
    rw [size, size, sizeFields_eq, sizeFields_eq, (h.map sizeField).sum_eq, h.length_eq]
  | trans _ _ ih ih' => exact ih.trans ih'

/-- **The size of a value is that of its canonical bytes.** -/
theorem size_canonicalJson (value : Json) : (canonicalJson value).size = value.size := by
  rw [canonicalJson, String.toUTF8_eq_toByteArray, String.size_toByteArray,
    String.utf8ByteSize_ofList, utf8Len_text, (alike_sorted value).size_eq]

end Json
