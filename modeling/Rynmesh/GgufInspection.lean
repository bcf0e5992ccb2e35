import Mathlib.Algebra.BigOperators.Ring.List
import Rynmesh.GgufFormat

/-!
# What the inspection accepts

* `reads_headers` says which headers the source reads;
* `entries_unique`: the bytes of some entries say what the entries are;
* `place_iff`: the pass over the sorted ranges decides whether they are disjoint;
* `inspectModel_ok` and `inspectModel_of`: what is accepted, in both directions;
* `inspection_sound_iff`: what is accepted is well formed, up to the type of an empty array.
-/

namespace Gguf

open Checked BoundedReading

/-! ### Headers that are read -/

/-- What is read of a header. -/
structure Header.Admitted (f : Source) (header : Header) (h : Headers) : Prop where
  counts : 0 < header.tensors.length ∧ header.tensors.length ≤ 100000 ∧
    0 < header.entries.length ∧ header.entries.length ≤ 4096
  metadata : Extends f .empty header.entries h.metadata
  arch : architecture h.metadata = some h.arch
  single : (get h.metadata "split.count" (.int 1)).isOne = true
  align : alignment h.metadata = some h.align
  tensors : ∀ t ∈ header.tensors, t.Fits ∧ t.offset % h.align = 0
  ranges : h.ranges = header.tensors.map Tensor.range

variable {f : Source}

theorem reads_headers {quiet : Prop} (hquiet : quiet → ∀ n, f.cancel n = false) :
    Reads f.bytes f.limit quiet (headers f)
      (fun h word => ∃ header : Header, header.Admitted f h ∧ word = header.encode) := by
  refine ((reads_preamble hquiet).bind fun counts =>
    (reads_entries hquiet counts.2 .empty).bind fun metadata =>
      (reads_need _ (architecture metadata)).bind fun arch =>
        (Reads.demand _ _).bind fun _ =>
          (reads_need invalid (alignment metadata)).bind fun align =>
            ((reads_tensor hquiet align).many counts.1).bind fun ranges =>
              Reads.pure (⟨metadata, arch, align, ranges⟩ : Headers)).congr fun h word => ?_
  constructor
  · intro hformat
    obtain ⟨⟨tensors, count⟩, _, _, ⟨hcounts, rfl⟩, ⟨metadata, _, _, ⟨es, rfl, hmetadata, rfl⟩,
      ⟨arch, _, _, ⟨harch, rfl⟩, ⟨_, _, _, ⟨hsingle, rfl⟩, ⟨align, _, _, ⟨halign, rfl⟩,
        ⟨ranges, _, _, ⟨hlength, hmany⟩, ⟨rfl, rfl⟩, rfl⟩, rfl⟩, rfl⟩, rfl⟩, rfl⟩, rfl⟩ := hformat
    obtain ⟨ts, htensors, rfl, rfl⟩ := Reads.many_iff.mp hmany
    rw [List.length_map] at hlength
    subst hlength
    exact ⟨⟨es, ts⟩, ⟨hcounts, hmetadata, harch, hsingle, halign, htensors, rfl⟩, by
      simp [Header.encode]⟩
  · rintro ⟨header, hadmitted, rfl⟩
    obtain ⟨metadata, arch, align, ranges⟩ := h
    exact ⟨(header.tensors.length, header.entries.length), _, _, ⟨hadmitted.counts, rfl⟩,
      ⟨metadata, _, _, ⟨header.entries, rfl, hadmitted.metadata, rfl⟩,
        ⟨arch, [], _, ⟨hadmitted.arch, rfl⟩, ⟨(), [], _, ⟨hadmitted.single, rfl⟩,
          ⟨align, [], _, ⟨hadmitted.align, rfl⟩, ⟨ranges, header.tensors.flatMap Tensor.encode, [],
            ⟨by rw [show ranges = header.tensors.map Tensor.range from hadmitted.ranges,
                List.length_map],
              Reads.many_iff.mpr ⟨header.tensors, hadmitted.tensors, rfl, hadmitted.ranges⟩⟩,
            ⟨rfl, rfl⟩, rfl⟩, rfl⟩, rfl⟩, rfl⟩, rfl⟩, by simp [Header.encode]⟩

theorem Extends.names {es : List Entry} {metadata found : Metadata}
    (h : Extends f metadata es found) :
    (es.map fun e => f.decode e.key).Nodup ∧ ∀ e ∈ es, e.key.length ≤ 1024 ∧ e.value.Fits ∧
      ∃ key, f.decode e.key = some key ∧ key ∉ metadata.keys := by
  induction es generalizing metadata with
  | nil => exact ⟨List.nodup_nil, fun e he => (List.not_mem_nil he).elim⟩
  | cons e rest ih =>
    obtain ⟨key, a, hstands, hnew, hextends⟩ := h
    obtain ⟨hnodup, hrest⟩ := ih hextends
    refine ⟨List.nodup_cons.mpr ⟨fun hmem => ?_, hnodup⟩, List.forall_mem_cons.mpr
      ⟨⟨hstands.short, hstands.fits, key, hstands.named, hnew⟩, fun other hother => ?_⟩⟩
    · obtain ⟨other, hother, hsame⟩ := List.mem_map.mp hmem
      obtain ⟨_, _, otherKey, hnamed, hnot⟩ := hrest other hother
      have hkeys : some otherKey = some key := hnamed.symm.trans (hsame.trans hstands.named)
      rw [Option.some.injEq] at hkeys
      subst hkeys
      exact hnot (Dict.mem_keys_set.mpr (.inl rfl))
    · obtain ⟨hshort, hfits, otherKey, hnamed, hnot⟩ := hrest other hother
      exact ⟨hshort, hfits, otherKey, hnamed, fun hmem =>
        hnot (Dict.mem_keys_set.mpr (.inr hmem))⟩

/-! ### Bytes say what they encode -/

variable {r s : Bytes}

theorem toBytes_unique {width a b : Nat} (ha : a < 256 ^ width) (hb : b < 256 ^ width)
    (h : toBytes width a ++ r = toBytes width b ++ s) : a = b ∧ r = s := by
  obtain ⟨hword, hrest⟩ := List.append_inj h (by rw [length_toBytes, length_toBytes])
  exact ⟨by rw [← ofBytes_toBytes ha, hword, ofBytes_toBytes hb], hrest⟩

theorem text_unique {a b : Bytes} (ha : a.length < 256 ^ 8) (hb : b.length < 256 ^ 8)
    (h : encodeText a ++ r = encodeText b ++ s) : a = b ∧ r = s := by
  obtain ⟨hlength, hrest⟩ := toBytes_unique ha hb h
  exact List.append_inj hrest hlength

theorem flatMap_unique {α : Type} {ok : α → Prop} {enc : α → Bytes}
    (henc : ∀ a b r s, ok a → ok b → enc a ++ r = enc b ++ s → a = b ∧ r = s) {xs ys : List α}
    (hlength : xs.length = ys.length) (hxs : ∀ x ∈ xs, ok x) (hys : ∀ y ∈ ys, ok y)
    (h : xs.flatMap enc ++ r = ys.flatMap enc ++ s) : xs = ys ∧ r = s := by
  induction xs generalizing ys with
  | nil =>
    rw [List.length_nil, eq_comm, List.length_eq_zero_iff] at hlength
    subst hlength
    exact ⟨rfl, h⟩
  | cons x xs ih =>
    cases ys with
    | nil => cases hlength
    | cons y ys =>
      rw [List.forall_mem_cons] at hxs hys
      rw [List.flatMap_cons, List.flatMap_cons, List.append_assoc, List.append_assoc] at h
      obtain ⟨rfl, hrest⟩ := henc x y _ _ hxs.1 hys.1 h
      obtain ⟨rfl, hr⟩ := ih (Nat.succ.inj hlength) hxs.2 hys.2 hrest
      exact ⟨rfl, hr⟩

theorem element_unique {child : Nat} {a b : Bytes} (ha : ElementFits child a)
    (hb : ElementFits child b) (h : encodeElement child a ++ r = encodeElement child b ++ s) :
    a = b ∧ r = s := by
  unfold encodeElement at h
  rcases ha with ha | ha
  · have hchild : child ≠ 8 := fun hchild => by
      subst hchild
      cases ha
    rcases hb with hb | hb
    · rw [if_neg hchild, if_neg hchild] at h
      rw [ha, Option.some.injEq] at hb
      exact List.append_inj h hb
    · exact absurd hb.1 hchild
  · obtain ⟨rfl, ha⟩ := ha
    rcases hb with hb | hb
    · cases hb
    · rw [if_pos rfl, if_pos rfl] at h
      exact text_unique (lt_of_le_of_lt ha (by decide)) (lt_of_le_of_lt hb.2 (by decide)) h

theorem value_unique {v w : MetaValue} (hv : v.Fits) (hw : w.Fits) (hkind : v.kind = w.kind)
    (h : v.payload ++ r = w.payload ++ s) : v = w ∧ r = s := by
  have hnumber : ∀ {kind data}, (MetaValue.number kind data).Fits → kind ≠ 8 ∧ kind ≠ 9 := by
    intro kind data hfits
    have hsome : formats kind = some data.length := hfits
    constructor
    · intro heq
      subst heq
      cases hsome
    · intro heq
      subst heq
      cases hsome
  cases v with
  | number kind data =>
    cases w with
    | number kind' data' =>
      have hsame : kind = kind' := hkind
      subst hsame
      have hsize : some data.length = some data'.length := Eq.trans (Eq.symm hv) hw
      obtain ⟨rfl, hr⟩ := List.append_inj h (Option.some.inj hsize)
      exact ⟨rfl, hr⟩
    | text data' => exact absurd hkind (hnumber hv).1
    | array child elements => exact absurd hkind (hnumber hv).2
  | text data =>
    cases w with
    | number kind' data' => exact absurd hkind.symm (hnumber hw).1
    | text data' =>
      obtain ⟨rfl, hr⟩ := text_unique (lt_of_le_of_lt hv (by decide))
        (lt_of_le_of_lt hw (by decide)) h
      exact ⟨rfl, hr⟩
    | array child elements => exact absurd hkind (show ¬ 8 = 9 by decide)
  | array child elements =>
    cases w with
    | number kind' data' => exact absurd hkind.symm (hnumber hw).2
    | text data' => exact absurd hkind (show ¬ 9 = 8 by decide)
    | array child' elements' =>
      obtain ⟨hchild, _, hmost, helements⟩ := hv
      obtain ⟨hchild', _, hmost', helements'⟩ := hw
      simp only [MetaValue.payload, List.append_assoc] at h
      obtain ⟨rfl, h⟩ := toBytes_unique hchild hchild' h
      obtain ⟨hlength, h⟩ := toBytes_unique (lt_of_le_of_lt hmost (by decide))
        (lt_of_le_of_lt hmost' (by decide)) h
      obtain ⟨rfl, hr⟩ := flatMap_unique (fun _ _ _ _ => element_unique) hlength helements
        helements' h
      exact ⟨rfl, hr⟩

theorem entry_unique {e e' : Entry} (he : e.key.length ≤ 1024 ∧ e.value.Fits)
    (he' : e'.key.length ≤ 1024 ∧ e'.value.Fits) (h : e.encode ++ r = e'.encode ++ s) :
    e = e' ∧ r = s := by
  unfold Entry.encode at h
  rw [List.append_assoc, List.append_assoc, List.append_assoc, List.append_assoc] at h
  obtain ⟨hkey, h⟩ := text_unique (lt_of_le_of_lt he.1 (by decide))
    (lt_of_le_of_lt he'.1 (by decide)) h
  obtain ⟨hkind, h⟩ := toBytes_unique he.2.kind_lt he'.2.kind_lt h
  obtain ⟨hvalue, hr⟩ := value_unique he.2 he'.2 hkind h
  obtain ⟨key, value⟩ := e
  exact ⟨by rw [show key = e'.key from hkey, show value = e'.value from hvalue], hr⟩

variable {header : Header}

/-- **The entries of a header** are known by the bytes that begin with it. -/
theorem entries_unique {other : Header}
    (hcount : header.tensors.length < 256 ^ 8 ∧ header.entries.length < 256 ^ 8)
    (hcount' : other.tensors.length < 256 ^ 8 ∧ other.entries.length < 256 ^ 8)
    (hfits : ∀ e ∈ header.entries, e.key.length ≤ 1024 ∧ e.value.Fits)
    (hfits' : ∀ e ∈ other.entries, e.key.length ≤ 1024 ∧ e.value.Fits)
    (h : header.encode ++ r = other.encode ++ s) : header.entries = other.entries := by
  unfold Header.encode at h
  simp only [List.append_assoc] at h
  obtain ⟨_, h⟩ := List.append_inj h rfl
  obtain ⟨_, h⟩ := List.append_inj h rfl
  obtain ⟨_, h⟩ := toBytes_unique hcount.1 hcount'.1 h
  obtain ⟨hlength, h⟩ := toBytes_unique hcount.2 hcount'.2 h
  exact (flatMap_unique (fun _ _ _ _ => entry_unique) hlength hfits hfits' h).1

/-! ### Ranges -/

def Apart (a b : Nat × Nat) : Prop := a.2 ≤ b.1 ∨ b.2 ≤ a.1

theorem quants_pos {quant : Nat} {q : Nat × Nat} (h : quants quant = some q) :
    0 < q.1 ∧ 0 < q.2 := by
  unfold quants at h
  split at h <;> first | (cases h; exact ⟨by decide, by decide⟩) | cases h

theorem Tensor.Fits.range_lt {t : Tensor} (h : t.Fits) : t.range.1 < t.range.2 := by
  obtain ⟨q, hq, hblock⟩ := h.quant
  obtain ⟨hpos, hsize⟩ := quants_pos hq
  have hprod : 0 < t.dimensions.prod / q.1 := by
    have hdims := h.dimensions
    have hcount := h.dimensioned.1
    cases hlist : t.dimensions with
    | nil => rw [hlist] at hcount; exact absurd hcount (by decide)
    | cons d rest =>
      rw [hlist] at hblock hdims
      have hdvd : q.1 ∣ (d :: rest).prod := by
        exact (Nat.dvd_of_mod_eq_zero hblock).mul_right _
      refine Nat.div_pos (Nat.le_of_dvd (Nat.pos_of_ne_zero ?_) hdvd) hpos
      exact List.prod_ne_zero fun hmem => (hdims 0 hmem).1 rfl
  unfold Tensor.range
  rw [hq]
  exact Nat.lt_add_of_pos_right (Nat.mul_pos hprod hsize)

/-- The pass goes through when every range begins behind the one before. -/
theorem place_eq {start size previous : Nat} {ranges : List (Nat × Nat)}
    (hpos : ∀ r ∈ ranges, r.1 < r.2) : place start size previous ranges = true ↔
      (∀ r ∈ ranges, previous ≤ r.1) ∧ ranges.Pairwise (fun a b => a.2 ≤ b.1) ∧
        ∀ r ∈ ranges, r.2 + start ≤ size := by
  induction ranges generalizing previous with
  | nil => simp [place]
  | cons r rest ih =>
    obtain ⟨first, last⟩ := r
    rw [List.forall_mem_cons] at hpos
    unfold place
    rw [List.forall_mem_cons, List.forall_mem_cons, List.pairwise_cons]
    by_cases hbad : first < previous ∨ size < last + start
    · rw [if_pos hbad]
      refine ⟨fun h => absurd h Bool.false_ne_true, fun h => ?_⟩
      omega
    · rw [if_neg hbad, ih hpos.2]
      rw [not_or, Nat.not_lt, Nat.not_lt] at hbad
      constructor
      · intro h
        refine ⟨⟨hbad.1, fun x hx => ?_⟩, ⟨h.1, h.2.1⟩, hbad.2, h.2.2⟩
        have hnext := h.1 x hx
        omega
      · exact fun h => ⟨h.2.1.1, h.2.1.2, h.2.2.2⟩

instance : Std.Total before := ⟨fun a b => by unfold before; omega⟩

instance : IsTrans (Nat × Nat) before := ⟨fun a b c => by unfold before; omega⟩

/-- **The pass over the sorted ranges** decides whether they are apart and end in the file. -/
theorem place_iff {start size : Nat} {ranges : List (Nat × Nat)} (hpos : ∀ r ∈ ranges, r.1 < r.2) :
    place start size 0 (ranges.insertionSort before) = true ↔
      ranges.Pairwise Apart ∧ ∀ r ∈ ranges, r.2 + start ≤ size := by
  have hperm := List.perm_insertionSort before ranges
  have hmem : ∀ r, r ∈ ranges.insertionSort before ↔ r ∈ ranges := fun r => hperm.mem_iff
  rw [place_eq fun r hr => hpos r ((hmem r).mp hr),
    ← hperm.pairwise_iff fun {a b} (h : Apart a b) => h.symm]
  simp only [Nat.zero_le, implies_true, true_and, hmem]
  refine and_congr_left fun _ => ⟨fun h => h.imp fun hle => .inl hle, fun h => ?_⟩
  have hsorted := List.pairwise_insertionSort before ranges
  refine ((hsorted.and h).imp_of_mem fun {a b} ha hb hab => ?_)
  have hb := hpos b ((hmem b).mp hb)
  obtain ⟨hbefore, hapart⟩ := hab
  unfold before at hbefore
  unfold Apart at hapart
  omega

theorem aligned_mod (tell align : Nat) : aligned tell align % align = 0 := Nat.mul_mod_left _ _

theorem le_aligned {tell align : Nat} (h : 0 < align) : tell ≤ aligned tell align := by
  have hdiv := Nat.div_add_mod (tell + align - 1) align
  have hmod := Nat.mod_lt (tell + align - 1) h
  unfold aligned
  rw [Nat.mul_comm] at hdiv
  omega

theorem alignment_pos {metadata : Metadata} {align : Nat} (h : alignment metadata = some align) :
    0 < align := by
  unfold alignment at h
  cases hfound : (get metadata "general.alignment" (.int 32)).int? with
  | none => rw [hfound] at h; cases h
  | some n =>
    rw [hfound] at h
    dsimp only at h
    by_cases hn : 1 ≤ n ∧ n ≤ 4096 ∧ n.toNat &&& (n.toNat - 1) = 0
    · rw [if_pos hn] at h
      cases h
      omega
    · rw [if_neg hn] at h
      cases h

/-! ### The inspection -/

/-- A file as `inspect_model` accepts it, with what it returns. -/
structure Inspected (f : Source) (path : Path) (header : Header) (rest : Bytes) (info : Info) :
    Prop where
  file : path.isGguf = true ∧ path.isFile = true ∧ f.bytes.length ≤ maxModelBytes
  bytes : f.bytes = header.encode ++ rest
  bounded : header.encode.length ≤ f.limit
  read : ∃ h : Headers, header.Admitted f h ∧
    (header.tensors.map Tensor.range).Pairwise Apart ∧
    (∀ t ∈ header.tensors, t.range.2 + aligned header.encode.length h.align ≤ f.bytes.length) ∧
    ∃ context name license, contextWindow h.metadata h.arch = some context ∧
      textOr h.metadata "general.name" path.stem = some name ∧
      textOr h.metadata "general.license" "unknown" = some license ∧
      info = ⟨cut 160 name, path.name, f.bytes.length, h.arch, min context 4096, cut 120 license⟩

variable {path : Path} {info : Info}

theorem conclude_ok {h : Headers} {tell : Nat} :
    conclude f path h tell = .ok info ↔
      place (aligned tell h.align) f.bytes.length 0 (h.ranges.insertionSort before) = true ∧
      ∃ context name license, contextWindow h.metadata h.arch = some context ∧
        textOr h.metadata "general.name" path.stem = some name ∧
        textOr h.metadata "general.license" "unknown" = some license ∧
        info = ⟨cut 160 name, path.name, f.bytes.length, h.arch, min context 4096,
          cut 120 license⟩ := by
  unfold conclude
  simp only [bind_ok, require_ok, demand_ok, exists_const, pure,
    Except.pure, Except.ok.injEq]
  constructor
  · rintro ⟨hplace, context, hcontext, name, hname, license, hlicense, rfl⟩
    exact ⟨hplace, context, name, license, hcontext, hname, hlicense, rfl⟩
  · rintro ⟨hplace, context, name, license, hcontext, hname, hlicense, rfl⟩
    exact ⟨hplace, context, hcontext, name, hname, license, hlicense, rfl⟩

theorem inspectModel_eq_ok :
    inspectModel f path = .ok info ↔
      (path.isGguf = true ∧ path.isFile = true ∧ f.bytes.length ≤ maxModelBytes) ∧
        inspect f path = .ok info := by
  unfold inspectModel
  by_cases hfile : ¬ (path.isGguf = true ∧ path.isFile = true)
  · rw [if_pos hfile]
    exact ⟨fun h => (by cases h), fun h => absurd ⟨h.1.1, h.1.2.1⟩ hfile⟩
  rw [if_neg hfile]
  by_cases hsize : maxModelBytes < f.bytes.length
  · rw [if_pos hsize]
    exact ⟨fun h => (by cases h), fun h => absurd h.1.2.2 (Nat.not_le.mpr hsize)⟩
  rw [if_neg hsize]
  rw [not_not] at hfile
  have hconditions : path.isGguf = true ∧ path.isFile = true ∧ f.bytes.length ≤ maxModelBytes :=
    ⟨hfile.1, hfile.2, Nat.not_lt.mp hsize⟩
  cases inspect f path with
  | ok found => exact ⟨fun h => ⟨hconditions, h⟩, fun h => h.2⟩
  | error e => cases e <;> exact ⟨fun h => (by cases h), fun h => (by cases h.2)⟩

theorem ranges_pos {h : Headers} (hadmitted : header.Admitted f h) : ∀ r ∈ h.ranges, r.1 < r.2 := by
  rw [hadmitted.ranges]
  intro r hr
  obtain ⟨t, ht, rfl⟩ := List.mem_map.mp hr
  exact (hadmitted.tensors t ht).1.range_lt

/-- **What is accepted** is a file with a header that is read. -/
theorem inspectModel_ok (h : inspectModel f path = .ok info) :
    ∃ header rest, Inspected f path header rest info := by
  obtain ⟨hfile, hinspect⟩ := inspectModel_eq_ok.mp h
  obtain ⟨⟨hs, s⟩, hheaders, hconclude⟩ := bind_ok.mp hinspect
  have hreads := reads_headers (f := f) False.elim
  obtain ⟨word, ⟨header, hadmitted, rfl⟩, hdrop, hposition, hlimit⟩ := hreads.sound _ _ _ hheaders
  obtain ⟨hplace, hinfo⟩ := conclude_ok.mp hconclude
  rw [Nat.zero_add] at hposition
  rw [place_iff (ranges_pos hadmitted), hposition, hadmitted.ranges] at hplace
  refine ⟨header, f.bytes.drop s.position, hfile, hdrop, ?_, hs, hadmitted, hplace.1,
    fun t ht => hplace.2 _ (List.mem_map_of_mem ht), hinfo⟩
  rw [← hposition]
  exact hlimit (Nat.zero_le _)

/-- **Such a file is accepted** unless the caller cancels. -/
theorem inspectModel_of {rest : Bytes} (hquiet : ∀ n, f.cancel n = false)
    (h : Inspected f path header rest info) : inspectModel f path = .ok info := by
  obtain ⟨hs, hadmitted, hapart, hend, hinfo⟩ := h.read
  refine inspectModel_eq_ok.mpr ⟨h.file, ?_⟩
  have hreads := reads_headers (f := f) fun _ : True => hquiet
  obtain ⟨s, hheaders, hposition⟩ := hreads.complete trivial ⟨0, 0⟩ hs header.encode rest
    ⟨header, hadmitted, rfl⟩ h.bytes (by rw [Nat.zero_add]; exact h.bounded)
  rw [Nat.zero_add] at hposition
  unfold inspect
  rw [bind_ok]
  refine ⟨(hs, s), hheaders, conclude_ok.mpr ⟨?_, hinfo⟩⟩
  rw [place_iff (ranges_pos hadmitted), hposition, hadmitted.ranges]
  refine ⟨hapart, fun r hr => ?_⟩
  obtain ⟨t, ht, rfl⟩ := List.mem_map.mp hr
  exact hend t ht

/-- **Exactly the files with a header that is read are accepted.**  Each is, unless the caller
cancels, with what its header says, and no call, cancelled or not, accepts another. -/
theorem inspection_exact (f : Source) (path : Path) (info : Info) :
    (inspectModel f path = .ok info → ∃ header rest, Inspected f path header rest info) ∧
    ((∀ n, f.cancel n = false) →
      (inspectModel f path = .ok info ↔ ∃ header rest, Inspected f path header rest info)) :=
  ⟨inspectModel_ok, fun hquiet =>
    ⟨inspectModel_ok, fun ⟨_, _, hinspected⟩ => inspectModel_of hquiet hinspected⟩⟩

/-! ### Well-formed files -/

/-- A file with a header of the format, every type of which is known, with what was returned. -/
structure WellFormed (f : Source) (header : Header) (rest : Bytes) (info : Info) : Prop where
  bytes : f.bytes = header.encode ++ rest
  bounded : header.encode.length ≤ f.bytes.length ∧ header.encode.length ≤ 128 * 1024 ^ 2
  counts : 0 < header.tensors.length ∧ header.tensors.length ≤ 100000 ∧
    0 < header.entries.length ∧ header.entries.length ≤ 4096
  named : (header.entries.map fun e => f.decode e.key).Nodup ∧
    ∀ e ∈ header.entries, (f.decode e.key).isSome = true
  typed : ∀ e ∈ header.entries, e.value.Fits ∧ e.value.Known
  quantized : ∀ t ∈ header.tensors, t.Fits
  placed : ∃ h : Headers, header.Admitted f h ∧ ∃ start,
    start = aligned header.encode.length h.align ∧ header.encode.length ≤ start ∧
    start % h.align = 0 ∧ (header.tensors.map Tensor.range).Pairwise Apart ∧
    ∀ t ∈ header.tensors, (start + t.range.1) % h.align = 0 ∧ t.range.1 < t.range.2 ∧
      start + t.range.2 ≤ f.bytes.length
  context : 256 ≤ info.contextWindow ∧ info.contextWindow ≤ 4096
  texts : info.name.length ≤ 160 ∧ info.licenseId.length ≤ 120

/-- What `inspect_model` accepts is well formed. -/
def Sound (f : Source) (path : Path) : Prop :=
  ∀ info, inspectModel f path = .ok info → ∃ header rest, WellFormed f header rest info

/-- A file that is otherwise in order has an empty array of elements of an unknown type. -/
def EmptyUnknown (f : Source) (path : Path) : Prop :=
  ∃ header rest info, Inspected f path header rest info ∧
    ∃ e ∈ header.entries, ∃ child, e.value = .array child [] ∧ formats child = none ∧ child ≠ 8

theorem length_cut (limit : Nat) (text : String) : (cut limit text).length ≤ limit := by
  unfold cut
  rw [String.length_ofList]
  exact List.length_take_le _ _

theorem contextWindow_le {metadata : Metadata} {arch : String} {context : Int}
    (h : contextWindow metadata arch = some context) : 256 ≤ context := by
  exact of_decide_eq_true (Option.filter_eq_some_iff.mp h).2

theorem known_or_empty {v : MetaValue} (h : v.Fits) :
    v.Known ∨ ∃ child, v = .array child [] ∧ formats child = none ∧ child ≠ 8 := by
  cases v with
  | number kind data | text data => exact .inl trivial
  | array child elements =>
    by_cases hknown : (MetaValue.array child elements).Known
    · exact .inl hknown
    have hnone : (formats child).isSome ≠ true ∧ child ≠ 8 := not_or.mp hknown
    cases elements with
    | nil => exact .inr ⟨child, rfl, Option.not_isSome_iff_eq_none.mp hnone.1, hnone.2⟩
    | cons data rest =>
      rcases h.2.2.2 data (.head _) with hsize | htext
      · exact absurd (by rw [hsize]; rfl) hnone.1
      · exact absurd htext.1 hnone.2

theorem Inspected.wellFormed {rest : Bytes} (h : Inspected f path header rest info)
    (hknown : ∀ e ∈ header.entries, e.value.Known) : WellFormed f header rest info := by
  obtain ⟨hs, hadmitted, hapart, hend, context, name, license, hcontext, _, _, rfl⟩ := h.read
  obtain ⟨hnodup, hentries⟩ := hadmitted.metadata.names
  have hlow := contextWindow_le hcontext
  have hbounded := h.bounded
  unfold Source.limit at hbounded
  refine
    { bytes := h.bytes
      bounded := ⟨by omega, by omega⟩
      counts := hadmitted.counts
      named := ⟨hnodup, fun e he => ?_⟩
      typed := fun e he => ⟨(hentries e he).2.1, hknown e he⟩
      quantized := fun t ht => (hadmitted.tensors t ht).1
      placed := ⟨hs, hadmitted, _, rfl, le_aligned (alignment_pos hadmitted.align),
        aligned_mod _ _, hapart, fun t ht => ⟨?_, (hadmitted.tensors t ht).1.range_lt, ?_⟩⟩
      context := ⟨by dsimp only; omega, by dsimp only; omega⟩
      texts := ⟨length_cut _ _, length_cut _ _⟩ }
  · obtain ⟨_, _, key, hkey, _⟩ := hentries e he
    rw [hkey]
    rfl
  · rw [Nat.add_mod, aligned_mod, Nat.zero_add, Nat.mod_mod]
    exact (hadmitted.tensors t ht).2
  · rw [Nat.add_comm]
    exact hend t ht

theorem sound_of (f : Source) (path : Path) (h : ¬ EmptyUnknown f path) : Sound f path := by
  intro info hok
  obtain ⟨header, rest, hinspected⟩ := inspectModel_ok hok
  refine ⟨header, rest, hinspected.wellFormed fun e he => ?_⟩
  obtain ⟨hs, hadmitted, _⟩ := hinspected.read
  rcases known_or_empty (hadmitted.metadata.names.2 e he).2.1 with hknown | hempty
  · exact hknown
  · exact absurd ⟨header, rest, info, hinspected, e, he, hempty⟩ h

theorem WellFormed.entries_eq {rest rest' : Bytes} (h : WellFormed f header rest info)
    (other : Header) (hcounts : other.tensors.length ≤ 100000 ∧ other.entries.length ≤ 4096)
    (hfits : ∀ e ∈ other.entries, e.key.length ≤ 1024 ∧ e.value.Fits)
    (hbytes : f.bytes = other.encode ++ rest') : other.entries = header.entries := by
  obtain ⟨hs, hadmitted, _⟩ := h.placed
  have hcount : ∀ {n m : Nat}, n ≤ 100000 ∧ m ≤ 4096 → n < 256 ^ 8 ∧ m < 256 ^ 8 :=
    fun {n m} hle => ⟨lt_of_le_of_lt hle.1 (by decide), lt_of_le_of_lt hle.2 (by decide)⟩
  exact entries_unique (hcount hcounts) (hcount ⟨h.counts.2.1, h.counts.2.2.2⟩) hfits
    (fun e he => ⟨(hadmitted.metadata.names.2 e he).1, (hadmitted.metadata.names.2 e he).2.1⟩)
    (hbytes.symm.trans h.bytes)

theorem not_known {child : Nat} (hformat : formats child = none) (hchild : child ≠ 8) :
    ¬ (MetaValue.array child []).Known := fun h => by
  rcases h with hsome | htext
  · rw [hformat] at hsome
    cases hsome
  · exact hchild htext

/-- A well-formed file has no other header with an array of an unknown type. -/
theorem not_emptyUnknown_of_sound (hquiet : ∀ n, f.cancel n = false) (h : Sound f path) :
    ¬ EmptyUnknown f path := by
  rintro ⟨header, rest, info, hinspected, e, he, child, hvalue, hformat, hchild⟩
  obtain ⟨other, rest', hwell⟩ := h info (inspectModel_of hquiet hinspected)
  obtain ⟨hs, hadmitted, _⟩ := hinspected.read
  rw [hwell.entries_eq header ⟨hadmitted.counts.2.1, hadmitted.counts.2.2.2⟩ (fun e he =>
    ⟨(hadmitted.metadata.names.2 e he).1, (hadmitted.metadata.names.2 e he).2.1⟩)
    hinspected.bytes] at he
  have hknown := (hwell.typed e he).2
  rw [hvalue] at hknown
  exact not_known hformat hchild hknown

/-- **Model inspection** raises its own error or returns, and it accepts only well-formed files
exactly where no empty array has an unknown element type. -/
theorem inspection_sound_iff (f : Source) (path : Path) :
    (∀ e, inspectModel f path = .error e → ∃ code, e = .native code) ∧
    (¬ EmptyUnknown f path → Sound f path) ∧
    ((∀ n, f.cancel n = false) → (Sound f path ↔ ¬ EmptyUnknown f path)) := by
  refine ⟨fun e h => ?_, sound_of f path, fun hquiet =>
    ⟨not_emptyUnknown_of_sound hquiet, sound_of f path⟩⟩
  unfold inspectModel at h
  split at h
  · cases h
    exact ⟨_, rfl⟩
  split at h
  · cases h
    exact ⟨_, rfl⟩
  split at h
  · cases h
  · cases h
    exact ⟨_, rfl⟩
  · cases h
    exact ⟨_, rfl⟩

/-! ### Samples -/

/-- `general.architecture` is `llama`, `x` is an empty array; one tensor has one element. -/
def sampleHeader (child : Nat) : Header where
  entries :=
    [⟨[103, 101, 110, 101, 114, 97, 108, 46, 97, 114, 99, 104, 105, 116, 101, 99, 116, 117, 114,
      101], .text [108, 108, 97, 109, 97]⟩, ⟨[120], .array child []⟩]
  tensors := [⟨[], [1], 24, 0⟩]

def sampleTexts : List (Bytes × String) :=
  [([103, 101, 110, 101, 114, 97, 108, 46, 97, 114, 99, 104, 105, 116, 101, 99, 116, 117, 114,
    101], "general.architecture"), ([108, 108, 97, 109, 97], "llama"), ([120], "x")]

/-- The file of the header, with data of 32 bytes. -/
def sampleSource (child : Nat) : Source where
  bytes := (sampleHeader child).encode ++ List.replicate 32 0
  cancel _ := false
  decode data := (sampleTexts.find? fun e => e.1 = data).map Prod.snd

def samplePath : Path := ⟨"model.gguf", "model", true, true⟩

/-- **An empty array of type 77** is accepted. -/
theorem empty_array_accepted :
    (inspectModel (sampleSource 77) samplePath).toOption.isSome = true ∧
      ¬ (MetaValue.array 77 []).Known ∧ ¬ Sound (sampleSource 77) samplePath := by
  have hunknown : ¬ (MetaValue.array 77 []).Known := not_known rfl (by decide)
  have hok : (inspectModel (sampleSource 77) samplePath).toOption.isSome = true := by
    decide +kernel
  refine ⟨hok, hunknown, fun h => ?_⟩
  obtain ⟨info, hinfo⟩ := toOption_isSome hok
  obtain ⟨header, rest, hwell⟩ := h info hinfo
  have hsame := hwell.entries_eq (sampleHeader 77) (by decide) (fun e he => ?_) rfl
  · have hmem : ⟨[120], .array 77 []⟩ ∈ header.entries :=
      hsame ▸ .tail _ (.head _)
    exact hunknown (hwell.typed _ hmem).2
  · rcases List.mem_cons.mp he with rfl | he
    · exact ⟨by decide, (by decide : 5 ≤ longText)⟩
    · rw [List.mem_singleton] at he
      subst he
      exact ⟨by decide, by decide, by decide, by decide, fun data hdata =>
        (List.not_mem_nil hdata).elim⟩

end Gguf
