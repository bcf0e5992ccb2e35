import Rynmesh.ApiStreamBlocks

/-!
# A streamed answer is the whole answer

The blocks that a client folds from the events are those of `convertMessages` and
`convertResponses`, when every call keeps to its index, its identifier and its name (`Whole`).

* `calls_joined`, `mem_assembled_call`, `mem_assembled_text`: each reader by the pieces;
* `whole_of_tools`, `blocks_perm`: the two agree exactly on whole calls.
-/

namespace Api

open Checked

variable {p : Platform}

/-! ### Pieces and parts -/

def texts (pieces : List Piece) : String :=
  pieces.foldl (fun text piece => match piece with
    | .text more => text ++ more
    | .call _ => text) ""

/-- The last identifier that is given. -/
def lastId (parts : List Part) : Json :=
  parts.foldl (fun id part => orElse part.fragment.id id) (.str "")

def names (parts : List Part) : String := parts.foldl (fun text part => text ++ part.name) ""

def argumentsOf (parts : List Part) : String :=
  parts.foldl (fun text part => text ++ part.arguments) ""

/-- The parts of one call. -/
def ofCall (key : Key) (parts : List Part) : List Part := parts.filter fun part => part.key = key

/-- The parts with one spelling of the index. -/
def spelled (p : Platform) (key : String) (parts : List Part) : List Part :=
  parts.filter fun part => part.spelling p = key

@[simp] theorem partsOf_append (pieces more : List Piece) :
    partsOf (pieces ++ more) = partsOf pieces ++ partsOf more :=
  List.filterMap_append

@[simp] theorem partsOf_text (text : String) : partsOf [.text text] = [] := rfl

@[simp] theorem partsOf_call (part : Part) : partsOf [.call part] = [part] := rfl

def joinedOf (pieces : List Piece) : Joined := pieces.foldl Joined.put ⟨"", .empty⟩

theorem joinedOf_concat (pieces : List Piece) (piece : Piece) :
    joinedOf (pieces ++ [piece]) = (joinedOf pieces).put piece := by
  rw [joinedOf, List.foldl_concat]
  rfl

theorem assembled_concat (pieces : List Piece) (piece : Piece) :
    assembled p (pieces ++ [piece]) = place p (assembled p pieces) piece := by
  rw [assembled, List.foldl_concat]
  rfl

theorem text_joined (pieces : List Piece) : (joinedOf pieces).text = texts pieces := by
  induction pieces using List.reverseRecOn with
  | nil => rfl
  | append_singleton pieces piece ih =>
    rw [joinedOf_concat, texts, List.foldl_concat]
    cases piece with
    | text more => exact congrArg (· ++ more) ih
    | call part => exact ih

theorem calls_joined (pieces : List Piece) (key : Key) :
    (joinedOf pieces).calls.get? key =
      match ofCall key (partsOf pieces) with
      | [] => none
      | parts => some ⟨lastId parts, names parts, argumentsOf parts⟩ := by
  induction pieces using List.reverseRecOn with
  | nil => rfl
  | append_singleton pieces piece ih =>
    rw [joinedOf_concat, partsOf_append]
    cases piece with
    | text more => simpa [Joined.put] using ih
    | call part =>
      simp only [Joined.put, Dict.get?_set, partsOf_call, ofCall, List.filter_append]
      by_cases hkey : part.key = key
      · subst hkey
        rw [ofCall] at ih
        cases hparts : (partsOf pieces).filter fun other => other.key = part.key with
        | nil | cons first rest =>
          rw [hparts] at ih
          simp [ih, lastId, names, argumentsOf]
      · have hother : key ≠ part.key := fun h => hkey h.symm
        rw [if_neg hother, ih, ofCall]
        simp [hkey]

theorem spelled_concat (key : String) (parts : List Part) (part : Part) :
    spelled p key (parts ++ [part]) =
      if part.spelling p = key then spelled p key parts ++ [part] else spelled p key parts := by
  by_cases h : part.spelling p = key
  · simp [spelled, h]
  · simp [spelled, h]

theorem argumentsOf_concat (parts : List Part) (part : Part) :
    argumentsOf (parts ++ [part]) = argumentsOf parts ++ part.arguments := by
  rw [argumentsOf, List.foldl_concat]
  rfl

theorem mem_place {built : List Built} {piece : Piece} (hblank : piece.blank = false) {b : Built} :
    b ∈ place p built piece ↔
      (b ∈ built ∧ b.key p ≠ piece.key p) ∨
        (∃ old ∈ built, old.key p = piece.key p ∧ b = old.extend piece) ∨
        (piece.key p ∉ built.map (Built.key p) ∧ b = piece.built) := by
  rw [place, if_neg (by simp [hblank])]
  by_cases hkey : piece.key p ∈ built.map (Built.key p)
  · rw [if_pos hkey, List.mem_map]
    constructor
    · intro hall
      obtain ⟨old, hold, hb⟩ := hall
      by_cases hsame : old.key p = piece.key p
      · rw [if_pos hsame] at hb
        exact Or.inr (Or.inl ⟨old, hold, hsame, hb.symm⟩)
      · rw [if_neg hsame] at hb
        exact Or.inl ⟨hb ▸ hold, hb ▸ hsame⟩
    · intro h
      obtain ⟨hold, hne⟩ | ⟨old, hold, hsame, rfl⟩ | ⟨hno, _⟩ := h
      · exact ⟨b, hold, if_neg hne⟩
      · exact ⟨old, hold, if_pos hsame⟩
      · exact absurd hkey hno
  · rw [if_neg hkey, List.mem_append, List.mem_singleton]
    constructor
    · intro h
      obtain hold | rfl := h
      · refine Or.inl ⟨hold, fun hsame => hkey ?_⟩
        exact List.mem_map.mpr ⟨b, hold, hsame⟩
      · exact Or.inr (Or.inr ⟨hkey, rfl⟩)
    · intro h
      obtain ⟨hold, _⟩ | ⟨old, hold, hsame, _⟩ | ⟨_, rfl⟩ := h
      · exact Or.inl hold
      · exact absurd (List.mem_map.mpr ⟨old, hold, hsame⟩) hkey
      · exact Or.inr rfl

theorem texts_concat_text (pieces : List Piece) (more : String) :
    texts (pieces ++ [.text more]) = texts pieces ++ more := by
  rw [texts, List.foldl_concat]
  rfl

theorem texts_concat_call (pieces : List Piece) (part : Part) :
    texts (pieces ++ [.call part]) = texts pieces := by
  rw [texts, List.foldl_concat]
  rfl

theorem mem_assembled_text (pieces : List Piece) {content : String} :
    Built.text content ∈ assembled p pieces ↔ texts pieces = content ∧ content ≠ "" := by
  induction pieces using List.reverseRecOn generalizing content with
  | nil =>
    simp only [assembled, List.foldl_nil, List.not_mem_nil, texts, false_iff, not_and, not_not]
    exact Eq.symm
  | append_singleton pieces piece ih =>
    rw [assembled_concat]
    cases piece with
    | call part =>
      rw [texts_concat_call, mem_place rfl, ← ih]
      constructor
      · intro h
        obtain ⟨h, _⟩ | ⟨old, _, hsame, hb⟩ | ⟨_, hb⟩ := h
        · exact h
        · cases old with
          | text old => exact absurd hsame.symm (spelling_ne_text part)
          | call first old => cases hb
        · cases hb
      · intro h
        exact Or.inl ⟨h, fun h => spelling_ne_text part h.symm⟩
    | text more =>
      rw [texts_concat_text]
      by_cases hblank : more = ""
      · subst hblank
        rw [String.append_empty, ← ih]
        rfl
      have hpiece : (Piece.text more).blank = false := by
        simpa [Piece.blank] using hblank
      have hnonempty : texts pieces ++ more ≠ "" := by
        intro h
        have hlist := congrArg String.toList h
        simp only [String.toList_append, String.toList_empty, List.append_eq_nil_iff] at hlist
        exact hblank (String.toList_inj.mp hlist.2)
      rw [mem_place hpiece]
      constructor
      · intro h
        obtain ⟨_, hne⟩ | ⟨old, hold, hsame, hb⟩ | ⟨hno, hb⟩ := h
        · exact absurd rfl hne
        · cases old with
          | call first old => exact absurd hsame (spelling_ne_text first)
          | text old =>
            rw [Built.extend, Built.text.injEq] at hb
            rw [(ih.mp hold).1, hb]
            exact ⟨rfl, by rw [← (ih.mp hold).1]; exact hnonempty⟩
        · rw [Piece.built, Built.text.injEq] at hb
          have hsilent : texts pieces = "" := by
            by_contra hne
            exact hno (List.mem_map.mpr ⟨_, ih.mpr ⟨rfl, hne⟩, rfl⟩)
          rw [hsilent, String.empty_append, hb]
          exact ⟨rfl, hblank⟩
      · intro hall
        obtain ⟨hcontent, _⟩ := hall
        subst hcontent
        by_cases hsilent : texts pieces = ""
        · refine Or.inr (Or.inr ⟨fun hmem => ?_, ?_⟩)
          · obtain ⟨b, hb, hkey⟩ := List.mem_map.mp hmem
            cases b with
            | call first old => exact spelling_ne_text first hkey
            | text old => exact (ih.mp hb).2 ((ih.mp hb).1.symm.trans hsilent)
          · rw [hsilent, String.empty_append]
            rfl
        · exact Or.inr (Or.inl ⟨.text (texts pieces), ih.mpr ⟨rfl, hsilent⟩, rfl, rfl⟩)

variable {first : Part}

theorem mem_assembled_call (pieces : List Piece) {arguments : String} :
    Built.call first arguments ∈ assembled p pieces ↔
      ∃ rest, spelled p (first.spelling p) (partsOf pieces) = first :: rest ∧
        argumentsOf (first :: rest) = arguments := by
  induction pieces using List.reverseRecOn generalizing first arguments with
  | nil => simp [assembled, spelled, partsOf]
  | append_singleton pieces piece ih =>
    rw [assembled_concat, partsOf_append]
    cases piece with
    | text more =>
      rw [partsOf_text, List.append_nil, ← ih]
      by_cases hblank : more = ""
      · subst hblank
        rfl
      have hpiece : (Piece.text more).blank = false := by
        simpa [Piece.blank] using hblank
      rw [mem_place hpiece]
      constructor
      · intro h
        obtain ⟨h, _⟩ | ⟨old, _, hsame, hb⟩ | ⟨_, hb⟩ := h
        · exact h
        · cases old with
          | text old => cases hb
          | call first old => exact absurd hsame (spelling_ne_text first)
        · cases hb
      · intro h
        exact Or.inl ⟨h, spelling_ne_text first⟩
    | call part =>
      rw [partsOf_call, spelled_concat, mem_place rfl]
      by_cases hsame : part.spelling p = first.spelling p
      · rw [if_pos hsame]
        constructor
        · intro h
          obtain ⟨_, hne⟩ | ⟨old, hold, _, hb⟩ | ⟨hno, hb⟩ := h
          · exact absurd hsame.symm hne
          · cases old with
            | text old => cases hb
            | call other old =>
              obtain ⟨rfl, rfl⟩ := hb
              obtain ⟨rest, hrest, harguments⟩ := ih.mp hold
              refine ⟨rest ++ [part], by rw [hrest]; rfl, ?_⟩
              rw [← List.cons_append, argumentsOf_concat, harguments]
          · rw [Piece.built, Built.call.injEq] at hb
            obtain ⟨rfl, rfl⟩ := hb
            have hnone : spelled p (first.spelling p) (partsOf pieces) = [] := by
              cases hlist : spelled p (first.spelling p) (partsOf pieces) with
              | nil => rfl
              | cons other rest =>
                have hother : other.spelling p = first.spelling p := by
                  have hmem : other ∈ spelled p (first.spelling p) (partsOf pieces) := by
                    rw [hlist]
                    exact (.head _)
                  simpa using (List.mem_filter.mp hmem).2
                have hbuilt := ih.mpr ⟨rest, by rw [hother, hlist], rfl⟩
                exact absurd (List.mem_map.mpr ⟨_, hbuilt, hother⟩) hno
            exact ⟨[], by rw [hnone]; rfl, by simp [argumentsOf]⟩
        · rintro ⟨rest, hrest, harguments⟩
          cases hlist : spelled p (first.spelling p) (partsOf pieces) with
          | nil =>
            rw [hlist, List.nil_append, List.cons.injEq] at hrest
            obtain ⟨rfl, rfl⟩ := hrest
            refine Or.inr (Or.inr ⟨fun hmem => ?_, ?_⟩)
            · obtain ⟨b, hb, hkey⟩ := List.mem_map.mp hmem
              cases b with
              | text old => exact spelling_ne_text part hkey.symm
              | call other old =>
                obtain ⟨more, hmore, _⟩ := ih.mp hb
                rw [show other.spelling p = part.spelling p from hkey, hlist] at hmore
                cases hmore
            · rw [← harguments]
              simp [argumentsOf, Piece.built]
          | cons other more =>
            rw [hlist, List.cons_append, List.cons.injEq] at hrest
            obtain ⟨rfl, rfl⟩ := hrest
            refine Or.inr (Or.inl ⟨.call other (argumentsOf (other :: more)), ?_, hsame.symm, ?_⟩)
            · exact ih.mpr ⟨more, hlist, rfl⟩
            · rw [← List.cons_append, argumentsOf_concat] at harguments
              rw [← harguments]
              rfl
      · rw [if_neg hsame]
        constructor
        · intro h
          obtain ⟨h, _⟩ | ⟨old, _, hkey, hb⟩ | ⟨_, hb⟩ := h
          · exact ih.mp h
          · cases old with
            | text old => cases hb
            | call other old =>
              rw [Built.extend, Built.call.injEq] at hb
              rw [hb.1] at hsame
              exact absurd hkey.symm hsame
          · rw [Piece.built, Built.call.injEq] at hb
            exact absurd (by rw [hb.1]) hsame
        · intro h
          exact Or.inl ⟨ih.mpr h, fun h => hsame h.symm⟩

/-! ### Calls that keep to themselves -/

/-- The texts of numbers tell them apart. -/
structure Platform.Faithful (p : Platform) : Prop where
  text : ∀ s, p.str (.str s) = s
  number : ∀ a b ka kb, hashKey a = some ka → hashKey b = some kb → ka.isNumber = true →
    kb.isNumber = true → p.str a = p.str b → ka = kb

def Part.id (part : Part) : Json := part.fragment.id.getD .null

/-- The keys of a dictionary that can be sorted. -/
def Sortable (parts : List Part) : Prop :=
  (∀ part ∈ parts, part.key.isNumber = true) ∨ (∀ part ∈ parts, part.key.isText = true) ∨
    ∀ a ∈ parts, ∀ b ∈ parts, a.key = b.key

/-- The indexes are numbers, or texts, or one; each call spells its index in one way, ends with
the identifier that it began with, and has its name in its first part. -/
structure Whole (p : Platform) (parts : List Part) : Prop where
  sortable : Sortable parts
  spelling : ∀ a ∈ parts, ∀ b ∈ parts, a.key = b.key → a.spelling p = b.spelling p
  kept : ∀ key first rest, ofCall key parts = first :: rest →
    lastId (first :: rest) = first.id ∧ ∀ part ∈ rest, part.name = ""

/-- No identifier is given for two calls. -/
def Distinct (parts : List Part) : Prop :=
  ∀ a ∈ parts, ∀ b ∈ parts, given a.fragment.id = true → given b.fragment.id = true →
    a.id = b.id → a.key = b.key

variable {parts : List Part}

theorem of_ofCall {key : Key} {rest : List Part} (h : ofCall key parts = first :: rest) :
    first ∈ parts ∧ first.key = key := by
  have hmem : first ∈ ofCall key parts := by
    rw [h]
    exact (.head _)
  obtain ⟨hpart, hkey⟩ := List.mem_filter.mp hmem
  exact ⟨hpart, of_decide_eq_true hkey⟩

theorem of_spelled {key : String} {rest : List Part} (h : spelled p key parts = first :: rest) :
    first ∈ parts ∧ first.spelling p = key := by
  have hmem : first ∈ spelled p key parts := by
    rw [h]
    exact (.head _)
  obtain ⟨hpart, hkey⟩ := List.mem_filter.mp hmem
  exact ⟨hpart, of_decide_eq_true hkey⟩

theorem Sortable.same_key (hp : p.Faithful) (h : Sortable parts) (hfits : ∀ part ∈ parts, part.Fits)
    {a b : Part} (ha : a ∈ parts) (hb : b ∈ parts) (hspelling : a.spelling p = b.spelling p) :
    a.key = b.key := by
  have hstr : p.str a.fragment.index = p.str b.fragment.index := by
    have hlist := congrArg String.toList hspelling
    simp only [Part.spelling, String.toList_append, List.append_cancel_left_eq] at hlist
    exact String.toList_inj.mp hlist
  have hkeya := (hfits a ha).1
  have hkeyb := (hfits b hb).1
  obtain hnumber | htext | hone := h
  · exact hp.number _ _ _ _ hkeya hkeyb (hnumber a ha) (hnumber b hb) hstr
  · have hindex : ∀ part ∈ parts, ∃ s, part.fragment.index = .str s ∧ part.key = .text s := by
      intro part hpart
      have hkey := (hfits part hpart).1
      have htext := htext part hpart
      cases hindex : part.fragment.index with
      | str s =>
        rw [hindex, hashKey, Option.some.injEq] at hkey
        exact ⟨s, rfl, hkey.symm⟩
      | float value text =>
        rw [hindex] at hkey
        cases value <;> rw [hashKey, Option.some.injEq] at hkey <;> rw [← hkey] at htext <;>
          cases htext
      | null | bool | int =>
        rw [hindex, hashKey, Option.some.injEq] at hkey
        rw [← hkey] at htext
        cases htext
      | arr | obj =>
        rw [hindex] at hkey
        cases hkey
    obtain ⟨s, hs, hks⟩ := hindex a ha
    obtain ⟨t, ht, hkt⟩ := hindex b hb
    rw [hs, ht, hp.text, hp.text] at hstr
    rw [hks, hkt, hstr]
  · exact hone a ha b hb

theorem Whole.spelled_eq (hp : p.Faithful) (h : Whole p parts) (hfits : ∀ part ∈ parts, part.Fits)
    (hfirst : first ∈ parts) : spelled p (first.spelling p) parts = ofCall first.key parts := by
  refine List.filter_congr fun part hpart => ?_
  rw [decide_eq_decide]
  exact ⟨h.sortable.same_key hp hfits hpart hfirst, h.spelling part hpart first hfirst⟩

theorem lastId_given (h : ∃ part ∈ parts, given part.fragment.id = true) :
    ∃ part ∈ parts, given part.fragment.id = true ∧ lastId parts = part.id := by
  induction parts using List.reverseRecOn with
  | nil =>
    obtain ⟨_, hno, _⟩ := h
    cases hno
  | append_singleton parts part ih =>
    have hlast : lastId (parts ++ [part]) = orElse part.fragment.id (lastId parts) := by
      rw [lastId, List.foldl_concat]
      rfl
    by_cases hgiven : given part.fragment.id = true
    · refine ⟨part, List.mem_append_right _ (List.mem_singleton_self _), hgiven, ?_⟩
      rw [hlast, orElse, if_pos hgiven, Part.id]
      cases hid : part.fragment.id with
      | none =>
        rw [hid] at hgiven
        cases hgiven
      | some id => rfl
    · obtain ⟨other, hother, hthis⟩ := h
      have hmem : other ∈ parts := by
        obtain hmem | hmem := List.mem_append.mp hother
        · exact hmem
        · rw [List.mem_singleton] at hmem
          exact absurd (hmem ▸ hthis) hgiven
      obtain ⟨found, hfound, hfgiven, hfid⟩ := ih ⟨other, hmem, hthis⟩
      refine ⟨found, List.mem_append_left _ hfound, hfgiven, ?_⟩
      rw [hlast, orElse, if_neg hgiven, hfid]

theorem names_cons (first : Part) (rest : List Part) :
    names (first :: rest) = first.name ++ names rest := by
  have hfold : ∀ (l : List Part) (text : String),
      l.foldl (fun text part => text ++ part.name) text = text ++ names l := by
    intro l
    induction l with
    | nil =>
      intro text
      exact String.append_empty.symm
    | cons part l ih =>
      intro text
      have hnames : names (part :: l) = part.name ++ names l := by
        show List.foldl _ "" (part :: l) = _
        rw [List.foldl_cons, ih, String.empty_append]
      rw [List.foldl_cons, ih, hnames, String.append_assoc]
  rw [names, List.foldl_cons, hfold, String.empty_append]

theorem names_eq_first {rest : List Part} :
    names (first :: rest) = first.name ↔ ∀ part ∈ rest, part.name = "" := by
  have hnone : ∀ l : List Part, names l = "" ↔ ∀ part ∈ l, part.name = "" := by
    intro l
    induction l with
    | nil => simp [names]
    | cons part l ih =>
      rw [names_cons, List.forall_mem_cons, ← ih, ← String.toList_inj, String.toList_append,
        String.toList_empty, List.append_eq_nil_iff, ← String.toList_empty, String.toList_inj,
        String.toList_inj]
  rw [names_cons, ← hnone]
  constructor
  · intro h
    have hlist := congrArg String.toList h
    rw [String.toList_append] at hlist
    exact String.toList_inj.mp ((List.append_right_eq_self.mp hlist).trans
      String.toList_empty.symm)
  · intro h
    rw [h, String.append_empty]

/-! ### The whole message -/

theorem sortKeys_ok {keys sorted : List Key} (h : sortKeys keys = .ok sorted) :
    sorted.Perm keys ∧ (keys.length ≤ 1 ∨ (∀ k ∈ keys, k.isNumber = true) ∨
      ∀ k ∈ keys, k.isText = true) := by
  unfold sortKeys at h
  simp only [bind_ok, require_ok, exists_and_left, exists_const, pure_ok] at h
  obtain ⟨hsortable, rfl⟩ := h
  exact ⟨List.perm_insertionSort _ _, hsortable⟩

variable {pieces : List Piece}

theorem mem_callKeys {key : Key} :
    key ∈ (joinedOf pieces).calls.keys ↔ ∃ part ∈ partsOf pieces, part.key = key := by
  rw [Dict.mem_keys_iff, calls_joined]
  constructor
  · rintro ⟨call, hcall⟩
    cases hparts : ofCall key (partsOf pieces) with
    | nil =>
      rw [hparts] at hcall
      cases hcall
    | cons first rest => exact ⟨first, of_ofCall hparts⟩
  · rintro ⟨part, hpart, hkey⟩
    have hmem : part ∈ ofCall key (partsOf pieces) :=
      List.mem_filter.mpr ⟨hpart, decide_eq_true hkey⟩
    cases hparts : ofCall key (partsOf pieces) with
    | nil =>
      rw [hparts] at hmem
      cases hmem
    | cons first rest => exact ⟨_, rfl⟩

/-- The message can be made exactly when the keys can be sorted. -/
theorem message_total {a : Accumulator} (hjoined : a.joined = joinedOf pieces) :
    (∃ message, a.message = .ok message) ↔ Sortable (partsOf pieces) := by
  have hkeys : a.calls.keys = (joinedOf pieces).calls.keys := by rw [← hjoined]; rfl
  have hnodup : (joinedOf pieces).calls.keys.Nodup := Dict.keys_nodup _
  constructor
  · rintro ⟨message, hmessage⟩
    unfold Accumulator.message at hmessage
    simp only [bind_ok, pure_ok, hkeys] at hmessage
    obtain ⟨sorted, hsorted, _⟩ := hmessage
    obtain hone | hnumber | htext := (sortKeys_ok hsorted).2
    · refine Or.inr (Or.inr fun x hx y hy => ?_)
      have hx' := mem_callKeys.mpr ⟨x, hx, rfl⟩
      have hy' := mem_callKeys.mpr ⟨y, hy, rfl⟩
      cases hlist : (joinedOf pieces).calls.keys with
      | nil =>
        rw [hlist] at hx'
        cases hx'
      | cons k rest =>
        rw [hlist, List.length_cons] at hone
        have hrest : rest = [] := List.eq_nil_of_length_eq_zero (by omega)
        rw [hlist, hrest, List.mem_singleton] at hx' hy'
        exact hx'.trans hy'.symm
    · exact Or.inl fun x hx => hnumber _ (mem_callKeys.mpr ⟨x, hx, rfl⟩)
    · exact Or.inr (Or.inl fun x hx => htext _ (mem_callKeys.mpr ⟨x, hx, rfl⟩))
  · intro hsortable
    have hready : (joinedOf pieces).calls.keys.length ≤ 1 ∨
        (∀ k ∈ (joinedOf pieces).calls.keys, k.isNumber = true) ∨
        ∀ k ∈ (joinedOf pieces).calls.keys, k.isText = true := by
      obtain hnumber | htext | hone := hsortable
      · refine Or.inr (Or.inl fun k hk => ?_)
        obtain ⟨part, hpart, rfl⟩ := mem_callKeys.mp hk
        exact hnumber part hpart
      · refine Or.inr (Or.inr fun k hk => ?_)
        obtain ⟨part, hpart, rfl⟩ := mem_callKeys.mp hk
        exact htext part hpart
      · refine Or.inl ?_
        cases hlist : (joinedOf pieces).calls.keys with
        | nil => simp
        | cons k rest =>
          cases rest with
          | nil => simp
          | cons k' rest =>
            have hk : k ∈ (joinedOf pieces).calls.keys := by simp [hlist]
            have hk' : k' ∈ (joinedOf pieces).calls.keys := by simp [hlist]
            obtain ⟨x, hx, rfl⟩ := mem_callKeys.mp hk
            obtain ⟨y, hy, rfl⟩ := mem_callKeys.mp hk'
            rw [hlist, hone x hx y hy] at hnodup
            simp at hnodup
    have hsorted : sortKeys (joinedOf pieces).calls.keys =
        .ok ((joinedOf pieces).calls.keys.insertionSort fun x y => y.lt x = false) := by
      rw [sortKeys, require_of hready]
      rfl
    exact ⟨_, by rw [Accumulator.message, hkeys, hsorted]; rfl⟩

theorem call_of_key {key : Key} {call : Call} :
    (joinedOf pieces).calls.get? key = some call ↔
      ∃ first rest, ofCall key (partsOf pieces) = first :: rest ∧
        call = ⟨lastId (first :: rest), names (first :: rest), argumentsOf (first :: rest)⟩ := by
  rw [calls_joined]
  cases hparts : ofCall key (partsOf pieces) with
  | nil => simp
  | cons first rest =>
    simp only [Option.some.injEq, List.cons.injEq]
    constructor
    · intro h
      exact ⟨first, rest, ⟨rfl, rfl⟩, h.symm⟩
    · rintro ⟨_, _, ⟨rfl, rfl⟩, h⟩
      exact h.symm

theorem message_ok {a : Accumulator} (hjoined : a.joined = joinedOf pieces) {message : Message}
    (h : a.message = .ok message) :
    message.content = texts pieces ∧ ∃ keys : List Key, keys.Perm (joinedOf pieces).calls.keys ∧
      message.calls = keys.filterMap (joinedOf pieces).calls.get? := by
  have htext : a.text = (joinedOf pieces).text := by rw [← hjoined]; rfl
  have hcalls : a.calls = (joinedOf pieces).calls := by rw [← hjoined]; rfl
  unfold Accumulator.message at h
  simp only [bind_ok, pure_ok, hcalls] at h
  obtain ⟨keys, hkeys, rfl⟩ := h
  exact ⟨htext.trans (text_joined pieces), keys, (sortKeys_ok hkeys).1, rfl⟩

/-- The blocks of a message. -/
def Message.blocks (message : Message) : List Block :=
  (textBlocks message).map .text ++
    message.calls.map fun call => .tool call.id (.str call.name) call.arguments

/-- The identifiers and the names of the calls. -/
def tools (blocks : List Block) : List (Json × Json) :=
  blocks.filterMap fun block => match block with
    | .tool id name _ => some (id, name)
    | .text _ => none

def firsts (built : List Built) : List Part :=
  built.filterMap fun b => match b with
    | .call first _ => some first
    | .text _ => none

theorem mem_firsts {built : List Built} :
    first ∈ firsts built ↔ ∃ arguments, .call first arguments ∈ built := by
  simp only [firsts, List.mem_filterMap]
  constructor
  · rintro ⟨b, hb, hfirst⟩
    cases b with
    | text content => cases hfirst
    | call other arguments =>
      rw [Option.some.injEq] at hfirst
      exact ⟨arguments, hfirst ▸ hb⟩
  · rintro ⟨arguments, h⟩
    exact ⟨_, h, rfl⟩

theorem tools_built (built : List Built) : tools (built.map Built.block) =
    (firsts built).map fun first => (first.id, first.fragment.name.getD .null) := by
  rw [tools, firsts, List.filterMap_map, List.map_filterMap]
  refine List.filterMap_congr fun b _ => ?_
  cases b <;> rfl

theorem tools_message (message : Message) : tools message.blocks =
    message.calls.map fun call => (call.id, .str call.name) := by
  rw [tools, Message.blocks, List.filterMap_append, List.filterMap_map, List.filterMap_map]
  simp

section Agreement

variable {pieces : List Piece}

theorem mem_firsts_assembled : first ∈ firsts (assembled p pieces) ↔
    ∃ rest, spelled p (first.spelling p) (partsOf pieces) = first :: rest := by
  rw [mem_firsts]
  constructor
  · rintro ⟨_, h⟩
    obtain ⟨rest, hrest, _⟩ := (mem_assembled_call pieces).mp h
    exact ⟨rest, hrest⟩
  · rintro ⟨rest, hrest⟩
    exact ⟨_, (mem_assembled_call pieces).mpr ⟨rest, hrest, rfl⟩⟩

theorem exists_first {part : Part} (h : part ∈ partsOf pieces) :
    ∃ first ∈ firsts (assembled p pieces), first.spelling p = part.spelling p ∧
      first ∈ partsOf pieces := by
  have hmem : part ∈ spelled p (part.spelling p) (partsOf pieces) :=
    List.mem_filter.mpr ⟨h, decide_eq_true rfl⟩
  cases hlist : spelled p (part.spelling p) (partsOf pieces) with
  | nil =>
    rw [hlist] at hmem
    cases hmem
  | cons first rest =>
    obtain ⟨hfirst, hspelling⟩ := of_spelled hlist
    exact ⟨first, mem_firsts_assembled.mpr ⟨rest, by rw [hspelling, hlist]⟩, hspelling, hfirst⟩

theorem firsts_mem (h : first ∈ firsts (assembled p pieces)) : first ∈ partsOf pieces := by
  obtain ⟨rest, hrest⟩ := mem_firsts_assembled.mp h
  exact (of_spelled hrest).1

theorem Part.Fits.name_eq {part : Part} (h : part.Fits) (hname : given part.fragment.name = true) :
    part.fragment.name.getD .null = .str part.name := by
  have htext := h.2.1
  rw [textOf, if_pos hname] at htext
  cases hvalue : part.fragment.name with
  | none =>
    rw [hvalue] at hname
    cases hname
  | some value =>
    rw [hvalue] at htext
    cases value with
    | str s =>
      cases htext
      rfl
    | _ => cases htext

theorem firsts_keys_nodup (hp : p.Faithful) (hfits : ∀ part ∈ partsOf pieces, part.Fits)
    (hsortable : Sortable (partsOf pieces))
    (hlength : (firsts (assembled p pieces)).length ≤ (joinedOf pieces).calls.keys.length) :
    ((firsts (assembled p pieces)).map Part.key).Nodup := by
  have hsubset : (joinedOf pieces).calls.keys ⊆ (firsts (assembled p pieces)).map Part.key := by
    intro key hkey
    obtain ⟨part, hpart, rfl⟩ := mem_callKeys.mp hkey
    obtain ⟨first, hfirst, hspelling, hmem⟩ := exists_first (p := p) hpart
    exact List.mem_map.mpr ⟨first, hfirst, hsortable.same_key hp hfits hmem hpart hspelling⟩
  have hsub := List.subperm_of_subset (Dict.keys_nodup (joinedOf pieces).calls) hsubset
  have hperm := hsub.perm_of_length_le (by rw [List.length_map]; exact hlength)
  exact hperm.nodup_iff.mp (Dict.keys_nodup (joinedOf pieces).calls)

/-- **Calls that agree keep to themselves.** -/
theorem whole_of_tools (hp : p.Faithful) (hfits : ∀ part ∈ partsOf pieces, part.Fits)
    (hopens : ∀ first ∈ firsts (assembled p pieces),
      given first.fragment.id = true ∧ given first.fragment.name = true)
    (hdistinct : Distinct (partsOf pieces)) (hsortable : Sortable (partsOf pieces))
    {keys : List Key} (hkeys : keys.Perm (joinedOf pieces).calls.keys)
    (hperm : ((firsts (assembled p pieces)).map fun first =>
        (first.id, first.fragment.name.getD .null)).Perm
      ((keys.filterMap (joinedOf pieces).calls.get?).map fun call => (call.id, .str call.name))) :
    Whole p (partsOf pieces) := by
  have hlength : (firsts (assembled p pieces)).length ≤ (joinedOf pieces).calls.keys.length := by
    have h := hperm.length_eq
    rw [List.length_map, List.length_map] at h
    rw [h, ← hkeys.length_eq]
    exact List.length_filterMap_le _ _
  have hnodup := firsts_keys_nodup hp hfits hsortable hlength
  have hspelling : ∀ a ∈ partsOf pieces, ∀ b ∈ partsOf pieces, a.key = b.key →
      a.spelling p = b.spelling p := by
    intro a ha b hb hkey
    obtain ⟨x, hx, hxa, hxmem⟩ := exists_first (p := p) ha
    obtain ⟨y, hy, hyb, hymem⟩ := exists_first (p := p) hb
    have hxkey := hsortable.same_key hp hfits hxmem ha hxa
    have hykey := hsortable.same_key hp hfits hymem hb hyb
    have hsame := List.inj_on_of_nodup_map hnodup hx hy (by rw [hxkey, hykey, hkey])
    rw [← hxa, ← hyb, hsame]
  refine ⟨hsortable, hspelling, ?_⟩
  have hof : ∀ part ∈ partsOf pieces, spelled p (part.spelling p) (partsOf pieces) =
      ofCall part.key (partsOf pieces) := by
    intro part hpart
    refine List.filter_congr fun other hother => ?_
    rw [decide_eq_decide]
    exact ⟨hsortable.same_key hp hfits hother hpart, hspelling other hother part hpart⟩
  have hfirst : ∀ key first rest, ofCall key (partsOf pieces) = first :: rest →
      first ∈ firsts (assembled p pieces) := by
    intro key first rest h
    obtain ⟨hmem, hkey⟩ := of_ofCall h
    exact mem_firsts_assembled.mpr ⟨rest, by rw [hof first hmem, hkey, h]⟩
  intro key first rest h
  have hin := hfirst key first rest h
  obtain ⟨hmem, hkey⟩ := of_ofCall h
  have hpair := (hperm.mem_iff).mp (List.mem_map.mpr ⟨first, hin, rfl⟩)
  obtain ⟨call, hcall, heq⟩ := List.mem_map.mp hpair
  obtain ⟨key', _, hget⟩ := List.mem_filterMap.mp hcall
  obtain ⟨first', rest', h', rfl⟩ := call_of_key.mp hget
  have hin' := hfirst key' first' rest' h'
  obtain ⟨last, hlast, hgiven, hid⟩ :=
    lastId_given ⟨first', (.head _), (hopens first' hin').1⟩
  rw [Prod.mk.injEq, (hfits first hmem).name_eq (hopens first hin).2, Json.str.injEq] at heq
  have hlastmem : last ∈ ofCall key' (partsOf pieces) := by
    rw [h']
    exact hlast
  obtain ⟨hlastpart, hlastkey⟩ := List.mem_filter.mp hlastmem
  have hsame : key = key' := by
    rw [← hkey, ← of_decide_eq_true hlastkey]
    refine hdistinct first hmem last hlastpart (hopens first hin).1 hgiven ?_
    rw [← hid]
    exact heq.1.symm
  subst hsame
  rw [h, List.cons.injEq] at h'
  obtain ⟨rfl, rfl⟩ := h'
  exact ⟨heq.1, names_eq_first.mp heq.2⟩

theorem Whole.call_of_key (hwhole : Whole p (partsOf pieces)) {key : Key} {call : Call}
    (hfits : ∀ part ∈ partsOf pieces, part.Fits)
    (hopens : ∀ first ∈ partsOf pieces, (∃ rest, ofCall first.key (partsOf pieces) =
      first :: rest) → given first.fragment.name = true) :
    (joinedOf pieces).calls.get? key = some call ↔
      ∃ first rest, ofCall key (partsOf pieces) = first :: rest ∧ call.id = first.id ∧
        Json.str call.name = first.fragment.name.getD .null ∧
        call.arguments = argumentsOf (first :: rest) := by
  rw [Api.call_of_key]
  constructor
  · rintro ⟨first, rest, h, hcall⟩
    obtain ⟨hid, hname⟩ := hwhole.kept key first rest h
    obtain ⟨hmem, hkey⟩ := of_ofCall h
    refine ⟨first, rest, h, ?_, ?_, ?_⟩
    · rw [hcall, hid]
    · rw [hcall, names_eq_first.mpr hname,
        (hfits first hmem).name_eq (hopens first hmem ⟨rest, hkey ▸ h⟩)]
    · rw [hcall]
  · rintro ⟨first, rest, h, hid, hname, harguments⟩
    obtain ⟨hid', hname'⟩ := hwhole.kept key first rest h
    obtain ⟨hmem, hkey⟩ := of_ofCall h
    refine ⟨first, rest, h, ?_⟩
    rw [(hfits first hmem).name_eq (hopens first hmem ⟨rest, hkey ▸ h⟩), Json.str.injEq] at hname
    obtain ⟨id, name, arguments⟩ := call
    rw [hid', names_eq_first.mpr hname']
    simp only at hid hname harguments
    rw [hid, hname, harguments]

/-- **The blocks of a whole stream are those of the message.** -/
theorem blocks_perm (hp : p.Faithful) (hfits : ∀ part ∈ partsOf pieces, part.Fits)
    (hkeysnodup : ((assembled p pieces).map (Built.key p)).Nodup)
    (hopens : ∀ first ∈ firsts (assembled p pieces),
      given first.fragment.id = true ∧ given first.fragment.name = true)
    (hdistinct : Distinct (partsOf pieces)) (hwhole : Whole p (partsOf pieces))
    {message : Message} (hcontent : message.content = texts pieces) {keys : List Key}
    (hkeys : keys.Perm (joinedOf pieces).calls.keys)
    (hcalls : message.calls = keys.filterMap (joinedOf pieces).calls.get?) :
    ((assembled p pieces).map Built.block).Perm message.blocks := by
  have hfirst : ∀ {first rest key}, ofCall key (partsOf pieces) = first :: rest →
      first ∈ firsts (assembled p pieces) := by
    intro first rest key h
    obtain ⟨hmem, hkey⟩ := of_ofCall h
    exact mem_firsts_assembled.mpr ⟨rest, by rw [hwhole.spelled_eq hp hfits hmem, hkey, h]⟩
  have hnames : ∀ first ∈ partsOf pieces,
      (∃ rest, ofCall first.key (partsOf pieces) = first :: rest) →
        given first.fragment.name = true := by
    rintro first _ ⟨rest, h⟩
    exact (hopens first (hfirst h)).2
  have hcall : ∀ {key call}, (joinedOf pieces).calls.get? key = some call ↔ _ :=
    hwhole.call_of_key hfits hnames
  have hlist : message.blocks = (textBlocks message).map Block.text ++
      keys.filterMap fun key => ((joinedOf pieces).calls.get? key).map fun call =>
        Block.tool call.id (.str call.name) call.arguments := by
    rw [Message.blocks, hcalls, List.map_filterMap]
  have hnodup : ((assembled p pieces).map Built.block).Nodup := by
    refine List.Nodup.map_on ?_ (List.Nodup.of_map _ hkeysnodup)
    intro x hx y hy hxy
    cases x with
    | text content =>
      cases y with
      | text other =>
        rw [Built.block, Built.block, Block.text.injEq] at hxy
        rw [hxy]
      | call first arguments => cases hxy
    | call first arguments =>
      cases y with
      | text other => cases hxy
      | call other more =>
        rw [Built.block, Built.block, Block.tool.injEq] at hxy
        have hin := mem_firsts.mpr ⟨_, hx⟩
        have hin' := mem_firsts.mpr ⟨_, hy⟩
        have hkey := hdistinct first (firsts_mem hin) other (firsts_mem hin')
          (hopens first hin).1 (hopens other hin').1 hxy.1
        exact List.inj_on_of_nodup_map hkeysnodup hx hy
          (hwhole.spelling first (firsts_mem hin) other (firsts_mem hin') hkey)
  have hnodup' : message.blocks.Nodup := by
    rw [hlist]
    refine List.Nodup.append ?_ ?_ ?_
    · unfold textBlocks
      split <;> simp
    · refine List.Nodup.filterMap ?_ (hkeys.nodup_iff.mpr (Dict.keys_nodup _))
      intro key key' block hblock hblock'
      obtain ⟨call, hget, rfl⟩ := Option.map_eq_some_iff.mp hblock
      obtain ⟨call', hget', heq⟩ := Option.map_eq_some_iff.mp hblock'
      obtain ⟨first, rest, h, hid, _⟩ := hcall.mp hget
      obtain ⟨first', rest', h', hid', _⟩ := hcall.mp hget'
      rw [Block.tool.injEq] at heq
      have hkey := hdistinct first (of_ofCall h).1 first' (of_ofCall h').1
        (hopens first (hfirst h)).1 (hopens first' (hfirst h')).1
        (by rw [← hid, ← hid', heq.1])
      rw [← (of_ofCall h).2, hkey, (of_ofCall h').2]
    · intro block htext htool
      obtain ⟨text, _, rfl⟩ := List.mem_map.mp htext
      obtain ⟨key, _, hget⟩ := List.mem_filterMap.mp htool
      obtain ⟨call, _, hno⟩ := Option.map_eq_some_iff.mp hget
      cases hno
  refine (List.perm_ext_iff_of_nodup hnodup hnodup').mpr fun block => ?_
  rw [hlist, List.mem_append, List.mem_map, List.mem_map, List.mem_filterMap]
  constructor
  · rintro ⟨b, hb, hblock⟩
    cases b with
    | text content =>
      obtain ⟨htext, hne⟩ := (mem_assembled_text pieces).mp hb
      refine Or.inl ⟨content, ?_, hblock⟩
      rw [textBlocks, hcontent, htext, if_neg hne]
      exact List.mem_singleton_self _
    | call first arguments =>
      have hin := mem_firsts.mpr ⟨_, hb⟩
      obtain ⟨rest, hrest, harguments⟩ := (mem_assembled_call pieces).mp hb
      have hmem := firsts_mem hin
      rw [hwhole.spelled_eq hp hfits hmem] at hrest
      refine Or.inr ⟨first.key, ?_, ?_⟩
      · exact hkeys.mem_iff.mpr (mem_callKeys.mpr ⟨first, hmem, rfl⟩)
      · have hname := (hfits first hmem).name_eq (hopens first hin).2
        have hget : (joinedOf pieces).calls.get? first.key =
            some ⟨first.id, first.name, argumentsOf (first :: rest)⟩ :=
          hcall.mpr ⟨first, rest, hrest, rfl, hname.symm, rfl⟩
        rw [hget, Option.map_some, ← hblock, ← harguments, Built.block, hname]
        rfl
  · intro h
    obtain ⟨text, htext, rfl⟩ | ⟨key, _, hget⟩ := h
    · unfold textBlocks at htext
      split at htext
      · cases htext
      · rename_i hne
        rw [List.mem_singleton, hcontent] at htext
        subst htext
        rw [hcontent] at hne
        exact ⟨.text (texts pieces), (mem_assembled_text pieces).mpr ⟨rfl, hne⟩, rfl⟩
    · obtain ⟨call, hcallget, rfl⟩ := Option.map_eq_some_iff.mp hget
      obtain ⟨first, rest, h, hid, hname, harguments⟩ := hcall.mp hcallget
      obtain ⟨hmem, hkey⟩ := of_ofCall h
      refine ⟨.call first call.arguments, (mem_assembled_call pieces).mpr ⟨rest, ?_, ?_⟩, ?_⟩
      · rw [hwhole.spelled_eq hp hfits hmem, hkey, h]
      · exact harguments.symm
      · rw [hid, hname]
        rfl

end Agreement

end Api
