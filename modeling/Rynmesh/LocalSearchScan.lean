import Rynmesh.LocalSearch

/-!
# The postings agree with a plain scan

The bigrams and trigrams only choose which rows are looked at; each of these is
compared with its text again.  So all that the index owes is that no row is left out.

* `mem_grams`: the grams of a text are its infixes of one length;
* `PostedBy`: what a posting holds, through every row that is added;
* `Index.Sound`: what holds in every state of an index (`Reachable.sound`);
* `Index.matched_eq_scan`: a query finds what the scan of the current rows finds.
-/

namespace LocalSearch

open Checked

variable {p : Platform}

/-- What is relied on: no two SHA-256 collide, the text of a value tells those of its parts,
and a cursor can be read back. -/
structure Platform.Faithful (p : Platform) : Prop where
  digest : Function.Injective p.digest
  json_text : ∀ a b, p.json a = p.json b → a.asStr? = b.asStr?
  json_items : ∀ a b, p.json a = p.json b →
    a.asArr?.map (List.map p.json) = b.asArr?.map (List.map p.json)
  json_get : ∀ a b, p.json a = p.json b → ∀ k, (a.get? k).map p.json = (b.get? k).map p.json
  cursor : ∀ text offset, p.decodeCursor (p.encodeCursor text offset) =
    some (.object [("signature", .str text), ("offset", .int offset)])
  cursor_ne : ∀ text offset, p.encodeCursor text offset ≠ ""

/-- Rows of one JSON text have the same texts. -/
theorem textOf_congr (hp : p.Faithful) {a b : Json} (h : p.json a = p.json b) (k : String) :
    textOf a k = textOf b k := by
  have hget := hp.json_get a b h k
  unfold textOf field
  cases ha : a.get? k with
  | none =>
    rw [ha, Option.map_none, eq_comm, Option.map_eq_none_iff] at hget
    rw [hget]
  | some v =>
    rw [ha, Option.map_some, eq_comm, Option.map_eq_some_iff] at hget
    obtain ⟨w, hw, hvw⟩ := hget
    rw [hw]
    simp only [Option.getD_some]
    rw [hp.json_text w v hvw]

/-- Rows of one JSON text have one id. -/
theorem rowId_congr (hp : p.Faithful) {a b : Json} (h : p.json a = p.json b) :
    rowId a = rowId b :=
  textOf_congr hp h "id"

/-- Rows of one JSON text are searched in the same words. -/
theorem searchable_congr (hp : p.Faithful) {a b : Json} (h : p.json a = p.json b) :
    searchable p a = searchable p b := by
  unfold searchable
  rw [textOf_congr hp h "title", textOf_congr hp h "source", textOf_congr hp h "text"]

/-- Fingerprints tell JSON texts apart. -/
theorem hash_inj (hp : p.Faithful) {a b : Json} : p.hash a = p.hash b ↔ p.json a = p.json b :=
  hp.digest.eq_iff

/-! ### Grams -/

/-- The grams of a text are its infixes of one length. -/
theorem mem_grams {text gram : Text} {size : Nat} :
    gram ∈ grams text size ↔ gram <:+: text ∧ gram.length = size := by
  unfold grams
  rw [List.mem_map]
  constructor
  · rintro ⟨i, hi, rfl⟩
    rw [List.mem_range] at hi
    have hwindow : (text.drop i).take size <:+: text :=
      (List.take_prefix _ _).isInfix.trans (List.drop_suffix _ _).isInfix
    have hlength : ((text.drop i).take size).length = size := by
      rw [List.length_take, List.length_drop]
      omega
    exact ⟨hwindow, hlength⟩
  · rintro ⟨⟨before, after, rfl⟩, rfl⟩
    refine ⟨before.length, ?_, by simp⟩
    rw [List.mem_range]
    simp only [List.length_append]
    omega

variable {row : Json}

/-- The grams of a row are the bigrams and trigrams of its words. -/
theorem mem_rowGrams {gram : Text} :
    gram ∈ rowGrams p row ↔ gram <:+: searchable p row ∧ (gram.length = 3 ∨ gram.length = 2) := by
  unfold rowGrams
  rw [List.mem_eraseDups, List.mem_append, mem_grams, mem_grams, and_or_left]

variable {terms : List Text}

/-- A row has the terms when each of them is found in its words. -/
theorem hasTerms_iff :
    hasTerms p terms row = true ↔ ∀ term ∈ terms, term <:+: searchable p row := by
  unfold hasTerms
  rw [List.all_eq_true]
  exact forall₂_congr fun _ _ => decide_eq_true_iff

/-- A row that has the terms has all of their grams. -/
theorem mem_rowGrams_of_hasTerms (h : hasTerms p terms row = true) {gram : Text}
    (hgram : gram ∈ termGrams terms) : gram ∈ rowGrams p row := by
  obtain ⟨term, hterm, hmem⟩ := List.mem_flatMap.mp hgram
  split at hmem
  · rename_i hlong
    obtain ⟨hwindow, hlength⟩ := mem_grams.mp hmem
    have hrow := hasTerms_iff.mp h term hterm
    refine mem_rowGrams.mpr ⟨hwindow.trans hrow, ?_⟩
    omega
  · cases hmem

/-! ### Postings -/

/-- The rows that are posted under a gram. -/
def listed (postings : Postings) (gram : Text) : List String := (postings.get? gram).getD []

/-- Each posting has the rows that it should, each once. -/
def PostedBy (postings : Postings) (holds : Text → String → Prop) : Prop :=
  ∀ gram, (listed postings gram).Nodup ∧
    ∀ identifier, identifier ∈ listed postings gram ↔ holds gram identifier

variable {postings : Postings}

/-- Only what a posting holds counts. -/
theorem PostedBy.congr {holds other : Text → String → Prop} (h : PostedBy postings holds)
    (heq : ∀ gram identifier, holds gram identifier ↔
      other gram identifier) : PostedBy postings other :=
  fun gram => ⟨(h gram).1, fun identifier => ((h gram).2 identifier).trans (heq _ _)⟩

/-- Nothing is posted at first. -/
theorem PostedBy.empty : PostedBy .empty fun _ _ => False :=
  fun _ => ⟨List.nodup_nil, fun _ => List.mem_nil_iff _⟩

variable {identifier : String}

/-- One gram more is posted for the row. -/
theorem PostedBy.addGram {next : Postings} {holds : Text → String → Prop}
    (h : PostedBy postings holds) {count total : Nat} {gram : Text}
    (hadd : LocalSearch.addGram identifier (some (postings, count)) gram = some (next, total)) :
    PostedBy next fun g other => holds g other ∨ other = identifier ∧ g = gram := by
  unfold LocalSearch.addGram at hadd
  simp only [Option.bind_some] at hadd
  split at hadd
  · cases hadd
  cases hadd
  intro g
  have hlisted : listed (postings.set gram (((postings.get? gram).getD []).insert identifier)) g =
      if g = gram then (listed postings gram).insert identifier else listed postings g := by
    unfold listed
    rw [Dict.get?_set]
    split <;> rfl
  rw [hlisted]
  split
  · rename_i hg
    subst hg
    refine ⟨(h g).1.insert, fun other => ?_⟩
    rw [List.mem_insert_iff, (h g).2]
    grind
  · rename_i hg
    refine ⟨(h g).1, fun other => ?_⟩
    rw [(h g).2]
    grind

/-- Past the limit on postings no gram is added. -/
theorem foldl_addGram_none (identifier : String) (gs : List Text) :
    gs.foldl (addGram identifier) none = none := by
  induction gs with
  | nil => rfl
  | cons gram rest ih => exact ih

/-- All grams of the row are posted. -/
theorem PostedBy.foldl_addGram {gs : List Text} :
    ∀ {postings next : Postings} {holds : Text → String → Prop} {count total : Nat},
      PostedBy postings holds →
      gs.foldl (LocalSearch.addGram identifier) (some (postings, count)) = some (next, total) →
      PostedBy next fun g other => holds g other ∨ other = identifier ∧ g ∈ gs := by
  induction gs with
  | nil =>
    intro postings next holds count total h hfold
    cases hfold
    exact h.congr fun g other => by simp
  | cons gram rest ih =>
    intro postings next holds count total h hfold
    rw [List.foldl_cons] at hfold
    cases hadd : LocalSearch.addGram identifier (some (postings, count)) gram with
    | none => rw [hadd, foldl_addGram_none] at hfold; cases hfold
    | some state =>
      rw [hadd] at hfold
      refine (ih (h.addGram hadd) hfold).congr fun g other => ?_
      rw [List.mem_cons, or_assoc, and_or_left]

/-- Past the limit on postings no row is added. -/
theorem foldl_addRow_none (items : List (String × Json)) :
    items.foldl (addRow p) none = none := by
  induction items with
  | nil => rfl
  | cons item rest ih =>
    rw [List.foldl_cons, addRow, foldl_addGram_none]
    exact ih

/-- The grams of all rows are posted, and nothing else. -/
theorem PostedBy.foldl_addRow {items : List (String × Json)} :
    ∀ {postings next : Postings} {holds : Text → String → Prop} {count total : Nat},
      PostedBy postings holds →
      items.foldl (addRow p) (some (postings, count)) = some (next, total) →
      PostedBy next fun g other => holds g other ∨
        ∃ row, (other, row) ∈ items ∧ g ∈ rowGrams p row := by
  induction items with
  | nil =>
    intro postings next holds count total h hfold
    cases hfold
    exact h.congr fun g other => by simp
  | cons item rest ih =>
    intro postings next holds count total h hfold
    rw [List.foldl_cons] at hfold
    cases hadd : addRow p (some (postings, count)) item with
    | none => rw [hadd, foldl_addRow_none] at hfold; cases hfold
    | some state =>
      rw [hadd] at hfold
      refine (ih (h.foldl_addGram hadd) hfold).congr fun g other => ?_
      grind

/-! ### The states of an index -/

/-- Documents by their identifiers. -/
def ById (rows : Dict String Json) : Prop :=
  ∀ identifier row, rows.get? identifier = some row → rowId row = identifier

/-- A row that is collected is filed under its own id. -/
theorem collect_ok {state next : Collected} (h : collect p state row = .ok next)
    (hid : ById state.rows ∧ state.rows.entries.length ≤ maxDocuments) :
    ById next.rows ∧ next.rows.entries.length ≤ maxDocuments := by
  unfold collect at h
  split at h
  · cases h
  split at h
  · cases h
    exact hid
  · cases h
  split at h
  · cases h
    exact hid
  rename_i hnew
  simp only [bind_ok, require_ok, pure_ok] at h
  obtain ⟨-, -, -, ⟨-, hroom⟩, rfl⟩ := h
  constructor
  · exact Dict.forall_get?_set rfl hid.1
  · have hfresh : rowId row ∉ state.rows.keys := by
      rw [← Dict.get?_eq_none_iff]
      simpa using hnew
    simp only [Dict.entries_set_of_new _ hfresh, List.length_append, List.length_singleton]
    omega

/-- The collected rows are filed under their ids and are not too many. -/
theorem documents_ok {rows : List Json} {found : Dict String Json × Nat}
    (h : documents p rows = .ok found) :
    ById found.1 ∧ found.1.entries.length ≤ maxDocuments := by
  unfold documents at h
  simp only [bind_ok, pure_ok] at h
  obtain ⟨last, hfold, rfl⟩ := h
  exact foldlM_ok_induction
    (fun _ state => ById state.rows ∧ state.rows.entries.length ≤ maxDocuments)
    (fun _ _ _ _ hstate hnext => collect_ok hnext hstate) rows [] _ last
    ⟨fun _ _ hget => by simp at hget, Nat.zero_le _⟩ hfold

/-- What holds in every state of an index. -/
structure Index.Sound (p : Platform) (index : Index) : Prop where
  byId : ById index.rows
  fingerprints : index.fingerprints = index.rows.mapValues p.hash
  postings : ∀ postings, index.postings = some postings →
    PostedBy postings fun gram identifier =>
      ∃ row, index.rows.get? identifier = some row ∧ gram ∈ rowGrams p row

/-- A generation that is put in place is sound. -/
theorem Index.sound_activate (index : Index) {rows : Dict String Json} (h : ById rows)
    (generation : String) (stamp : Rat) : (index.activate p rows generation stamp).Sound p := by
  refine ⟨h, rfl, fun postings hpostings => ?_⟩
  obtain ⟨⟨next, total⟩, hfold, rfl⟩ := Option.map_eq_some_iff.mp hpostings
  refine (PostedBy.empty.foldl_addRow hfold).congr fun gram identifier => ?_
  rw [false_or]
  exact exists_congr fun row => and_congr_left fun _ => Dict.get?_eq_some_iff.symm

/-- **The step lemma.**  What changes an index keeps it sound. -/
theorem Step.sound {index next : Index} (hstep : Step p index next) (h : index.Sound p) :
    next.Sound p := by
  cases hstep with
  | activate rows generation stamp hrows =>
    exact Index.sound_activate index (documents_ok hrows).1 generation stamp
  | noted unavailableSources skippedRows => exact ⟨h.byId, h.fingerprints, h.postings⟩
  | marked state error => exact ⟨h.byId, h.fingerprints, h.postings⟩

/-- Every index that is reached is sound. -/
theorem Reachable.sound {index : Index} (h : Reachable p index) : index.Sound p := by
  induction h with
  | initial =>
    refine ⟨fun _ _ hget => by simp [Index.initial] at hget, rfl, fun postings hpostings => ?_⟩
    cases hpostings
    exact PostedBy.empty.congr fun gram identifier => by simp [Index.initial]
  | step _ hstep ih => exact hstep.sound ih

/-! ### The rows that are looked at -/

/-- A row that every gram lists is not narrowed away. -/
theorem mem_foldl_narrow {gs : List Text} {all : List String} (hall : identifier ∈ all)
    (hgs : ∀ gram ∈ gs, identifier ∈ listed postings gram) :
    ∀ candidates : Option (List String), (∀ l ∈ candidates, identifier ∈ l) →
      identifier ∈ (gs.foldl (narrow postings) candidates).getD all := by
  induction gs with
  | nil =>
    intro candidates hcandidates
    cases candidates with
    | none => exact hall
    | some l => exact hcandidates l rfl
  | cons gram rest ih =>
    intro candidates hcandidates
    have hgram : identifier ∈ listed postings gram := hgs gram (.head _)
    refine ih (fun g hg => hgs g (.tail _ hg)) _ fun l hl => ?_
    cases candidates with
    | none => cases hl; exact hgram
    | some known =>
      cases hl
      exact List.mem_filter.mpr ⟨hcandidates known rfl, decide_eq_true hgram⟩

/-- Narrowing lists no row twice. -/
theorem nodup_foldl_narrow (hpostings : ∀ gram, (listed postings gram).Nodup) {all : List String}
    (hall : all.Nodup) (gs : List Text) :
    ∀ candidates : Option (List String), (∀ l ∈ candidates, l.Nodup) →
      ((gs.foldl (narrow postings) candidates).getD all).Nodup := by
  induction gs with
  | nil =>
    intro candidates hcandidates
    cases candidates with
    | none => exact hall
    | some l => exact hcandidates l rfl
  | cons gram rest ih =>
    intro candidates hcandidates
    refine ih _ fun l hl => ?_
    cases candidates with
    | none => cases hl; exact hpostings gram
    | some known => cases hl; exact (hcandidates known rfl).filter _

namespace Index

variable {index : Index}

/-- A row that has the terms is among the candidates. -/
theorem Sound.mem_identifiers (h : index.Sound p) (hget : index.rows.get? identifier = some row)
    (hterms : hasTerms p terms row = true) : identifier ∈ index.identifiers terms := by
  have hkey : identifier ∈ index.rows.keys := Dict.mem_keys_of_get? hget
  unfold identifiers
  cases hp : index.postings with
  | none => exact hkey
  | some postings =>
    refine mem_foldl_narrow hkey (fun gram hgram => ?_) none (by simp)
    rw [(h.postings postings hp gram).2]
    exact ⟨row, hget, mem_rowGrams_of_hasTerms hterms hgram⟩

/-- No candidate is listed twice. -/
theorem Sound.nodup_identifiers (h : index.Sound p) (terms : List Text) :
    (index.identifiers terms).Nodup := by
  unfold identifiers
  cases hp : index.postings with
  | none => exact index.rows.keys_nodup
  | some postings =>
    exact nodup_foldl_narrow (fun gram => (h.postings postings hp gram).1)
      index.rows.keys_nodup _ none (by simp)

/-! ### The scan -/

/-- A row is as it was when it was indexed. -/
def unchanged (p : Platform) (index : Index) (row : Json) : Bool :=
  (index.rows.get? (rowId row)).any fun indexed => p.json indexed = p.json row

/-- What a query is to find: every current row is looked at, in the documented order. -/
def scan (p : Platform) (index : Index) (current : Dict String Json) (args : Args)
    (terms : List Text) : List Json :=
  (current.values.filter fun row => index.unchanged p row && passes args row &&
    hasTerms p terms row).insertionSort fun a b => rank p args terms a ≤ rank p args terms b

/-- A row is unchanged when the indexed one has its text. -/
theorem unchanged_iff : index.unchanged p row = true ↔
    ∃ indexed, index.rows.get? (rowId row) = some indexed ∧ p.json indexed = p.json row := by
  unfold unchanged
  rw [Option.any_eq_true]
  exact exists_congr fun indexed => and_congr_right fun _ => decide_eq_true_iff

/-- Comparing fingerprints is comparing texts. -/
theorem Sound.fingerprint_iff (hp : p.Faithful) (h : index.Sound p) :
    index.fingerprints.get? (rowId row) = some (p.hash row) ↔ index.unchanged p row = true := by
  rw [unchanged_iff, h.fingerprints, Dict.get?_mapValues, Option.map_eq_some_iff]
  exact exists_congr fun indexed => and_congr_right fun _ => hash_inj hp

variable {current : Dict String Json}

/-- The current rows are those filed under their ids. -/
theorem mem_values (hcurrent : ById current) :
    row ∈ current.values ↔ current.get? (rowId row) = some row := by
  rw [Dict.mem_values_iff]
  constructor
  · rintro ⟨identifier, hget⟩
    rwa [hcurrent identifier row hget]
  · exact fun h => ⟨_, h⟩

/-- What a plain scan of the current rows finds. -/
theorem mem_scan (hcurrent : ById current) {args : Args} : row ∈ index.scan p current args terms ↔
      current.get? (rowId row) = some row ∧ index.unchanged p row = true ∧
        passes args row = true ∧ ∀ term ∈ terms, term <:+: searchable p row := by
  unfold scan
  rw [List.mem_insertionSort, List.mem_filter, mem_values hcurrent, Bool.and_eq_true,
    Bool.and_eq_true, hasTerms_iff, and_assoc]

/-- What the candidates come to once they are compared again. -/
theorem mem_found (hp : p.Faithful) (h : index.Sound p) (hcurrent : ById current) {args : Args} :
    row ∈ index.found p current args terms ↔ current.get? (rowId row) = some row ∧
      index.unchanged p row = true ∧ passes args row = true ∧ hasTerms p terms row = true := by
  unfold found
  simp only [List.mem_filterMap, Option.filter_eq_some_iff, Bool.and_eq_true, decide_eq_true_iff]
  constructor
  · rintro ⟨identifier, -, hget, ⟨hprint, hpasses⟩, hterms⟩
    have hid : rowId row = identifier := hcurrent identifier row hget
    rw [← hid] at hget hprint
    exact ⟨hget, (h.fingerprint_iff hp).mp hprint, hpasses, hterms⟩
  · rintro ⟨hget, hunchanged, hpasses, hterms⟩
    obtain ⟨indexed, hindexed, hjson⟩ := unchanged_iff.mp hunchanged
    have hsame : hasTerms p terms indexed = true := by
      rw [hasTerms_iff, searchable_congr hp hjson, ← hasTerms_iff]
      exact hterms
    exact ⟨rowId row, h.mem_identifiers hindexed hsame, hget,
      ⟨(h.fingerprint_iff hp).mpr hunchanged, hpasses⟩, hterms⟩

/-- No row is found twice. -/
theorem nodup_found (h : index.Sound p) (hcurrent : ById current) (args : Args)
    (terms : List Text) :
    (index.found p current args terms).Nodup := by
  refine (h.nodup_identifiers terms).filterMap fun a b row ha hb => ?_
  rw [Option.mem_def, Option.filter_eq_some_iff] at ha hb
  rw [← hcurrent a row ha.1, ← hcurrent b row hb.1]

/-- Different current rows have different ranks. -/
theorem eq_of_rank {args : Args} {a b : Json} (ha : current.get? (rowId a) = some a)
    (hb : current.get? (rowId b) = some b) (hab : rank p args terms a ≤ rank p args terms b)
    (hba : rank p args terms b ≤ rank p args terms a) : a = b := by
  have hrank : rank p args terms a = rank p args terms b := le_antisymm hab hba
  have hid : rowId a = rowId b := congrArg (fun key => (ofLex (ofLex key).2).2) hrank
  rw [hid, hb] at ha
  exact (Option.some.inj ha).symm

/-- The ids of the current rows are their keys. -/
theorem map_rowId_values (hcurrent : ById current) : current.values.map rowId = current.keys := by
  unfold Dict.values Dict.keys
  rw [List.map_map]
  exact List.map_congr_left fun e he => hcurrent e.1 e.2 (Dict.get?_eq_some_iff.mpr he)

/-- **The index agrees with the scan**, in content and in order. -/
theorem matched_eq_scan (hp : p.Faithful) (h : index.Sound p) (hcurrent : ById current)
    (args : Args) (terms : List Text) :
    index.matched p current args terms = index.scan p current args terms := by
  have hvalues : current.values.Nodup := by
    refine List.Nodup.of_map rowId ?_
    rw [map_rowId_values hcurrent]
    exact current.keys_nodup
  have hperm : (index.found p current args terms).Perm (current.values.filter fun row =>
      index.unchanged p row && passes args row && hasTerms p terms row) := by
    refine (List.perm_ext_iff_of_nodup (nodup_found h hcurrent args terms)
      (hvalues.filter _)).mpr fun row => ?_
    rw [mem_found hp h hcurrent, List.mem_filter, mem_values hcurrent, Bool.and_eq_true,
      Bool.and_eq_true, and_assoc]
  unfold matched scan
  refine List.Perm.eq_of_pairwise (fun a b ha hb => ?_) (List.pairwise_insertionSort _ _)
    (List.pairwise_insertionSort _ _)
    (((List.perm_insertionSort _ _).trans hperm).trans (List.perm_insertionSort _ _).symm)
  rw [List.mem_insertionSort, mem_found hp h hcurrent] at ha
  rw [List.mem_insertionSort, ← hperm.mem_iff, mem_found hp h hcurrent] at hb
  exact eq_of_rank ha.1 hb.1

end Index

end LocalSearch
