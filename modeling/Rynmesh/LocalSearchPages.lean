import Rynmesh.LocalSearchScan

/-!
# The pages of a search

* `result_total`: a result has its snippets, wherever case folding moves its hits;
* `Index.query_eq`: what a query computes, once its arguments have passed.
-/

namespace LocalSearch

open Checked

variable {p : Platform}

/-! ### Snippets -/

theorem find_some {term text : Text} {start : Nat} (h : find term text = some start) :
    start + term.length ≤ text.length := by
  have hrange := List.mem_range.mp (List.mem_of_find?_eq_some h)
  have hprefix : term <+: text.drop start := List.isPrefixOf_iff_prefix.mp
    (List.find?_some (p := fun i => term.isPrefixOf (text.drop i)) h)
  have hlength := hprefix.length_le
  rw [List.length_drop] at hlength
  omega

/-- In increasing offsets, those that are passed over are too large. -/
theorem le_of_mem_dropWhile {stop point : Nat} {pending : List Nat}
    (hsorted : pending.Pairwise (· ≤ ·))
    (h : point ∈ pending.dropWhile fun x => x < stop) : stop ≤ point := by
  induction pending with
  | nil => cases h
  | cons x rest ih =>
    rw [List.dropWhile_cons] at h
    split at h
    · exact ih hsorted.of_cons h
    · rename_i hx
      have hstop : stop ≤ x := by simpa using hx
      cases h with
      | head => exact hstop
      | tail _ hmem => exact hstop.trans (List.rel_of_pairwise_cons hsorted hmem)

theorem mem_locate {point : Nat} (text : Text) :
    ∀ {pending : List Nat} {offset index : Nat}, pending.Pairwise (· ≤ ·) → point ∈ pending →
      point < offset + (p.casefold text).length →
      point ∈ (locate p pending text offset index).map Prod.fst ∨ point < offset := by
  induction text with
  | nil =>
    intro pending offset index _ _ hlt
    exact Or.inr hlt
  | cons c rest ih =>
    intro pending offset index hsorted hmem hlt
    have hfold : (p.casefold (c :: rest)).length =
        (p.foldChar c).length + (p.casefold rest).length := by
      simp [Platform.casefold]
    rw [locate, List.map_append, List.mem_append]
    rw [← List.takeWhile_append_dropWhile (p := fun x => x < offset + (p.foldChar c).length)
      (l := pending), List.mem_append] at hmem
    cases hmem with
    | inl htake =>
      left
      left
      simpa using htake
    | inr hdrop =>
      have hle := le_of_mem_dropWhile hsorted hdrop
      rw [hfold, ← Nat.add_assoc] at hlt
      have hrest : point ∈ (locate p (pending.dropWhile fun x =>
          x < offset + (p.foldChar c).length) rest (offset + (p.foldChar c).length)
          (index + 1)).map Prod.fst ∨ point < offset + (p.foldChar c).length :=
        ih (hsorted.sublist (List.dropWhile_sublist _)) hdrop hlt
      cases hrest with
      | inl h => exact Or.inl (Or.inr h)
      | inr h => omega

theorem places_total (text : Text) {terms : List Text} (hterms : ∀ term ∈ terms, term ≠ []) :
    ∃ found, places p text terms = .ok found := by
  unfold places
  split
  · exact ⟨_, rfl⟩
  refine mapM_total fun hit hhit => ?_
  obtain ⟨term, hterm, hmap⟩ := List.mem_filterMap.mp hhit
  obtain ⟨start, hstart, rfl⟩ := Option.map_eq_some_iff.mp hmap
  have hlength : 0 < term.length := List.length_pos_iff.mpr (hterms term hterm)
  have hfind := find_some hstart
  have hlocated : ∀ point, point ∈ [start, start + term.length - 1] →
      ∃ place, Dict.lookup point (locate p ((((hits p text terms).flatMap fun hit =>
        [hit.1, hit.1 + hit.2 - 1]).dedup).insertionSort (· ≤ ·)) text 0 0) = some place := by
    intro point hpoint
    rw [← Option.ne_none_iff_exists', Ne, Dict.lookup_eq_none_iff, not_not]
    have hpending : point ∈ (((hits p text terms).flatMap fun hit =>
        [hit.1, hit.1 + hit.2 - 1]).dedup).insertionSort (· ≤ ·) := by
      rw [List.mem_insertionSort, List.mem_dedup]
      exact List.mem_flatMap.mpr ⟨_, hhit, hpoint⟩
    have hlt : point < 0 + (p.casefold text).length := by
      simp only [List.mem_cons, List.not_mem_nil, or_false] at hpoint
      omega
    exact (mem_locate text (List.pairwise_insertionSort _ _) hpending hlt).resolve_right
      (Nat.not_lt_zero _)
  obtain ⟨first, hfirst⟩ := hlocated start (by simp)
  obtain ⟨last, hlast⟩ := hlocated (start + term.length - 1) (by simp)
  simp only [hfirst, hlast, demand_some, ok_bind]
  exact ⟨_, rfl⟩

theorem snippet_total (text : Text) {terms : List Text} (hterms : ∀ term ∈ terms, term ≠ []) :
    ∃ found, snippet p text terms = .ok found := by
  obtain ⟨found, hfound⟩ := places_total (p := p) text hterms
  unfold snippet
  rw [hfound, ok_bind]
  exact ⟨_, rfl⟩

theorem terms_ne_nil {query : String} {found : List Text} (h : terms p query = .ok found) :
    ∀ term ∈ found, term ≠ [] := by
  unfold terms at h
  simp only [bind_ok, require_ok, pure_ok] at h
  obtain ⟨-, -, -, -, rfl⟩ := h
  intro term hterm
  rw [List.mem_eraseDups] at hterm
  simpa using (List.mem_filter.mp hterm).2

theorem result_total (row : Json) {terms : List Text} (hterms : ∀ term ∈ terms, term ≠ []) :
    ∃ found, result p terms row = .ok found := by
  obtain ⟨body, hbody⟩ := snippet_total (p := p) (textOf row "text").toList hterms
  obtain ⟨title, htitle⟩ := snippet_total (p := p) (textOf row "title").toList hterms
  unfold result
  rw [hbody, ok_bind, htitle, ok_bind]
  exact ⟨_, rfl⟩

theorem result_id {row : Json} {terms : List Text} {found : Result}
    (h : result p terms row = .ok found) : found.id = rowId row := by
  unfold result at h
  simp only [bind_ok, pure_ok] at h
  obtain ⟨body, -, title, -, rfl⟩ := h
  rfl

theorem map_id {rows : List Json} {terms : List Text} {results : List Result}
    (h : rows.mapM (result p terms) = .ok results) : results.map Result.id = rows.map rowId := by
  have hall := mapM_forall₂ h
  clear h
  induction hall with
  | nil => rfl
  | cons hhead _ ih => rw [List.map_cons, List.map_cons, result_id hhead, ih]

/-! ### One query -/

theorem current_ok {source : Option Source} {found : Dict String Json × List String}
    (h : current p source = .ok found) :
    ById found.1 ∧ found.1.entries.length ≤ maxDocuments := by
  unfold current at h
  split at h
  · rename_i result hread
    cases h
    cases source with
    | none => cases hread
    | some source =>
      change readSource p source = .ok found at hread
      unfold readSource at hread
      simp only [bind_ok, require_ok, pure_ok] at hread
      obtain ⟨-, -, rows, hrows, rfl⟩ := hread
      exact documents_ok hrows
  · cases h

theorem current_error {source : Option Source} {code : String}
    (h : current p source = .error code) : code = "search_source_unavailable" := by
  unfold current at h
  split at h
  · cases h
  · cases h
    rfl

/-- Rows that are current differ from what is indexed, or an indexed row is no longer current. -/
def Index.pending (p : Platform) (index : Index) (current : Dict String Json) : Bool :=
  index.state ≠ .ready || (current.mapValues p.hash).entries.any (fun e =>
    index.fingerprints.get? e.1 ≠ some e.2) || index.fingerprints.keys.any fun k =>
      (current.get? k).isNone

/-- The answer at an offset of the scan. -/
def Index.pageAt (p : Platform) (index : Index) (found : Dict String Json × List String)
    (args : Args) (terms : List Text) (offset : Nat) (results : List Result) : Page :=
  let matched := index.scan p found.1 args terms
  ⟨results, matched.length,
    if offset + args.limit.toNat < matched.length then
      p.encodeCursor (signature p index args terms matched) (offset + args.limit.toNat)
    else "",
    index.pending p found.1 || !found.2.isEmpty, index.pending p found.1, found.2⟩

theorem Index.query_eq (hp : p.Faithful) {index : Index} (hindex : index.Sound p)
    {source : Option Source} {args : Args} {terms : List Text}
    (hterms : LocalSearch.terms p args.query = .ok terms) (hsome : terms ≠ [])
    (hargs : checkArgs args = .ok ⟨⟩) {found : Dict String Json × List String}
    (hfound : current p source = .ok found) :
    index.query p source args = (do
      let offset ← readCursor p (signature p index args terms (index.scan p found.1 args terms))
        (index.scan p found.1 args terms).length args.cursor
      let results ← (((index.scan p found.1 args terms).drop offset).take
        args.limit.toNat).mapM (result p terms)
      pure (index.pageAt p found args terms offset results)) := by
  unfold Index.query
  rw [hterms, ok_bind, hargs, ok_bind, if_neg hsome, hfound, ok_bind]
  simp only [matched_eq_scan hp hindex (current_ok hfound).1]
  rfl

theorem Index.query_source {index : Index} {source : Option Source} {args : Args}
    {terms : List Text} (hterms : LocalSearch.terms p args.query = .ok terms) (hsome : terms ≠ [])
    (hargs : checkArgs args = .ok ⟨⟩) {code : String} (hsource : current p source = .error code) :
    index.query p source args = .error "search_source_unavailable" := by
  unfold Index.query
  rw [hterms, ok_bind, hargs, ok_bind, if_neg hsome, hsource, current_error hsource]
  rfl

theorem Index.query_ok (hp : p.Faithful) {index : Index} (hindex : index.Sound p)
    {source : Option Source} {args : Args} {terms : List Text} {page : Page}
    (hterms : LocalSearch.terms p args.query = .ok terms) (hsome : terms ≠ [])
    (h : index.query p source args = .ok page) :
    ∃ found offset results, checkArgs args = .ok ⟨⟩ ∧ current p source = .ok found ∧
      readCursor p (signature p index args terms (index.scan p found.1 args terms))
        (index.scan p found.1 args terms).length args.cursor = .ok offset ∧
      (((index.scan p found.1 args terms).drop offset).take args.limit.toNat).mapM
        (result p terms) = .ok results ∧ page = index.pageAt p found args terms offset results := by
  cases hargs : checkArgs args with
  | error code => simp [Index.query, hterms, hargs] at h
  | ok u =>
    cases hsource : current p source with
    | error code =>
      rw [Index.query_source hterms hsome hargs hsource] at h
      cases h
    | ok found =>
      rw [Index.query_eq hp hindex hterms hsome hargs hsource] at h
      simp only [bind_ok, pure_ok] at h
      obtain ⟨offset, hoffset, results, hresults, hpage⟩ := h
      exact ⟨found, offset, results, rfl, rfl, hoffset, hresults, hpage.symm⟩

end LocalSearch
