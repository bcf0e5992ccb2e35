import Rynmesh.LocalSearchPages
import Mathlib.Logic.Function.Basic

/-!
# The index never changes the answer

A query with terms answers with a page of the plain scan of what is current
(`Index.scan`), in every state that the index can be in; and a reader that follows
the cursors gets every match once (`Reads`, `query_exact`), since a signature tells
the rows that matched (`signature_inj`).  A query without terms is
answered with nothing (`blank_query_lists_nothing`).
-/

namespace LocalSearch

open Checked

variable {p : Platform} {args : Args} {terms : List Text}

/-! ### Cursors -/

theorem map_eq_of_factors {α : Type} {β : Type} {γ : Type} [Nonempty γ] {f : α → γ} {g : α → β}
    (h : Function.FactorsThrough f g) {as bs : List α} (hmap : as.map g = bs.map g) :
    as.map f = bs.map f := by
  obtain ⟨k, rfl⟩ := (Function.factorsThrough_iff f).mp h
  rw [← List.map_map, hmap, List.map_map]

theorem signature_inj (hp : p.Faithful) {first second : Index} {found others : List Json}
    (h : signature p first args terms found = signature p second args terms others) :
    found.map rowId = others.map rowId := by
  have hitems := hp.json_items _ _ ((hash_inj hp).mp h)
  simp only [Json.asArr?, Option.map_some, Option.some.injEq, List.map_cons, List.map_nil,
    List.cons.injEq, and_true] at hitems
  have hrows := hp.json_items _ _ hitems.2.2.2.2.2.2.2.2.2
  simp only [Json.asArr?, Option.map_some, Option.some.injEq, List.map_map] at hrows
  refine map_eq_of_factors (fun a b hab => ?_) hrows
  have htext := hp.json_text _ _ hab
  exact rowId_congr hp ((hash_inj hp).mp (Option.some.inj htext))

theorem readCursor_encode (hp : p.Faithful) (own made : String) (total offset : Nat) :
    readCursor p own total (p.encodeCursor made offset) =
      if made = own then
        if offset ≤ total then .ok offset else .error "search_cursor_invalid"
      else .error "search_results_changed" := by
  have hsignature : (Json.object [("signature", .str made), ("offset", .int offset)]).get?
      "signature" = some (.str made) := by
    simp [Json.object, Json.get?, Json.lookup_setField]
  have hoffset : (Json.object [("signature", .str made), ("offset", .int offset)]).get?
      "offset" = some (.int offset) := by
    simp [Json.object, Json.get?, Json.lookup_setField]
  unfold readCursor
  rw [if_neg (hp.cursor_ne made offset), hp.cursor, demand_some, ok_bind, hsignature, demand_some,
    ok_bind, hoffset]
  by_cases hown : made = own
  · subst hown
    rw [if_pos rfl, require_of rfl, ok_bind]
    simp only [Option.bind_some, Json.asInt?, demand_some, ok_bind]
    by_cases hle : offset ≤ total
    · rw [if_pos hle, require_of ⟨by omega, by omega⟩, ok_bind]
      rfl
    · have hnot : ¬ (0 ≤ (offset : Int) ∧ (offset : Int) ≤ total) := by omega
      simp only [require, hnot, if_false, if_neg hle]
      rfl
  · rw [if_neg hown]
    simp [require, hown, bind, Except.bind]

/-! ### Following the cursors -/

/-- A call of `query` that answered, with the index and the source as they were. -/
structure Call where
  index : Index
  source : Option Source
  page : Page

/-- The matches at the time of a call. -/
def Call.matched (p : Platform) (args : Args) (terms : List Text) (call : Call) : List Json :=
  match current p call.source with
  | .ok found => call.index.scan p found.1 args terms
  | .error _ => []

/-- The calls of a reader that follows the cursors, and the cursor to go on with. -/
inductive Reads (p : Platform) (args : Args) : List Call → Option String → Prop
  | start : Reads p args [] (some "")
  | more {calls : List Call} {cursor : String} (h : Reads p args calls (some cursor)) (call : Call)
      (hindex : Reachable p call.index)
      (hpage : call.index.query p call.source { args with cursor } = .ok call.page) :
      Reads p args (calls ++ [call])
        (if call.page.nextCursor = "" then none else some call.page.nextCursor)

/-- What a reader was shown. -/
def shown (calls : List Call) : List String :=
  calls.flatMap fun call => call.page.results.map Result.id

theorem shown_append (calls : List Call) (call : Call) :
    shown (calls ++ [call]) = shown calls ++ call.page.results.map Result.id := by
  simp [shown]

theorem Call.nodup_matched (call : Call) :
    ((call.matched p args terms).map rowId).Nodup := by
  unfold Call.matched
  split
  · rename_i found hfound
    have hid := (current_ok hfound).1
    refine (((List.perm_insertionSort _ _).map rowId).nodup_iff).mpr ?_
    refine (List.Sublist.map rowId List.filter_sublist).nodup ?_
    rw [Index.map_rowId_values hid]
    exact found.1.keys_nodup
  · exact List.nodup_nil

/-- The place of a reader: the matches of every call have been the same, the calls have shown
them from the start, and the cursor says where to go on. -/
structure Place (p : Platform) (args : Args) (terms : List Text) (calls : List Call)
    (next : Option String) (ids : List String) (text : String) : Prop where
  matched : ∀ call ∈ calls, (call.matched p args terms).map rowId = ids
  shown : shown calls = ids.take (calls.length * args.limit.toNat)
  done : next = none → ids.length ≤ calls.length * args.limit.toNat
  cursor : ∀ cursor ∈ next, (calls = [] ∧ cursor = "") ∨
    (calls ≠ [] ∧ cursor = p.encodeCursor (p.digest text) (calls.length * args.limit.toNat) ∧
      calls.length * args.limit.toNat < ids.length ∧
      ∀ call ∈ calls, ∃ index, p.digest text =
        signature p index args terms (call.matched p args terms))

theorem Place.next (hp : p.Faithful) {calls : List Call} {call : Call} {ids : List String}
    {found : Dict String Json × List String} {results : List Result}
    (hmatched : ∀ other ∈ calls, (other.matched p args terms).map rowId = ids)
    (hshown : LocalSearch.shown calls = ids.take (calls.length * args.limit.toNat))
    (hfound : current p call.source = .ok found)
    (hids : (call.index.scan p found.1 args terms).map rowId = ids)
    (hsignature : ∀ other ∈ calls, ∃ index,
      signature p call.index args terms (call.index.scan p found.1 args terms) =
        signature p index args terms (other.matched p args terms))
    (hresults : (((call.index.scan p found.1 args terms).drop
      (calls.length * args.limit.toNat)).take args.limit.toNat).mapM (result p terms) = .ok results)
    (hpage : call.page = call.index.pageAt p found args terms (calls.length * args.limit.toNat)
      results) :
    ∃ text, Place p args terms (calls ++ [call])
      (if call.page.nextCursor = "" then none else some call.page.nextCursor) ids text := by
  have hcall : call.matched p args terms = call.index.scan p found.1 args terms := by
    rw [Call.matched, hfound]
  have hlength : (calls ++ [call]).length * args.limit.toNat =
      calls.length * args.limit.toNat + args.limit.toNat := by
    rw [List.length_append, List.length_singleton, Nat.add_mul, Nat.one_mul]
  have htotal : (call.index.scan p found.1 args terms).length = ids.length := by
    rw [← hids, List.length_map]
  have hnext : call.page.nextCursor =
      if calls.length * args.limit.toNat + args.limit.toNat < ids.length then
        p.encodeCursor (signature p call.index args terms (call.index.scan p found.1 args terms))
          (calls.length * args.limit.toNat + args.limit.toNat)
      else "" := by
    rw [← htotal, hpage]
    rfl
  obtain ⟨text, htext⟩ : ∃ text, p.digest text =
      signature p call.index args terms (call.index.scan p found.1 args terms) := ⟨_, rfl⟩
  rw [← htext] at hnext hsignature
  refine ⟨text, ?_, ?_, ?_, ?_⟩
  · intro other hother
    cases List.mem_append.mp hother with
    | inl hmem => exact hmatched other hmem
    | inr hmem => rw [List.mem_singleton.mp hmem, hcall, hids]
  · have hpageIds : call.page.results.map Result.id =
        (ids.drop (calls.length * args.limit.toNat)).take args.limit.toNat := by
      rw [hpage, ← hids, ← List.map_drop, ← List.map_take]
      exact map_id hresults
    rw [shown_append, hshown, hpageIds, hlength, List.take_add]
  · intro hnone
    rw [hlength]
    by_contra hlt
    rw [hnext, if_pos (Nat.lt_of_not_le hlt), if_neg (hp.cursor_ne _ _)] at hnone
    cases hnone
  · intro cursor hcursor
    right
    split at hcursor
    · cases hcursor
    rename_i hne
    cases hcursor
    have hlt : calls.length * args.limit.toNat + args.limit.toNat < ids.length := by
      by_contra hlt
      exact hne (by rw [hnext, if_neg hlt])
    rw [hnext, if_pos hlt, hlength]
    refine ⟨by simp, rfl, hlt, fun other hother => ?_⟩
    cases List.mem_append.mp hother with
    | inl hmem => exact hsignature other hmem
    | inr hmem => exact ⟨call.index, by rw [List.mem_singleton.mp hmem, hcall, htext]⟩

theorem Reads.place (hp : p.Faithful) (hterms : LocalSearch.terms p args.query = .ok terms)
    (hsome : terms ≠ []) {calls : List Call} {next : Option String} (h : Reads p args calls next) :
    ∃ ids text, Place p args terms calls next ids text := by
  induction h with
  | start => exact ⟨[], "", by simp, by simp [shown], by simp, by simp⟩
  | @more calls cursor h call hindex hpage ih =>
    obtain ⟨ids, text, hplace⟩ := ih
    obtain ⟨found, offset, results, -, hfound, hoffset, hresults, heq⟩ :=
      Index.query_ok hp hindex.sound
        (show LocalSearch.terms p { args with cursor }.query = .ok terms from hterms) hsome hpage
    cases hplace.cursor cursor rfl with
    | inl hstart =>
      obtain ⟨rfl, rfl⟩ := hstart
      cases hoffset
      have hzero : ([] : List Call).length * args.limit.toNat = 0 := Nat.zero_mul _
      rw [← hzero] at hresults heq
      exact ⟨_, Place.next hp (by simp) (by simp [LocalSearch.shown]) hfound rfl (by simp)
        hresults heq⟩
    | inr hmore =>
      obtain ⟨hne, hcursor, hlt, hmade⟩ := hmore
      subst hcursor
      change readCursor p (signature p call.index args terms
        (call.index.scan p found.1 args terms)) _ _ = _ at hoffset
      rw [readCursor_encode hp] at hoffset
      split at hoffset
      · rename_i hown
        split at hoffset
        · cases hoffset
          obtain ⟨first, hfirst⟩ := List.exists_mem_of_ne_nil _ hne
          obtain ⟨index, hsignature⟩ := hmade first hfirst
          have hids : (call.index.scan p found.1 args terms).map rowId = ids := by
            rw [← hplace.matched first hfirst]
            exact signature_inj hp (hown.symm.trans hsignature)
          refine ⟨ids, Place.next hp hplace.matched hplace.shown hfound hids ?_ hresults heq⟩
          intro other hother
          obtain ⟨index, hother⟩ := hmade other hother
          exact ⟨index, hown.symm.trans hother⟩
        · cases hoffset
      · cases hoffset

/-! ### Every query -/

theorem checkArgs_cursor {cursor : String} (h : checkArgs { args with cursor := "" } = .ok ⟨⟩)
    (hlength : cursor.length ≤ 2048) : checkArgs { args with cursor } = .ok ⟨⟩ := by
  unfold checkArgs at h ⊢
  simp only [bind_ok, require_ok] at h ⊢
  obtain ⟨u, hkind, v, hafter, w, hbefore, x, hrange, hsource, hfriend, -⟩ := h
  exact ⟨u, hkind, v, hafter, w, hbefore, x, hrange, hsource, hfriend, hlength⟩

/-- Where a reader stands, the next call answers or says why not. -/
theorem Reads.next_call (hp : p.Faithful) (hterms : LocalSearch.terms p args.query = .ok terms)
    (hsome : terms ≠ []) {calls : List Call} {cursor : String}
    (h : Reads p args calls (some cursor)) {index : Index} (hindex : Reachable p index)
    {source : Option Source} (hvalid : checkArgs { args with cursor := "" } = .ok ⟨⟩)
    (hlength : cursor.length ≤ 2048) :
    (∃ page, index.query p source { args with cursor } = .ok page) ∨
      index.query p source { args with cursor } = .error "search_results_changed" ∨
      (∃ code, current p source = .error code) ∧
        index.query p source { args with cursor } = .error "search_source_unavailable" := by
  have hquery : LocalSearch.terms p { args with cursor }.query = .ok terms := hterms
  have hargs : checkArgs { args with cursor } = .ok ⟨⟩ :=
    checkArgs_cursor hvalid hlength
  cases hsource : current p source with
  | error code =>
    exact Or.inr (Or.inr ⟨⟨code, rfl⟩, Index.query_source hquery hsome hargs hsource⟩)
  | ok found =>
    obtain ⟨ids, text, hplace⟩ := h.place hp hterms hsome
    have hresults : ∀ rows : List Json, ∃ results, rows.mapM (result p terms) = .ok results :=
      fun rows => mapM_total fun row _ => result_total row (terms_ne_nil hterms)
    rw [Index.query_eq hp hindex.sound hquery hsome hargs hsource]
    cases hplace.cursor cursor rfl with
    | inl hstart =>
      left
      obtain ⟨results, hall⟩ := hresults (((index.scan p found.1 { args with cursor }
        terms).drop 0).take args.limit.toNat)
      rw [readCursor, if_pos hstart.2, ok_bind, hall, ok_bind]
      exact ⟨_, rfl⟩
    | inr hmore =>
      obtain ⟨hne, hcursor, hlt, hmade⟩ := hmore
      subst hcursor
      rw [readCursor_encode hp]
      split
      · rename_i hown
        obtain ⟨first, hfirst⟩ := List.exists_mem_of_ne_nil _ hne
        obtain ⟨other, hsignature⟩ := hmade first hfirst
        have hids := (signature_inj hp (hown.symm.trans hsignature)).trans
          (hplace.matched first hfirst)
        have hlength := congrArg List.length hids
        rw [List.length_map] at hlength
        left
        obtain ⟨results, hall⟩ := hresults (((index.scan p found.1 { args with
          cursor := p.encodeCursor (p.digest text) (calls.length * args.limit.toNat) }
          terms).drop (calls.length * args.limit.toNat)).take args.limit.toNat)
        rw [if_pos (hlength ▸ hlt.le), ok_bind, hall, ok_bind]
        exact ⟨_, rfl⟩
      · exact Or.inr (Or.inl rfl)

theorem Index.query_page (hp : p.Faithful) (hterms : LocalSearch.terms p args.query = .ok terms)
    (hsome : terms ≠ []) {index : Index} (hindex : Reachable p index) {source : Option Source}
    {page : Page} (h : index.query p source args = .ok page) :
    ∃ found offset, current p source = .ok found ∧ (args.cursor = "" → offset = 0) ∧
      page.total = (index.scan p found.1 args terms).length ∧
      (((index.scan p found.1 args terms).drop offset).take args.limit.toNat).mapM
        (result p terms) = .ok page.results ∧
      ∀ shown ∈ page.results, ∃ row, found.1.get? shown.id = some row := by
  obtain ⟨found, offset, results, -, hfound, hoffset, hresults, rfl⟩ :=
    Index.query_ok hp hindex.sound hterms hsome h
  refine ⟨found, offset, hfound, fun hcursor => ?_, rfl, hresults, fun shown hshown => ?_⟩
  · rw [readCursor, if_pos hcursor] at hoffset
    cases hoffset
    rfl
  · have hid : shown.id ∈ results.map Result.id := List.mem_map_of_mem hshown
    rw [map_id hresults] at hid
    obtain ⟨row, hrow, hsame⟩ := List.mem_map.mp hid
    have hscan := (mem_scan (current_ok hfound).1).mp
      (List.mem_of_mem_drop (List.mem_of_mem_take hrow))
    exact ⟨row, hsame ▸ hscan.1⟩

/-- Whatever the index and the source have been through: a call answers with a page of the scan
of what is current, and a reader that follows the cursors to the end is shown every match once,
unless a call says that the results changed or that the source cannot be read. -/
theorem query_exact (hp : p.Faithful) (hterms : LocalSearch.terms p args.query = .ok terms)
    (hargs : checkArgs { args with cursor := "" } = .ok ⟨⟩) :
    (terms = [] → ∀ (index : Index) source page, index.query p source args = .ok page →
      page.results = [] ∧ page.total = 0 ∧ page.nextCursor = "") ∧
    (terms ≠ [] →
      (∀ (index : Index) source cursor page, Reachable p index →
        index.query p source { args with cursor } = .ok page →
          ∃ found offset, current p source = .ok found ∧ (cursor = "" → offset = 0) ∧
            page.total = (index.scan p found.1 args terms).length ∧
            (((index.scan p found.1 args terms).drop offset).take args.limit.toNat).mapM
              (result p terms) = .ok page.results ∧
            ∀ shown ∈ page.results, ∃ row, found.1.get? shown.id = some row) ∧
      (∀ calls, Reads p args calls none → ∀ call ∈ calls,
        shown calls = (call.matched p args terms).map rowId ∧ (shown calls).Nodup) ∧
      ∀ calls cursor, Reads p args calls (some cursor) →
        (∀ call ∈ calls, calls.length * args.limit.toNat < (call.matched p args terms).length) ∧
        ∀ (index : Index) source, Reachable p index → cursor.length ≤ 2048 →
          (∃ page, index.query p source { args with cursor } = .ok page) ∨
          index.query p source { args with cursor } = .error "search_results_changed" ∨
          (∃ code, current p source = .error code) ∧
            index.query p source { args with cursor } = .error "search_source_unavailable") := by
  refine ⟨fun hnone index source page h => ?_, fun hsome => ⟨?_, ?_, ?_⟩⟩
  · unfold Index.query at h
    rw [hterms, ok_bind, hnone] at h
    simp only [bind_ok, if_true, pure_ok] at h
    obtain ⟨-, -, rfl⟩ := h
    exact ⟨rfl, rfl, rfl⟩
  · intro index source cursor page hindex h
    exact Index.query_page hp
      (show LocalSearch.terms p { args with cursor }.query = .ok terms from hterms) hsome hindex h
  · intro calls h call hcall
    obtain ⟨ids, text, hplace⟩ := h.place hp hterms hsome
    have hall : shown calls = ids := by
      rw [hplace.shown, List.take_of_length_le (hplace.done rfl)]
    rw [hall, hplace.matched call hcall]
    exact ⟨rfl, hplace.matched call hcall ▸ call.nodup_matched⟩
  · intro calls cursor h
    refine ⟨fun call hcall => ?_, fun index source hindex hlength =>
      h.next_call hp hterms hsome hindex hargs hlength⟩
    obtain ⟨ids, text, hplace⟩ := h.place hp hterms hsome
    have hids := congrArg List.length (hplace.matched call hcall)
    rw [List.length_map] at hids
    rw [hids]
    cases hplace.cursor cursor rfl with
    | inl hstart => rw [hstart.1] at hcall; cases hcall
    | inr hmore => exact hmore.2.2.1

/-! ### A platform -/

/-- A platform whose digests are the texts, and whose cursors can be read by eye. -/
def samplePlatform : Platform where
  foldChar c := [c.toLower]
  isSpace c := c = ' '
  json value := String.ofList (Json.encode value)
  digest text := text
  encodeCursor text offset := String.ofList (List.replicate offset 'x' ++ '.' :: text.toList)
  decodeCursor cursor := some (.object
    [("signature", .str (String.ofList (cursor.toList.dropWhile (· = 'x')).tail)),
      ("offset", .int (cursor.toList.takeWhile (· = 'x')).length)])

theorem samplePlatform_faithful : samplePlatform.Faithful := by
  have hjson : ∀ a b, samplePlatform.json a = samplePlatform.json b → a = b :=
    fun _ _ h => Json.encode_injective h
  refine ⟨fun _ _ h => h, ?_, ?_, ?_, ?_, ?_⟩
  · intro a b h
    rw [hjson a b h]
  · intro a b h
    rw [hjson a b h]
  · intro a b h k
    rw [hjson a b h]
  · intro text offset
    have hx : ∀ c ∈ List.replicate offset 'x', (decide (c = 'x')) = true :=
      fun c hc => decide_eq_true (List.eq_of_mem_replicate hc)
    simp only [samplePlatform, String.toList_ofList, List.takeWhile_append_of_pos hx,
      List.dropWhile_append_of_pos hx]
    simp
  · intro text offset h
    have hlist := congrArg String.toList h
    simp [samplePlatform] at hlist

def sampleDocument (id : String) : Json := .object [("id", .str id), ("kinds", .arr [.str "saved"]),
  ("source", .str ""), ("targets", .arr [.object [("href", .str "/"), ("label", .str "")]]),
  ("text", .str "Ryn"), ("timestamp", .int 1), ("title", .str "")]

def sampleArgs (query : String) : Args := ⟨query, "", "", "", .int 0, .null, "recent", 20, ""⟩

def sampleRows : Dict String Json :=
  (Dict.empty.set "a" (sampleDocument "a")).set "b" (sampleDocument "b")

def sampleSource : Source := ⟨[sampleDocument "a", sampleDocument "b"], []⟩

/-- The index after one build. -/
def sampleIndex : Index := Index.initial.activate samplePlatform sampleRows "g" 0

theorem sampleDocuments :
    documents samplePlatform sampleSource.rows = .ok (sampleRows, 0) := by
  have hany : (documents samplePlatform sampleSource.rows).toOption.any (fun found =>
      found.1.entries = sampleRows.entries && found.2 = 0) = true := by
    decide +kernel
  obtain ⟨⟨⟨entries, hnodup⟩, skipped⟩, hfound, hall⟩ := toOption_any hany
  simp only [Bool.and_eq_true, decide_eq_true_iff] at hall
  obtain ⟨rfl, rfl⟩ := hall
  exact hfound

theorem sampleSource_current : current samplePlatform (some sampleSource) =
    .ok (sampleRows, []) := by
  simp only [current, demand_some, Except.bind, readSource, sampleDocuments, ok_bind]
  rfl

theorem sampleIndex_reachable : Reachable samplePlatform sampleIndex :=
  .step .initial (.activate sampleSource.rows "g" 0 sampleDocuments)

/-- A query without terms finds nothing, where the scan finds every row. -/
theorem blank_query_lists_nothing : samplePlatform.Faithful ∧
    Reachable samplePlatform sampleIndex ∧
    LocalSearch.terms samplePlatform (sampleArgs "").query = .ok [] ∧
    ∃ found page, current samplePlatform (some sampleSource) = .ok found ∧
      sampleIndex.query samplePlatform (some sampleSource) (sampleArgs "") = .ok page ∧
      page.total = 0 ∧ page.results.length = 0 ∧ page.nextCursor = "" ∧
      sampleDocument "a" ∈ sampleIndex.scan samplePlatform found.1 (sampleArgs "") [] := by
  have hterms : LocalSearch.terms samplePlatform (sampleArgs "").query = .ok [] := by
    have hany : (LocalSearch.terms samplePlatform (sampleArgs "").query).toOption.any
        (fun found => found = []) = true := by
      decide +kernel
    obtain ⟨found, hfound, hnone⟩ := toOption_any hany
    rw [hfound, of_decide_eq_true hnone]
  have hany : (sampleIndex.query samplePlatform (some sampleSource)
      (sampleArgs "")).toOption.any (fun page =>
        page.total = 0 && page.results.length = 0 && page.nextCursor = "") = true := by
    decide +kernel
  obtain ⟨page, hpage, hall⟩ := toOption_any hany
  simp only [Bool.and_eq_true, decide_eq_true_iff] at hall
  refine ⟨samplePlatform_faithful, sampleIndex_reachable, hterms, _, page, sampleSource_current,
    hpage, hall.1.1, hall.1.2, hall.2, ?_⟩
  rw [Index.mem_scan (current_ok sampleSource_current).1]
  refine ⟨by decide +kernel, by decide +kernel, by decide +kernel, by simp⟩

theorem query_exact_sample : ∃ page,
    sampleIndex.query samplePlatform (some sampleSource) (sampleArgs "ryn") = .ok page ∧
      page.results.map Result.id = ["a", "b"] ∧
      (Call.matched samplePlatform (sampleArgs "ryn") [['r', 'y', 'n']]
        ⟨sampleIndex, some sampleSource, page⟩).map rowId = ["a", "b"] := by
  have hterms : LocalSearch.terms samplePlatform (sampleArgs "ryn").query =
      .ok [['r', 'y', 'n']] := by
    have hany : (LocalSearch.terms samplePlatform (sampleArgs "ryn").query).toOption.any
        (fun found => found = [['r', 'y', 'n']]) = true := by
      decide +kernel
    obtain ⟨found, hfound, hsome⟩ := toOption_any hany
    rw [hfound, of_decide_eq_true hsome]
  have hargs : checkArgs { sampleArgs "ryn" with cursor := "" } = .ok ⟨⟩ := by
    have hany : (checkArgs { sampleArgs "ryn" with cursor := "" }).toOption.any
        (fun _ => true) = true := by
      decide +kernel
    obtain ⟨u, hu, -⟩ := toOption_any hany
    exact hu
  have hany : (sampleIndex.query samplePlatform (some sampleSource)
      (sampleArgs "ryn")).toOption.any (fun page =>
        page.results.map Result.id = ["a", "b"] && page.nextCursor = "") = true := by
    decide +kernel
  obtain ⟨page, hpage, hall⟩ := toOption_any hany
  simp only [Bool.and_eq_true, decide_eq_true_iff] at hall
  have hreads := Reads.more .start ⟨sampleIndex, some sampleSource, page⟩ sampleIndex_reachable
    (show sampleIndex.query samplePlatform (some sampleSource)
      { sampleArgs "ryn" with cursor := "" } = .ok page from hpage)
  rw [if_pos hall.2] at hreads
  have hmatched := ((query_exact samplePlatform_faithful hterms hargs).2 (by simp)).2.1 _ hreads _
    (List.mem_append_right _ (.head _))
  refine ⟨page, hpage, hall.1, ?_⟩
  rw [← hmatched.1, shown_append]
  exact hall.1

end LocalSearch
