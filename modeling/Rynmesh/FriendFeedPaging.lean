import Rynmesh.FriendFeedCursors

/-!
# Paging through a friend's feed

* `readPage_ok` and `readPage_made`: what a page that passes the checks brings, from
  anyone and from the publisher;
* `Has`: a publication is cached; `merge_has_new`, `merge_has_old` and `merge_sound` say
  what is cached after a page.
-/

namespace Feed

open Checked

variable {p : ReaderPlatform}

/-! ### Pages -/

/-- The page at an offset in the rows. -/
def pageOf (p : Platform) (rows : List Publication) (offset : Nat) : Json :=
  .object [("rows", .arr (((rows.drop offset).take 20).map (peerRow p))),
    ("catalogue", catalogue rows), ("generation", .str (p.digest (catalogue rows))),
    ("next_cursor", .str (cursorAt p rows (offset + 20)))]

theorem Node.page_ok {p : Platform} {node : Node} {friend : Relationship} {cursor page : Json}
    (h : node.page p friend cursor = .ok page) :
    ∃ offset, readCursor p (p.digest (catalogue (node.shownRows friend.relationshipId)))
        (node.shownRows friend.relationshipId).length cursor = .ok offset ∧
      page = pageOf p (node.shownRows friend.relationshipId) offset := by
  unfold Node.page at h
  simp only [bind_ok, pure_ok] at h
  obtain ⟨relationship, hactive, offset, hoffset, rfl⟩ := h
  rw [Node.active_ok hactive] at hoffset ⊢
  exact ⟨offset, hoffset, rfl⟩

theorem get?_of_asStr? {value : Json} {k text : String}
    (h : (field value k).asStr? = some text) : value.get? k = some (.str text) := by
  unfold field at h
  cases hget : value.get? k with
  | none =>
    rw [hget] at h
    cases h
  | some v =>
    rw [hget, Option.getD_some] at h
    cases v <;> cases h
    rfl

theorem revision_ok {value : Json} {n : Nat} (h : revision value = .ok n) : value = .int n := by
  unfold revision at h
  simp only [bind_ok, demand_ok, require_ok, pure_ok] at h
  obtain ⟨m, hm, -, hpos, rfl⟩ := h
  cases value <;> cases hm
  rw [Int.toNat_of_nonneg hpos]

theorem readRow_ok {catalogue row : Json} {clean next : Dict String Record}
    (h : readRow p catalogue clean row = .ok next) :
    ∃ id record, row.get? "id" = some (.str id) ∧
      row.get? "revision" = some (.int record.revision) ∧
      catalogue.get? id = some (.int record.revision) ∧ clean.get? id = none ∧
      record.id = id ∧ next = clean.set id record := by
  unfold readRow at h
  simp only [bind_ok, require_ok, demand_ok, pure_ok] at h
  obtain ⟨-, -, id, hid, -, hnew, rev, hrev, -, hcatalogue, -, -, -, -, card, -, -, -, rfl⟩ := h
  have hrevision : row.get? "revision" = some (.int rev) := by
    have hfield := revision_ok hrev
    unfold field at hfield
    cases hget : row.get? "revision" with
    | none =>
      rw [hget] at hfield
      cases hfield
    | some v =>
      rw [hget] at hfield
      exact congrArg some hfield
  exact ⟨id, _, get?_of_asStr? (identity_ok hid), hrevision, hcatalogue,
    Option.isNone_iff_eq_none.mp hnew, rfl, rfl⟩

theorem readRows_ok {catalogue : Json} {rows : List Json} :
    ∀ {clean last : Dict String Record}, rows.foldlM (readRow p catalogue) clean = .ok last →
      (∀ id record, clean.get? id = some record → last.get? id = some record) ∧
      (∀ id record, last.get? id = some record → clean.get? id = some record ∨
        catalogue.get? id = some (.int record.revision) ∧ record.id = id ∧
          ∃ row ∈ rows, row.get? "id" = some (.str id) ∧
            row.get? "revision" = some (.int record.revision)) ∧
      ∀ row ∈ rows, ∃ id record, row.get? "id" = some (.str id) ∧ last.get? id = some record ∧
        row.get? "revision" = some (.int record.revision) := by
  induction rows with
  | nil =>
    intro clean last h
    obtain rfl : clean = last := by simpa using h
    exact ⟨fun _ _ hget => hget, fun _ _ hget => Or.inl hget, by simp⟩
  | cons row rest ih =>
    intro clean last h
    obtain ⟨next, hnext, hrest⟩ := bind_ok.mp h
    obtain ⟨id, record, hid, hrevision, hcatalogue, hnew, hkeyed, rfl⟩ := readRow_ok hnext
    obtain ⟨hkeep, hfrom, hall⟩ := ih hrest
    have hself : last.get? id = some record := hkeep id record (Dict.get?_set_self _ _ _)
    refine ⟨fun j old hold => ?_, fun j other hother => ?_, fun other hother => ?_⟩
    · have hne : j ≠ id := by
        intro heq
        rw [heq, hnew] at hold
        cases hold
      exact hkeep j old (by rw [Dict.get?_set_ne _ _ hne, hold])
    · by_cases hj : j = id
      · subst hj
        rw [hself] at hother
        cases hother
        exact Or.inr ⟨hcatalogue, hkeyed, row, (.head _), hid, hrevision⟩
      · obtain hold | ⟨hcat, hrecord, source, hsource, hfields⟩ := hfrom j other hother
        · rw [Dict.get?_set_ne _ _ hj] at hold
          exact Or.inl hold
        · exact Or.inr ⟨hcat, hrecord, source, .tail _ hsource, hfields⟩
    · rw [List.mem_cons] at hother
      obtain rfl | hother := hother
      · exact ⟨id, record, hid, hself, hrevision⟩
      · exact hall other hother

variable {listing : Listing}

theorem readPage_ok {page : Json} (h : readPage p page = .ok listing) :
    page.get? "catalogue" = some listing.catalogue ∧
      page.get? "generation" = some (.str listing.generation) ∧
      (∃ text, page.get? "next_cursor" = some (.str text) ∧ listing.nextCursor = text) ∧
      ∃ rows, page.get? "rows" = some (.arr rows) ∧
        rows.foldlM (readRow p listing.catalogue) .empty = .ok listing.records := by
  unfold readPage at h
  simp only [bind_ok, require_ok, demand_ok, pure_ok, Option.filter_eq_some_iff,
    Option.bind_eq_some_iff] at h
  obtain ⟨catalogue, ⟨hcatalogue, -⟩, -, -, -, hgeneration, -, -, rows, ⟨value, hvalue, hrows⟩,
    nextCursor, ⟨text, htext, hcursor⟩, -, -, records, hrecords, rfl⟩ := h
  cases value <;> cases hrows
  cases text <;> cases hcursor
  exact ⟨hcatalogue, hgeneration, ⟨_, htext, rfl⟩, _, hvalue, hrecords⟩

/-! ### What is cached -/

/-- A publication is cached with its revision. -/
def Has (records : Dict String Record) (row : Publication) : Prop :=
  ∃ record, records.get? row.id = some record ∧ record.revision = row.revision

theorem get?_foldl_set (entries : List (String × Record)) (hnodup : (entries.map Prod.fst).Nodup)
    (d : Dict String Record) (id : String) :
    (entries.foldl (fun records e => records.set e.1 e.2) d).get? id =
      ((Dict.lookup id entries).orElse fun _ => d.get? id) := by
  induction entries generalizing d with
  | nil => rfl
  | cons e rest ih =>
    obtain ⟨k, record⟩ := e
    rw [List.map_cons, List.nodup_cons] at hnodup
    rw [List.foldl_cons, ih hnodup.2, Dict.get?_set]
    by_cases hid : k = id
    · subst hid
      have hnone : Dict.lookup k rest = none := Dict.lookup_eq_none_iff.mpr hnodup.1
      simp [Dict.lookup, hnone]
    · simp [Dict.lookup, hid, Ne.symm hid]

theorem get?_mergeRecords (prior : Dict String Record) (listing : Listing) (id : String) :
    (mergeRecords prior listing).get? id =
      ((listing.records.get? id).orElse fun _ => (prior.get? id).filter fun row =>
        listing.catalogue.get? id = some (.int row.revision)) := by
  unfold mergeRecords
  rw [get?_foldl_set _ listing.records.nodup, Dict.get?_filter]
  rfl

variable {prior : Dict String Record}

theorem merge_sound (hlisting : ∀ id record, listing.records.get? id = some record →
      listing.catalogue.get? id = some (.int record.revision)) {id : String} {record : Record}
    (h : (mergeRecords prior listing).get? id = some record) :
    listing.catalogue.get? id = some (.int record.revision) := by
  rw [get?_mergeRecords] at h
  cases hnew : listing.records.get? id with
  | some row =>
    rw [hnew] at h
    cases h
    exact hlisting id record hnew
  | none =>
    rw [hnew, Option.orElse_none, Option.filter_eq_some_iff] at h
    exact of_decide_eq_true h.2

theorem merge_keyed (hprior : ∀ id record, prior.get? id = some record → record.id = id)
    (hlisting : ∀ id record, listing.records.get? id = some record → record.id = id) {id : String}
    {record : Record} (h : (mergeRecords prior listing).get? id = some record) :
    record.id = id := by
  rw [get?_mergeRecords] at h
  cases hnew : listing.records.get? id with
  | some row =>
    rw [hnew] at h
    cases h
    exact hlisting id record hnew
  | none =>
    rw [hnew, Option.orElse_none, Option.filter_eq_some_iff] at h
    exact hprior id record h.1

theorem merge_has_new {row : Publication} (h : Has listing.records row) :
    Has (mergeRecords prior listing) row := by
  obtain ⟨record, hget, hrevision⟩ := h
  exact ⟨record, by rw [get?_mergeRecords, hget, Option.orElse_some], hrevision⟩

theorem merge_has_old {row : Publication}
    (hlisting : ∀ id record, listing.records.get? id = some record →
      listing.catalogue.get? id = some (.int record.revision))
    (hrow : listing.catalogue.get? row.id = some (.int row.revision)) (h : Has prior row) :
    Has (mergeRecords prior listing) row := by
  cases hnew : listing.records.get? row.id with
  | some record =>
    refine merge_has_new ⟨record, hnew, ?_⟩
    have hsame := hlisting row.id record hnew
    rw [hrow] at hsame
    simpa using hsame.symm
  | none =>
    obtain ⟨record, hget, hrevision⟩ := h
    refine ⟨record, ?_, hrevision⟩
    rw [get?_mergeRecords, hnew, Option.orElse_none, hget, Option.filter_some,
      if_pos (decide_eq_true (by rw [hrow, hrevision]))]

/-- What the publisher's page brings. -/
structure Brings (listing : Listing) (p : Platform) (rows : List Publication) (offset : Nat) :
    Prop where
  catalogue : listing.catalogue = catalogue rows
  generation : listing.generation = p.digest (Feed.catalogue rows)
  nextCursor : listing.nextCursor = cursorAt p rows (offset + 20)
  records : ∀ id record, listing.records.get? id = some record →
    listing.catalogue.get? id = some (.int record.revision)
  keyed : ∀ id record, listing.records.get? id = some record → record.id = id
  window : ∀ row ∈ (rows.drop offset).take 20, Has listing.records row

theorem readPage_made {rows : List Publication} {offset : Nat}
    (h : readPage p (pageOf p.toPlatform rows offset) = .ok listing) :
    Brings listing p.toPlatform rows offset := by
  obtain ⟨hcatalogue, hgeneration, ⟨text, htext, hcursor⟩, items, hitems, hfold⟩ := readPage_ok h
  unfold pageOf at hcatalogue hgeneration htext hitems
  simp only [Json.get?_object_cons, String.reduceEq, if_false, if_true, Option.some.injEq,
    Json.str.injEq, Json.arr.injEq] at hcatalogue hgeneration htext hitems
  obtain ⟨-, hfrom, hall⟩ := readRows_ok hfold
  have hrecords : ∀ id record, listing.records.get? id = some record →
      listing.catalogue.get? id = some (.int record.revision) ∧ record.id = id := by
    intro id record hget
    cases hfrom id record hget with
    | inl hempty => simp at hempty
    | inr hcat => exact ⟨hcat.1, hcat.2.1⟩
  refine ⟨hcatalogue.symm, hgeneration.symm, hcursor.trans htext.symm,
    fun id record hget => (hrecords id record hget).1,
    fun id record hget => (hrecords id record hget).2, fun row hrow => ?_⟩
  have hpeer : peerRow p.toPlatform row ∈ items := hitems ▸ List.mem_map_of_mem hrow
  obtain ⟨id, record, hid, hget, hrevision⟩ := hall _ hpeer
  simp only [peerRow, Json.get?_object_cons, String.reduceEq, if_false, if_true,
    Option.some.injEq, Json.str.injEq, Json.int.injEq, Nat.cast_inj] at hid hrevision
  exact ⟨record, hid ▸ hget, hrevision.symm⟩

end Feed
