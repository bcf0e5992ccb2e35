import Rynmesh.FriendFeedReader
import Rynmesh.FriendFeedPrivacy

/-!
# Cursors and catalogues

* `splitOn_join`: a text splits at the one separator in it;
* `readCursor_made`: a cursor that is accepted was made for the same catalogue, and says
  where to go on;
* `mem_catalogue`: what a catalogue says of each publication;
* `Past`: a publication that was permitted once is permitted still, or never again with
  its revision (`Past.change`);
* `rows_eq_of_catalogue`: catalogues of the past that are equal are of the same rows.
-/

namespace Feed

open Checked

/-! ### Splitting a text -/

open String in
theorem splitOnAux_char (c : Char) (l m r : List Char) (acc : List String) :
    splitOnAux (ofList (l ++ m ++ r)) (ofList [c]) ⟨utf8Len l⟩ ⟨utf8Len l + utf8Len m⟩ 0 acc =
      acc.reverse ++ (List.splitOnPPrepend (· == c) r m.reverse).map ofList := by
  induction r generalizing l m acc with
  | nil =>
    have hend : Pos.Raw.atEnd (ofList (l ++ m ++ [])) ⟨utf8Len l + utf8Len m⟩ = true := by
      rw [atEnd_iff, rawEndPos_ofList, Pos.Raw.mk_le_mk]
      simp
    rw [splitOnAux, if_pos hend, extract_of_valid]
    simp
  | cons d r ih =>
    have hget : Pos.Raw.get (ofList (l ++ m ++ d :: r)) ⟨utf8Len l + utf8Len m⟩ = d := by
      rw [← utf8Len_append]
      exact get_of_valid (l ++ m) (d :: r)
    have hnext : Pos.Raw.next (ofList (l ++ m ++ d :: r)) ⟨utf8Len l + utf8Len m⟩ =
        ⟨utf8Len l + utf8Len m + d.utf8Size⟩ := by
      rw [← utf8Len_append]
      exact next_of_valid (l ++ m) d r
    have hsep : (0 : Pos.Raw).get (ofList [c]) = c := get_of_valid [] [c]
    have hsepnext : (0 : Pos.Raw).next (ofList [c]) = ⟨c.utf8Size⟩ := by
      simpa using next_of_valid [] c []
    have hsepend : Pos.Raw.atEnd (ofList [c]) ⟨c.utf8Size⟩ = true := by
      rw [atEnd_iff, rawEndPos_ofList, Pos.Raw.mk_le_mk]
      simp
    have hend : ¬ Pos.Raw.atEnd (ofList (l ++ m ++ d :: r)) ⟨utf8Len l + utf8Len m⟩ = true := by
      rw [atEnd_iff, rawEndPos_ofList, Pos.Raw.mk_le_mk]
      have := d.utf8Size_pos
      simp only [utf8Len_append, utf8Len_cons]
      omega
    rw [splitOnAux, if_neg hend, hget, hsep, hnext, hsepnext]
    by_cases hd : d = c
    · subst hd
      have hback : (⟨utf8Len l + utf8Len m + d.utf8Size⟩ : Pos.Raw).unoffsetBy ⟨d.utf8Size⟩ =
          ⟨utf8Len l + utf8Len m⟩ := by
        ext
        simp
      have hlist : l ++ m ++ [d] ++ [] ++ r = l ++ m ++ d :: r := by simp
      have hsize : utf8Len (l ++ m ++ [d]) = utf8Len l + utf8Len m + d.utf8Size := by
        simp [Nat.add_assoc]
      have h := ih (l ++ m ++ [d]) [] (ofList m :: acc)
      rw [hlist, hsize] at h
      rw [if_pos (beq_self_eq_true d), if_pos hsepend, hback, extract_of_valid,
        List.splitOnPPrepend_cons_pos (p := fun x => x == d) (beq_self_eq_true d)]
      simpa using h
    · have hlist : l ++ (m ++ [d]) ++ r = l ++ m ++ d :: r := by simp
      have hsize : utf8Len l + utf8Len (m ++ [d]) = utf8Len l + utf8Len m + d.utf8Size := by
        simp [Nat.add_assoc]
      have hback : (⟨utf8Len l + utf8Len m⟩ : Pos.Raw).unoffsetBy 0 =
          ⟨utf8Len l + utf8Len m⟩ := by
        ext
        simp
      have h := ih l (m ++ [d]) acc
      rw [hlist, hsize] at h
      rw [if_neg (by simpa using hd), hback, hnext, h,
        List.splitOnPPrepend_cons_neg (p := fun x => x == c) (by simpa using hd)]
      simp

open String in
theorem splitOn_char (c : Char) (text : String) :
    text.splitOn (ofList [c]) = (List.splitOnP (· == c) text.toList).map ofList := by
  have h := splitOnAux_char c [] [] text.toList []
  have hne : (ofList [c] == "") = false := by simp
  rw [splitOn, hne, if_neg (by simp)]
  simpa using h

/-- A text of two parts is split where they were joined. -/
theorem splitOn_join {c : Char} {a b : List Char} (ha : c ∉ a) (hb : c ∉ b) :
    (String.ofList (a ++ c :: b)).splitOn (String.ofList [c]) =
      [String.ofList a, String.ofList b] := by
  have hne : ∀ l : List Char, c ∉ l → ∀ d ∈ l, (d == c) = false := by
    intro l hl d hd
    exact beq_eq_false_iff_ne.mpr fun h => hl (h ▸ hd)
  rw [splitOn_char, String.toList_ofList,
    List.splitOnP_append_cons (p := fun d => d == c) _ _ (beq_self_eq_true c),
    List.splitOnP_eq_singleton (hne a ha), List.splitOnP_eq_singleton (hne b hb)]
  rfl

/-! ### What is relied on -/

/-- A digest has no colon and tells the catalogue; `int` reads back what was written. -/
structure Platform.Faithful (p : Platform) : Prop where
  colon : ∀ value, ':' ∉ (p.digest value).toList
  catalogue : ∀ rows others, p.digest (Feed.catalogue rows) = p.digest (Feed.catalogue others) →
    Feed.catalogue rows = Feed.catalogue others
  int : ∀ n : Nat, p.int (toString n) = some (n : Int)

theorem notMem_toString (n : Nat) : ':' ∉ (toString n).toList := by
  intro h
  rw [Nat.toString_eq_repr, Nat.toList_repr] at h
  exact absurd (Nat.isDigit_of_mem_toDigits (by decide) (by decide) h) (by decide)

/-- The cursor of an offset in the rows that a friend was shown. -/
def cursorAt (p : Platform) (rows : List Publication) (offset : Nat) : String :=
  if offset < rows.length then p.digest (catalogue rows) ++ ":" ++ toString offset else ""

variable {p : Platform} {rows : List Publication}

/-- A cursor that is accepted was made for this catalogue, and is read as it was made. -/
theorem readCursor_made (hp : p.Faithful) {others : List Publication} {offset start : Nat}
    (hne : cursorAt p rows offset ≠ "")
    (h : readCursor p (p.digest (catalogue others)) others.length (.str (cursorAt p rows offset)) =
      .ok start) : catalogue rows = catalogue others ∧ start = offset := by
  unfold cursorAt at h hne
  split at h
  · have hsplit : (p.digest (catalogue rows) ++ ":" ++ toString offset).splitOn ":" =
        [p.digest (catalogue rows), toString offset] := by
      have hjoin := splitOn_join (hp.colon (catalogue rows)) (notMem_toString offset)
      have htext : String.ofList ((p.digest (catalogue rows)).toList ++
          ':' :: (toString offset).toList) =
            p.digest (catalogue rows) ++ ":" ++ toString offset := by
        rw [← String.toList_inj]
        simp
      rw [htext, String.ofList_toList, String.ofList_toList] at hjoin
      exact hjoin
    have htruthy : (Json.str (p.digest (catalogue rows) ++ ":" ++ toString offset)).truthy ≠
        false := by
      simp [Json.truthy]
    unfold readCursor at h
    rw [if_neg htruthy] at h
    simp only [Json.asStr?, Option.map_some, hsplit, hp.int, demand_some, ok_bind, bind_ok,
      require_ok, pure_ok] at h
    obtain ⟨-, hsame, -, -, rfl⟩ := h
    exact ⟨hp.catalogue _ _ hsame, Int.toNat_natCast offset⟩
  · rename_i hge
    exact absurd (if_neg hge) hne

/-! ### Catalogues -/

variable {id : String}

theorem get?_catalogue (hnodup : (rows.map Publication.id).Nodup) {value : Json} :
    (catalogue rows).get? id = some value ↔
      ∃ row ∈ rows, row.id = id ∧ value = .int row.revision := by
  unfold catalogue
  induction rows with
  | nil => simp
  | cons row rest ih =>
    rw [List.map_cons, List.nodup_cons] at hnodup
    rw [List.map_cons, Json.get?_object_cons]
    split
    · rename_i heq
      rw [heq]
      constructor
      · intro h
        exact ⟨row, (.head _), rfl, (Option.some.inj h).symm⟩
      · rintro ⟨other, hother, hid, rfl⟩
        cases hother with
        | head => rfl
        | tail _ hmem => exact absurd (hid ▸ List.mem_map_of_mem hmem) hnodup.1
    · rename_i hne
      rw [ih hnodup.2]
      constructor
      · rintro ⟨other, hother, hrest⟩
        exact ⟨other, .tail _ hother, hrest⟩
      · rintro ⟨other, hother, hid, hrest⟩
        cases hother with
        | head => exact absurd hid.symm hne
        | tail _ hmem => exact ⟨other, hmem, hid, hrest⟩

/-- The rows of a page: sorted, each identifier once. -/
structure Listed (rows : List Publication) : Prop where
  nodup : (rows.map Publication.id).Nodup
  sorted : rows.Pairwise Publication.before

theorem listed_permittedRows (node : Node) (rid : String) :
    Listed ((node.permittedRows rid).insertionSort Publication.before) := by
  refine ⟨?_, List.pairwise_insertionSort _ _⟩
  rw [((List.perm_insertionSort Publication.before _).map Publication.id).nodup_iff]
  exact node.permittedRows_ids_nodup rid

/-- Two listings of the same publications are the same list. -/
theorem Listed.eq {others : List Publication} (h : Listed rows) (hothers : Listed others)
    (hmem : ∀ row, row ∈ rows ↔ row ∈ others) : rows = others := by
  have hperm : rows.Perm others :=
    (List.perm_ext_iff_of_nodup (List.Nodup.of_map _ h.nodup)
      (List.Nodup.of_map _ hothers.nodup)).mpr hmem
  refine List.Perm.eq_of_pairwise (fun a b ha hb hab hba => ?_) h.sorted hothers.sorted hperm
  exact List.inj_on_of_nodup_map h.nodup ha ((hmem b).mpr hb) (before_antisymm hab hba)

/-- What a page is made of. -/
def Node.shownRows (node : Node) (rid : String) : List Publication :=
  (node.permittedRows rid).insertionSort Publication.before

variable {node : Node}

/-- What is shown is what is visible. -/
theorem Node.mem_shownRows {rid : String} {row : Publication} :
    row ∈ node.shownRows rid ↔ node.visible rid row.id = some row := by
  unfold Node.shownRows
  rw [List.mem_insertionSort, Node.mem_permittedRows]
  constructor
  · rintro ⟨id, hid⟩
    rwa [Node.visible_id hid]
  · exact fun h => ⟨row.id, h⟩

/-! ### What an edit does -/

/-- No publication is ahead of its row. -/
def Numbered (node : Node) : Prop :=
  ∀ id row publication, node.feed.rows.get? id = some row → row.published = some publication →
    publication.revision ≤ row.revision

theorem Edit.apply_revision {row row' : Row} {edit : Edit}
    (h : edit.apply p node id row = .ok row') :
    row'.revision = row.revision := by
  cases edit with
  | saveDraft value =>
    obtain rfl := pure_ok.mp h
    rfl
  | publish confirmAllFriends now =>
    simp only [Edit.apply, bind_ok, pure_ok] at h
    obtain ⟨draft, -, audience, -, -, -, -, -, rfl⟩ := h
    rfl
  | stop =>
    simp only [Edit.apply, bind_ok, pure_ok] at h
    obtain ⟨-, -, rfl⟩ := h
    rfl

/-- A row is published under its revision, or as before. -/
theorem Edit.apply_published {row row' : Row} {edit : Edit}
    (h : edit.apply p node id row = .ok row') {publication : Publication}
    (hpublished : row'.published = some publication) :
    publication.revision = row.revision ∨ row.published = some publication := by
  cases edit with
  | saveDraft value =>
    obtain rfl := pure_ok.mp h
    exact Or.inr hpublished
  | publish confirmAllFriends now =>
    simp only [Edit.apply, bind_ok, pure_ok] at h
    obtain ⟨draft, -, audience, -, -, -, -, -, rfl⟩ := h
    cases hpublished
    exact Or.inl rfl
  | stop =>
    simp only [Edit.apply, bind_ok, pure_ok] at h
    obtain ⟨-, -, rfl⟩ := h
    exact Or.inr hpublished

theorem Edit.apply_permitted {rid : String} {row row' : Row} {edit : Edit}
    (h : edit.apply p node id row = .ok row') {publication : Publication}
    (hpermitted : row'.permitted rid = some publication) :
    publication.revision = row.revision ∨ row.permitted rid = some publication := by
  cases edit with
  | saveDraft value =>
    obtain rfl := pure_ok.mp h
    exact Or.inr hpermitted
  | publish confirmAllFriends now =>
    have hpublished := Row.permitted_some hpermitted
    simp only [Edit.apply, bind_ok, pure_ok] at h
    obtain ⟨draft, -, audience, -, -, -, -, -, rfl⟩ := h
    cases hpublished
    exact Or.inl rfl
  | stop =>
    simp only [Edit.apply, bind_ok, pure_ok] at h
    obtain ⟨-, -, rfl⟩ := h
    unfold Row.permitted at hpermitted
    split at hpermitted <;> simp at hpermitted

/-- What a change does to the row it is about. -/
structure Changed (node node' : Node) (id : String) (previous : Row) : Prop where
  before : node.feed.rows.get? id = some previous ∨
    node.feed.rows.get? id = none ∧ previous = Row.fresh id
  after : ∃ row, node'.feed.rows.get? id = some row ∧ row.revision = previous.revision + 1
  published : ∀ row publication, node'.feed.rows.get? id = some row →
    row.published = some publication →
      publication.revision = previous.revision + 1 ∨ previous.published = some publication
  permitted : ∀ rid publication, node'.visible rid id = some publication →
    publication.revision = previous.revision + 1 ∨ node.visible rid id = some publication
  others : ∀ j, j ≠ id → node'.feed.rows.get? j = node.feed.rows.get? j

variable {previous : Row}

theorem changed_put {operationId operationDigest : String} {row : Row} {edit : Edit}
    (hbefore : node.feed.rows.get? id = some previous ∨
      node.feed.rows.get? id = none ∧ previous = Row.fresh id)
    (happly : edit.apply p node id (previous.revised previous.revision) = .ok row)
    (hrow : (row.signed operationId operationDigest).Keyed id)
    (hroom : id ∈ node.feed.rows.keys ∨ node.feed.rows.entries.length < maxPublications) :
    Changed node
      { node with
        feed := node.feed.put id (row.signed operationId operationDigest) hrow hroom }
      id previous := by
  have hget : (node.feed.put id (row.signed operationId operationDigest) hrow hroom).rows.get? id =
      some (row.signed operationId operationDigest) := Dict.get?_set_self _ _ _
  refine ⟨hbefore, ⟨_, hget, Edit.apply_revision happly⟩, ?_, ?_, ?_⟩
  · intro other publication hother hpublished
    rw [hget] at hother
    cases hother
    exact Edit.apply_published happly hpublished
  · intro rid publication hvisible
    unfold Node.visible at hvisible ⊢
    rw [hget, Option.bind_some] at hvisible
    refine (Edit.apply_permitted happly hvisible).imp_right fun hold => ?_
    cases hbefore with
    | inl hsome =>
      rw [hsome]
      exact hold
    | inr hnone =>
      rw [hnone.2] at hold
      cases hold
  · exact fun j hj => Dict.get?_set_ne _ _ hj

/-- What a change that succeeds leaves. -/
theorem Node.change_ok {node' : Node} {operationId : String} {expectedRevision : Nat}
    {request : Json} {edit : Edit} {row : Row}
    (h : node.change p id operationId expectedRevision request edit = .ok (node', row)) :
    node' = node ∨ ∃ previous, Changed node node' id previous := by
  simp only [Node.change, bind_ok] at h
  obtain ⟨id', hid, operationId', -, -, -, h⟩ := h
  have hsame : some id = some id' := identity_ok hid
  obtain rfl := Option.some.inj hsame
  split at h
  · next previous hprevious =>
    split at h
    · simp only [bind_ok] at h
      obtain ⟨-, -, h⟩ := h
      exact Or.inl (Prod.mk.inj (pure_ok.mp h)).1.symm
    · simp only [bind_ok, require_ok] at h
      obtain ⟨-, rfl, h⟩ := h
      split at h
      · cases h
      · next happly =>
        obtain ⟨rfl, _⟩ := Prod.mk.inj (pure_ok.mp h)
        exact Or.inr ⟨previous, changed_put (.inl hprevious) happly _ _⟩
  · next hprevious =>
    simp only [bind_ok, require_ok] at h
    obtain ⟨-, rfl, h⟩ := h
    split at h
    · split at h
      · cases h
      · next happly =>
        obtain ⟨rfl, _⟩ := Prod.mk.inj (pure_ok.mp h)
        exact Or.inr ⟨_, changed_put (.inr ⟨hprevious, rfl⟩) happly _ _⟩
    · cases h

/-- A change keeps the revisions in order. -/
theorem Changed.numbered {node' : Node} (h : Changed node node' id previous)
    (hnode : Numbered node) :
    Numbered node' := by
  intro j row publication hget hpublished
  by_cases hj : j = id
  · subst hj
    obtain ⟨after, hafter, hrevision⟩ := h.after
    rw [hget] at hafter
    cases hafter
    have hold : ∀ publication, previous.published = some publication →
        publication.revision ≤ previous.revision := by
      intro publication hpublished
      cases h.before with
      | inl hsome => exact hnode _ _ _ hsome hpublished
      | inr hnone =>
        rw [hnone.2] at hpublished
        cases hpublished
    cases h.published row publication hget hpublished with
    | inl hnew => omega
    | inr hsame =>
      have hle := hold publication hsame
      omega
  · rw [h.others j hj] at hget
    exact hnode j row publication hget hpublished

/-! ### Publications of the past -/

section Past

variable {rid : String} {row : Publication} {node node' : Node}

/-- A publication that a friend will never be shown again. -/
structure Gone (node : Node) (rid : String) (row : Publication) : Prop where
  numbered : ∃ current, node.feed.rows.get? row.id = some current ∧ row.revision ≤ current.revision
  unseen : ∀ other, node.visible rid row.id = some other → other.revision ≠ row.revision

/-- A publication that a friend was shown. -/
def Past (node : Node) (rid : String) (row : Publication) : Prop :=
  node.visible rid row.id = some row ∨ Gone node rid row

/-- What was withdrawn stays withdrawn. -/
theorem Changed.gone (h : Changed node node' id previous) (hrow : Gone node rid row) :
    Gone node' rid row := by
  obtain ⟨current, hcurrent, hle⟩ := hrow.numbered
  by_cases hid : row.id = id
  · have hprevious : previous = current := by
      rw [hid] at hcurrent
      cases h.before with
      | inl hsome =>
        rw [hcurrent] at hsome
        exact (Option.some.inj hsome).symm
      | inr hnone =>
        rw [hcurrent] at hnone
        cases hnone.1
    subst hprevious
    obtain ⟨after, hafter, hrevision⟩ := h.after
    refine ⟨⟨after, hid ▸ hafter, by omega⟩, fun other hother => ?_⟩
    rw [hid] at hother
    cases h.permitted rid other hother with
    | inl hnew => omega
    | inr hsame => exact hrow.unseen other (hid ▸ hsame)
  · have hrows := h.others row.id hid
    refine ⟨⟨current, hrows ▸ hcurrent, hle⟩, fun other hother => ?_⟩
    unfold Node.visible at hother
    rw [hrows] at hother
    exact hrow.unseen other hother

/-- A publication of the past stays one. -/
theorem Changed.past (h : Changed node node' id previous) (hnode : Numbered node)
    (hrow : Past node rid row) : Past node' rid row := by
  cases hrow with
  | inr hgone => exact Or.inr (h.gone hgone)
  | inl hvisible =>
    by_cases hid : row.id = id
    · by_cases hstill : node'.visible rid row.id = some row
      · exact Or.inl hstill
      right
      obtain ⟨current, hcurrent, hpermitted⟩ := Option.bind_eq_some_iff.mp hvisible
      have hle := hnode _ _ _ hcurrent (Row.permitted_some hpermitted)
      have hprevious : previous = current := by
        rw [hid] at hcurrent
        cases h.before with
        | inl hsome =>
          rw [hcurrent] at hsome
          exact (Option.some.inj hsome).symm
        | inr hnone =>
          rw [hcurrent] at hnone
          cases hnone.1
      subst hprevious
      obtain ⟨after, hafter, hrevision⟩ := h.after
      refine ⟨⟨after, hid ▸ hafter, by omega⟩, fun other hother => ?_⟩
      cases h.permitted rid other (hid ▸ hother) with
      | inl hnew => omega
      | inr hsame =>
        rw [← hid, hvisible] at hsame
        cases hsame
        exact absurd hother hstill
    · left
      unfold Node.visible at hvisible ⊢
      rw [h.others row.id hid]
      exact hvisible

theorem gone_of_feed (h : node'.feed = node.feed) (hrow : Gone node rid row) :
    Gone node' rid row := by
  obtain ⟨hnumbered, hunseen⟩ := hrow
  refine ⟨by rwa [h], fun other hother => hunseen other ?_⟩
  unfold Node.visible at hother ⊢
  rwa [h] at hother

theorem past_of_feed (h : node'.feed = node.feed) (hrow : Past node rid row) :
    Past node' rid row := by
  refine hrow.imp (fun hvisible => ?_) (gone_of_feed h)
  unfold Node.visible at hvisible ⊢
  rwa [h]

theorem Past.eq_of_shown {other : Publication} (h : Past node rid row)
    (hother : other ∈ node.shownRows rid) (hid : other.id = row.id)
    (hrevision : other.revision = row.revision) : row = other := by
  have hvisible := Node.mem_shownRows.mp hother
  rw [hid] at hvisible
  cases h with
  | inl hrow =>
    rw [hrow] at hvisible
    exact Option.some.inj hvisible
  | inr hgone => exact absurd hrevision (hgone.unseen other hvisible)

/-- Equal catalogues have equal rows: a revision is never used twice. -/
theorem rows_eq_of_catalogue (hrows : Listed rows) (hpast : ∀ row ∈ rows, Past node rid row)
    (h : catalogue rows = catalogue (node.shownRows rid)) : rows = node.shownRows rid := by
  have hshown : Listed (node.shownRows rid) := listed_permittedRows node rid
  refine hrows.eq hshown fun row => ?_
  constructor
  · intro hmem
    have hget := (get?_catalogue hrows.nodup).mpr ⟨row, hmem, rfl, rfl⟩
    rw [h, get?_catalogue hshown.nodup] at hget
    obtain ⟨other, hother, hid, hrevision⟩ := hget
    rw [(hpast row hmem).eq_of_shown hother hid (by simpa using hrevision.symm)]
    exact hother
  · intro hmem
    have hget := (get?_catalogue hshown.nodup).mpr ⟨row, hmem, rfl, rfl⟩
    rw [← h, get?_catalogue hrows.nodup] at hget
    obtain ⟨other, hother, hid, hrevision⟩ := hget
    rw [← (hpast other hother).eq_of_shown hmem hid.symm (by simpa using hrevision)]
    exact hother

end Past

end Feed
