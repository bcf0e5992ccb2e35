import Rynmesh.FriendFeedPaging

/-!
# The cached feed is consistent

* `View` is what matters of a publisher and a receiver for one friendship;
* `Inv` is what holds of it, with the pages that the receiver was shown (`Shot`);
* `Inv.moves` is a step of the publisher, and `Inv.remark`, `Inv.begin`, `Inv.answer`,
  `Inv.fails` and `Inv.lands` are those of a subscription and its refreshes.
-/

namespace Feed

open Checked

variable {p : ReaderPlatform} {rid : String}

/-- What a ticket is compared with. -/
structure Mark where
  enabled : Bool
  revision : Nat
  sequence : Nat

def Subscription.mark (row : Subscription) : Mark :=
  ⟨row.enabled, row.revision, row.refreshSequence⟩

/-- A publisher and a receiver, for one friendship. -/
structure View where
  publisher : Node
  mark : Option Mark
  inbox : Option Inbox
  flights : Dict Nat Flight
  begun : Nat
  stored : List String

def World.view (rid : String) (w : World) : View where
  publisher := w.publisher
  mark := (w.reader.subscriptions.get? rid).map Subscription.mark
  inbox := w.reader.inbox.get? rid
  flights := w.flights
  begun := w.begun
  stored := w.stored

def View.cached (v : View) : Dict String Record := (v.inbox.map Inbox.records).getD .empty

/-- A ticket that no later refresh or change has superseded. -/
def View.Newest (v : View) (ticket : Ticket) : Prop :=
  v.mark = some ⟨true, ticket.revision, ticket.sequence⟩

/-! ### The invariant -/

/-- Rows that the receiver was shown up to an offset. -/
structure Shot where
  rows : List Publication
  offset : Nat

def Shot.cursor (p : Platform) (shot : Shot) : String := cursorAt p shot.rows shot.offset

/-- An inbox that stands at a shot. -/
structure Current (p : Platform) (shot : Shot) (inbox : Inbox) : Prop where
  generation : inbox.generation = p.digest (catalogue shot.rows)
  nextCursor : inbox.nextCursor = shot.cursor p
  has : ∀ row ∈ shot.rows.take shot.offset, Has inbox.records row
  sound : ∀ id record, inbox.records.get? id = some record →
    (catalogue shot.rows).get? id = some (.int record.revision)
  keyed : ∀ id record, inbox.records.get? id = some record → record.id = id

/-- A page under way, which the publisher made of its rows at some time since the refresh
began. -/
structure Answered (p : Platform) (rid : String) (v : View) (shots : List Shot) (flight : Flight)
    (page : Json) (rows : List Publication) (offset : Nat) : Prop where
  page : page = pageOf p rows offset
  listed : Listed rows
  past : ∀ row ∈ rows, Past v.publisher rid row
  first : flight.cursor = "" → offset = 0
  known : v.Newest flight.ticket → ∀ shot ∈ shots, ∀ row ∈ shot.rows,
    row ∈ rows ∨ Gone v.publisher rid row
  same : v.Newest flight.ticket → ∀ shot ∈ shots, catalogue shot.rows = catalogue rows →
    shot.rows = rows
  has : v.Newest flight.ticket → ∀ shot ∈ shots, shot.rows = rows →
    ∀ row ∈ shot.rows.take shot.offset, Has v.cached row
  later : v.Newest flight.ticket → flight.cursor ≠ "" →
    ∃ shot ∈ shots, shot.rows = rows ∧ shot.offset = offset

/-- What holds of a publisher and a receiver. -/
structure Inv (p : Platform) (rid : String) (shots : List Shot) (v : View) : Prop where
  numbered : Numbered v.publisher
  shown : ∀ shot ∈ shots, Listed shot.rows ∧ ∀ row ∈ shot.rows, Past v.publisher rid row
  kept : ∀ shot ∈ shots, ∀ row ∈ shot.rows.take shot.offset,
    Has v.cached row ∨ Gone v.publisher rid row
  stored : ∀ cursor ∈ v.stored, ∃ shot ∈ shots, shot.cursor p = cursor
  inbox : ∀ inbox, v.inbox = some inbox → ∃ shot ∈ shots, Current p shot inbox
  enabled : ∀ inbox, v.inbox = some inbox → ∃ mark, v.mark = some mark ∧ mark.enabled = true
  tickets : ∀ n flight, v.flights.get? n = some flight → n < v.begun ∧
    ∃ mark, v.mark = some mark ∧ flight.ticket.sequence ≤ mark.sequence ∧
      flight.ticket.revision ≤ mark.revision ∧
      (flight.ticket.revision = mark.revision → mark.enabled = true)
  distinct : ∀ n m flight other, v.flights.get? n = some flight → v.flights.get? m = some other →
    flight.ticket.sequence = other.ticket.sequence → n = m
  asked : ∀ n flight, v.flights.get? n = some flight → v.Newest flight.ticket →
    flight.cursor ≠ "" → ∃ shot ∈ shots, shot.cursor p = flight.cursor
  answered : ∀ n flight page, v.flights.get? n = some flight → flight.page = some page →
    ∃ rows offset, Answered p rid v shots flight page rows offset

/-- What a publisher forgets of a friend's past: nothing. -/
structure Moves (rid : String) (node node' : Node) : Prop where
  numbered : Numbered node'
  past : ∀ row, Past node rid row → Past node' rid row
  gone : ∀ row, Gone node rid row → Gone node' rid row

variable {p : Platform} {v : View} {shots : List Shot}

theorem Inv.moves (h : Inv p rid shots v) {node : Node} (hmoves : Moves rid v.publisher node) :
    Inv p rid shots { v with publisher := node } := by
  refine ⟨hmoves.numbered, fun shot hshot => ?_, fun shot hshot row hrow => ?_, h.stored, h.inbox,
    h.enabled, h.tickets, h.distinct, h.asked, fun n flight page hflight hpage => ?_⟩
  · exact ⟨(h.shown shot hshot).1, fun row hrow => hmoves.past row
      ((h.shown shot hshot).2 row hrow)⟩
  · exact (h.kept shot hshot row hrow).imp_right (hmoves.gone row)
  · obtain ⟨rows, offset, ha⟩ := h.answered n flight page hflight hpage
    refine ⟨rows, offset, ha.page, ha.listed, fun row hrow => hmoves.past row (ha.past row hrow),
      ha.first, fun hnewest shot hshot row hrow => ?_, ha.same, ha.has, ha.later⟩
    exact (ha.known hnewest shot hshot row hrow).imp_right (hmoves.gone row)

theorem moves_change {node node' : Node} {id operationId : String} {expectedRevision : Nat}
    {request : Json} {edit : Edit} {row : Row} (hnode : Numbered node)
    (h : node.change p id operationId expectedRevision request edit = .ok (node', row)) :
    Moves rid node node' := by
  obtain rfl | ⟨previous, hchanged⟩ := Node.change_ok h
  · exact ⟨hnode, fun _ hrow => hrow, fun _ hrow => hrow⟩
  · exact ⟨hchanged.numbered hnode, fun _ hrow => hchanged.past hnode hrow,
      fun _ hrow => hchanged.gone hrow⟩

theorem moves_surroundings {node node' : Node} (hnode : Numbered node)
    (h : node'.feed = node.feed) : Moves rid node node' := by
  refine ⟨?_, fun _ hrow => past_of_feed h hrow, fun _ hrow => gone_of_feed h hrow⟩
  unfold Numbered
  rw [h]
  exact hnode

/-- A page of a refresh that is not the newest any more. -/
theorem Answered.of_not_newest {v' : View} {shots' : List Shot} {flight : Flight} {page : Json}
    {rows : List Publication} {offset : Nat}
    (h : Answered p rid v shots flight page rows offset) (hpublisher : v'.publisher = v.publisher)
    (hnot : ¬ v'.Newest flight.ticket) : Answered p rid v' shots' flight page rows offset where
  page := h.page
  listed := h.listed
  past := hpublisher ▸ h.past
  first := h.first
  known hmark := absurd hmark hnot
  same hmark := absurd hmark hnot
  has hmark := absurd hmark hnot
  later hmark := absurd hmark hnot

/-! ### A change of the subscription -/

/-- A change with a new revision: no refresh under way is the newest any more. -/
theorem Inv.remark (h : Inv p rid shots v) {mark : Mark}
    (hrevision : ∀ old, v.mark = some old → old.revision < mark.revision)
    (hsequence : ∀ old, v.mark = some old → old.sequence ≤ mark.sequence) :
    Inv p rid (if mark.enabled = true then shots else []) { v with
        mark := some mark
        inbox := if mark.enabled = true then v.inbox else none
        stored := if mark.enabled = true then v.stored else [] } := by
  have hnone : ∀ n flight, v.flights.get? n = some flight →
      flight.ticket.revision < mark.revision ∧ flight.ticket.sequence ≤ mark.sequence := by
    intro n flight hflight
    obtain ⟨-, old, hold, hseq, hrev, -⟩ := h.tickets n flight hflight
    exact ⟨hrev.trans_lt (hrevision old hold), hseq.trans (hsequence old hold)⟩
  have htickets : ∀ n flight, v.flights.get? n = some flight → n < v.begun ∧
      ∃ current, some mark = some current ∧ flight.ticket.sequence ≤ current.sequence ∧
        flight.ticket.revision ≤ current.revision ∧
        (flight.ticket.revision = current.revision → current.enabled = true) := by
    intro n flight hflight
    obtain ⟨hrev, hseq⟩ := hnone n flight hflight
    exact ⟨(h.tickets n flight hflight).1, mark, rfl, hseq, hrev.le,
      fun heq => absurd heq hrev.ne⟩
  have hnewest : ∀ n flight, v.flights.get? n = some flight →
      some mark ≠ some ⟨true, flight.ticket.revision, flight.ticket.sequence⟩ := by
    intro n flight hflight heq
    have hlt := (hnone n flight hflight).1
    rw [Option.some.inj heq] at hlt
    exact lt_irrefl _ hlt
  cases hon : mark.enabled with
  | true =>
    refine ⟨h.numbered, h.shown, h.kept, h.stored, h.inbox, fun _ _ => ⟨mark, rfl, hon⟩, htickets,
      h.distinct, fun n flight hflight hmark => absurd hmark (hnewest n flight hflight),
      fun n flight page hflight hpage => ?_⟩
    obtain ⟨rows, offset, ha⟩ := h.answered n flight page hflight hpage
    exact ⟨rows, offset, ha.of_not_newest rfl (hnewest n flight hflight)⟩
  | false =>
    refine ⟨h.numbered, by simp, by simp, by simp, by simp, by simp, htickets, h.distinct,
      fun n flight hflight hmark => absurd hmark (hnewest n flight hflight),
      fun n flight page hflight hpage => ?_⟩
    obtain ⟨rows, offset, ha⟩ := h.answered n flight page hflight hpage
    exact ⟨rows, offset, ha.of_not_newest rfl (hnewest n flight hflight)⟩

/-! ### The start of a refresh -/

theorem Inv.begin (h : Inv p rid shots v) {revision sequence : Nat}
    (hmark : v.mark = some ⟨true, revision, sequence⟩) (relationship : Relationship)
    {cursor : String} (hcursor : cursor = "" ∨ cursor ∈ v.stored) :
    Inv p rid shots { v with
      mark := some ⟨true, revision, sequence + 1⟩
      flights := v.flights.set v.begun ⟨⟨relationship, revision, sequence + 1⟩, cursor, none⟩
      begun := v.begun + 1 } := by
  have hold : ∀ n flight, v.flights.get? n = some flight →
      flight.ticket.sequence ≤ sequence ∧ flight.ticket.revision ≤ revision := by
    intro n flight hflight
    obtain ⟨-, mark, hsome, hseq, hrev, -⟩ := h.tickets n flight hflight
    rw [hmark] at hsome
    cases hsome
    exact ⟨hseq, hrev⟩
  refine ⟨h.numbered, h.shown, h.kept, h.stored, h.inbox, fun _ _ => ⟨_, rfl, rfl⟩, ?_, ?_, ?_, ?_⟩
  · refine Dict.forall_get?_set ⟨Nat.lt_succ_self _, _, rfl, le_rfl, le_rfl, fun _ => rfl⟩ ?_
    intro n flight hflight
    obtain ⟨hseq, hrev⟩ := hold n flight hflight
    exact ⟨(h.tickets n flight hflight).1.trans (Nat.lt_succ_self _), _, rfl,
      Nat.le_succ_of_le hseq, hrev, fun _ => rfl⟩
  · intro n m flight other hflight hother hsame
    rw [Dict.get?_set] at hflight hother
    split at hflight <;> split at hother
    · omega
    · cases hflight
      have hle := (hold m other hother).1
      simp only at hsame
      omega
    · cases hother
      have hle := (hold n flight hflight).1
      simp only at hsame
      omega
    · exact h.distinct n m flight other hflight hother hsame
  · intro n flight hflight hnewest hne
    rw [Dict.get?_set] at hflight
    split at hflight
    · cases hflight
      exact h.stored cursor (hcursor.resolve_left hne)
    · have hle := (hold n flight hflight).1
      have hseq := congrArg Mark.sequence (Option.some.inj hnewest)
      simp only at hseq
      omega
  · intro n flight page hflight hpage
    rw [Dict.get?_set] at hflight
    split at hflight
    · cases hflight
      cases hpage
    · have hle := (hold n flight hflight).1
      obtain ⟨rows, offset, ha⟩ := h.answered n flight page hflight hpage
      refine ⟨rows, offset, ha.of_not_newest rfl fun hmark => ?_⟩
      have hseq := congrArg Mark.sequence (Option.some.inj hmark)
      simp only at hseq
      omega

/-! ### The publisher's page -/

variable {flight : Flight}

variable {page : Json} {rows : List Publication}

theorem Answered.of_same {v' : View} {offset : Nat}
    (h : Answered p rid v shots flight page rows offset) (hpublisher : v'.publisher = v.publisher)
    (hmark : v'.mark = v.mark) (hinbox : v'.inbox = v.inbox) :
    Answered p rid v' shots flight page rows offset := by
  have hcached : v'.cached = v.cached := by
    unfold View.cached
    rw [hinbox]
  have hnewest : v'.Newest flight.ticket → v.Newest flight.ticket := by
    intro h
    unfold View.Newest at h ⊢
    rw [← hmark, h]
  refine ⟨h.page, h.listed, ?_, h.first, fun hn => ?_, fun hn => h.same (hnewest hn), fun hn => ?_,
    fun hn => h.later (hnewest hn)⟩
  · rw [hpublisher]
    exact h.past
  · rw [hpublisher]
    exact h.known (hnewest hn)
  · rw [hcached]
    exact h.has (hnewest hn)

theorem Inv.answered_now (hp : p.Faithful) (h : Inv p rid shots v) {n : Nat}
    (hflight : v.flights.get? n = some flight) {friend : Relationship}
    (hrid : friend.relationshipId = rid)
    (hpage : v.publisher.page p friend (.str flight.cursor) = .ok page) :
    ∃ offset, Answered p rid v shots flight page (v.publisher.shownRows rid) offset := by
  obtain ⟨offset, hoffset, rfl⟩ := Node.page_ok hpage
  rw [hrid] at hoffset ⊢
  have hsame : ∀ shot ∈ shots, catalogue shot.rows = catalogue (v.publisher.shownRows rid) →
      shot.rows = v.publisher.shownRows rid := by
    intro shot hshot heq
    obtain ⟨hlisted, hpast⟩ := h.shown shot hshot
    exact rows_eq_of_catalogue hlisted hpast heq
  refine ⟨offset, rfl, listed_permittedRows _ _, fun row hrow => ?_, fun hempty => ?_,
    fun _ shot hshot row hrow => ?_, fun _ => hsame, fun _ shot hshot heq row hrow => ?_,
    fun hnewest hne => ?_⟩
  · exact Or.inl (Node.mem_shownRows.mp hrow)
  · rw [hempty] at hoffset
    exact (pure_ok.mp hoffset).symm
  · exact ((h.shown shot hshot).2 row hrow).imp_left Node.mem_shownRows.mpr
  · have hvisible := Node.mem_shownRows.mp (heq ▸ List.mem_of_mem_take hrow)
    cases h.kept shot hshot row hrow with
    | inl hhas => exact hhas
    | inr hgone => exact absurd rfl (hgone.unseen row hvisible)
  · obtain ⟨shot, hshot, hcursor⟩ := h.asked n flight hflight hnewest hne
    rw [← hcursor] at hoffset hne
    obtain ⟨hcatalogue, hstart⟩ := readCursor_made hp hne hoffset
    exact ⟨shot, hshot, hsame shot hshot hcatalogue, hstart.symm⟩

theorem Inv.answer (hp : p.Faithful) (h : Inv p rid shots v) {n : Nat}
    (hflight : v.flights.get? n = some flight) {friend : Relationship}
    (hrid : friend.relationshipId = rid)
    (hpage : v.publisher.page p friend (.str flight.cursor) = .ok page) :
    Inv p rid shots { v with flights := v.flights.set n { flight with page := some page } } := by
  -- each refresh under way is one from before, but for its page
  have hold : ∀ m other, (v.flights.set n { flight with page := some page }).get? m = some other →
      ∃ was, v.flights.get? m = some was ∧ other.ticket = was.ticket ∧
        other.cursor = was.cursor := by
    exact Dict.forall_get?_set ⟨flight, hflight, rfl, rfl⟩
      fun m other hother => ⟨other, hother, rfl, rfl⟩
  refine ⟨h.numbered, h.shown, h.kept, h.stored, h.inbox, h.enabled, ?_, ?_, ?_, ?_⟩
  · intro m other hother
    obtain ⟨was, hwas, hticket, -⟩ := hold m other hother
    rw [hticket]
    exact h.tickets m was hwas
  · intro m k other third hother hthird hsame
    obtain ⟨was, hwas, hticket, -⟩ := hold m other hother
    obtain ⟨had, hhad, hticket', -⟩ := hold k third hthird
    rw [hticket, hticket'] at hsame
    exact h.distinct m k was had hwas hhad hsame
  · intro m other hother hnewest hne
    obtain ⟨was, hwas, hticket, hcursor⟩ := hold m other hother
    rw [hticket] at hnewest
    rw [hcursor] at hne ⊢
    exact h.asked m was hwas hnewest hne
  · intro m other answer hother hanswer
    rw [Dict.get?_set] at hother
    split at hother
    · cases hother
      cases hanswer
      obtain ⟨offset, ha⟩ := h.answered_now hp hflight hrid hpage
      refine ⟨_, offset, ha.page, ha.listed, ha.past, ha.first, ha.known, ha.same, ha.has, ha.later⟩
    · obtain ⟨rows, offset, ha⟩ := h.answered m other answer hother hanswer
      exact ⟨rows, offset, ha.of_same rfl rfl rfl⟩

/-! ### The end of a refresh -/

theorem Inv.fails (h : Inv p rid shots v) (n : Nat) : Inv p rid shots { v with
      flights := v.flights.erase n
      stored := match v.inbox with
        | some inbox => inbox.nextCursor :: v.stored
        | none => v.stored } := by
  have hold : ∀ m other, (v.flights.erase n).get? m = some other →
      v.flights.get? m = some other := fun m other hother => (Dict.of_get?_erase hother).2
  refine ⟨h.numbered, h.shown, h.kept, fun cursor hcursor => ?_, h.inbox, h.enabled,
    fun m other hother => h.tickets m other (hold m other hother),
    fun m k other third hother hthird => h.distinct m k other third (hold m other hother)
      (hold k third hthird), fun m other hother => h.asked m other (hold m other hother),
    fun m other page hother hpage => ?_⟩
  · cases hinbox : v.inbox with
    | none =>
      rw [hinbox] at hcursor
      exact h.stored cursor hcursor
    | some inbox =>
      rw [hinbox] at hcursor
      cases hcursor with
      | head =>
        obtain ⟨shot, hshot, hcurrent⟩ := h.inbox inbox hinbox
        exact ⟨shot, hshot, hcurrent.nextCursor.symm⟩
      | tail _ hmem => exact h.stored cursor hmem
  · obtain ⟨rows, offset, ha⟩ := h.answered m other page (hold m other hother) hpage
    exact ⟨rows, offset, ha.of_same rfl rfl rfl⟩

variable {listing : Listing}

theorem Inv.next_shot (hp : p.Faithful) (h : Inv p rid shots v) (hnewest : v.Newest flight.ticket)
    {offset : Nat} (ha : Answered p rid v shots flight page rows offset)
    (hbrings : Brings listing p rows offset) (now : Rat) :
    ∃ reached, (nextInbox v.inbox flight.cursor listing now).nextCursor = cursorAt p rows reached ∧
      ∀ row ∈ rows.take reached, Has v.cached row ∨ row ∈ (rows.drop offset).take 20 := by
  by_cases hsame : flight.cursor = "" ∧ v.inbox.map Inbox.generation = some listing.generation
  · obtain ⟨inbox, hinbox, hgeneration⟩ := Option.map_eq_some_iff.mp hsame.2
    obtain ⟨shot, hshot, hcurrent⟩ := h.inbox inbox hinbox
    have hrows : shot.rows = rows := by
      refine ha.same hnewest shot hshot (hp.catalogue _ _ ?_)
      rw [← hcurrent.generation, hgeneration, hbrings.generation]
    refine ⟨shot.offset, ?_, fun row hrow => Or.inl (ha.has hnewest shot hshot hrows row ?_)⟩
    · show (if _ then _ else _) = _
      rw [if_pos hsame, hinbox, Option.map_some, Option.getD_some, hcurrent.nextCursor, Shot.cursor,
        hrows]
    · rwa [hrows]
  · refine ⟨offset + 20, ?_, fun row hrow => ?_⟩
    · show (if _ then _ else _) = _
      rw [if_neg hsame, hbrings.nextCursor]
    · rw [List.take_add, List.mem_append] at hrow
      refine hrow.imp_left fun hbefore => ?_
      by_cases hcursor : flight.cursor = ""
      · rw [ha.first hcursor, List.take_zero] at hbefore
        cases hbefore
      · obtain ⟨shot, hshot, hrows, hoffset⟩ := ha.later hnewest hcursor
        refine ha.has hnewest shot hshot hrows row ?_
        rwa [hrows, hoffset]

theorem current_next {offset reached : Nat}
    (hkeyed : ∀ id record, v.cached.get? id = some record → record.id = id) (hlisted : Listed rows)
    (hbrings : Brings listing p rows offset) {cursor : String} {now : Rat}
    (hcursor : (nextInbox v.inbox cursor listing now).nextCursor = cursorAt p rows reached)
    (hhas : ∀ row ∈ rows.take reached, Has v.cached row ∨ row ∈ (rows.drop offset).take 20) :
    Current p ⟨rows, reached⟩ (nextInbox v.inbox cursor listing now) := by
  refine ⟨hbrings.generation, hcursor, fun row hrow => ?_, fun id record hget => ?_,
    fun id record hget => merge_keyed hkeyed hbrings.keyed hget⟩
  · cases hhas row hrow with
    | inl hold =>
      refine merge_has_old hbrings.records ?_ hold
      rw [hbrings.catalogue, get?_catalogue hlisted.nodup]
      exact ⟨row, List.mem_of_mem_take hrow, rfl, rfl⟩
    | inr hnew => exact merge_has_new (hbrings.window row hnew)
  · rw [← hbrings.catalogue]
    exact merge_sound hbrings.records hget

theorem Inv.lands {p : ReaderPlatform} (hp : p.toPlatform.Faithful)
    (h : Inv p.toPlatform rid shots v) {n : Nat} (hflight : v.flights.get? n = some flight)
    (hnewest : v.Newest flight.ticket) (hpage : flight.page = some page)
    (hlisting : readPage p page = .ok listing) (now : Rat) :
    ∃ shots, Inv p.toPlatform rid shots { v with
      inbox := some (nextInbox v.inbox flight.cursor listing now)
      flights := v.flights.erase n
      stored := (nextInbox v.inbox flight.cursor listing now).nextCursor :: v.stored } := by
  obtain ⟨rows, offset, ha⟩ := h.answered n flight page hflight hpage
  rw [ha.page] at hlisting
  have hbrings := readPage_made hlisting
  obtain ⟨reached, hcursor, hhas⟩ := h.next_shot hp hnewest ha hbrings now
  have hkeyed : ∀ id record, v.cached.get? id = some record → record.id = id := by
    intro id record hget
    unfold View.cached at hget
    cases hinbox : v.inbox with
    | none =>
      rw [hinbox] at hget
      simp at hget
    | some inbox =>
      obtain ⟨shot, -, hold⟩ := h.inbox inbox hinbox
      rw [hinbox] at hget
      exact hold.keyed id record hget
  have hcurrent := current_next hkeyed ha.listed hbrings hcursor hhas
  have hold : ∀ m other, (v.flights.erase n).get? m = some other →
      m ≠ n ∧ v.flights.get? m = some other := fun m other => Dict.of_get?_erase
  -- no other refresh under way is the newest
  have hnot : ∀ m other, (v.flights.erase n).get? m = some other → ¬ v.Newest other.ticket := by
    intro m other hother hother'
    obtain ⟨hm, hwas⟩ := hold m other hother
    have hmark : some _ = some _ := hnewest.symm.trans hother'
    exact hm (h.distinct m n other flight hwas hflight
      (congrArg Mark.sequence (Option.some.inj hmark)).symm)
  refine ⟨⟨rows, reached⟩ :: shots, h.numbered, fun shot hshot => ?_, fun shot hshot row hrow => ?_,
    fun cursor hstored => ?_, fun inbox hinbox => ?_, fun _ _ => ⟨_, hnewest, rfl⟩,
    fun m other hother => h.tickets m other (hold m other hother).2,
    fun m k other third hother hthird => h.distinct m k other third (hold m other hother).2
      (hold k third hthird).2,
    fun m other hother hnew => absurd hnew (hnot m other hother), fun m other page hother hpage =>
      ?_⟩
  · cases hshot with
    | head => exact ⟨ha.listed, ha.past⟩
    | tail _ hmem => exact h.shown shot hmem
  · cases hshot with
    | head => exact Or.inl (hcurrent.has row hrow)
    | tail _ hmem =>
      cases ha.known hnewest shot hmem row (List.mem_of_mem_take hrow) with
      | inr hgone => exact Or.inr hgone
      | inl hstill =>
        refine (h.kept shot hmem row hrow).imp_left (merge_has_old hbrings.records ?_)
        rw [hbrings.catalogue, get?_catalogue ha.listed.nodup]
        exact ⟨row, hstill, rfl, rfl⟩
  · cases hstored with
    | head => exact ⟨_, (.head _), hcursor.symm⟩
    | tail _ hmem =>
      obtain ⟨shot, hshot, hsame⟩ := h.stored cursor hmem
      exact ⟨shot, .tail _ hshot, hsame⟩
  · cases hinbox
    exact ⟨_, (.head _), hcurrent⟩
  · obtain ⟨rows', offset', ha'⟩ := h.answered m other page (hold m other hother).2 hpage
    exact ⟨rows', offset', ha'.of_not_newest rfl (hnot m other hother)⟩

end Feed
