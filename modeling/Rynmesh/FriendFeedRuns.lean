import Rynmesh.FriendFeedConsistent

/-!
# Runs of a publisher and a receiver

* `Peer.subscribe_ok`, `Peer.begin_ok` and `Peer.complete_cases` say what the receiver's
  operations leave of one subscription;
* `Inv.run` carries the invariant along every run;
* `Later` is what a run never takes back, so that a refresh from before a change of the
  subscription never ends well;
* `refresh_consistent`: the cached rows are of the catalogue of the last page, and all of
  it once there is no cursor left.
-/

namespace Feed

open Checked

variable {p : ReaderPlatform} {rid : String} {peer reader : Peer}

/-! ### The receiver's operations -/

theorem identity_str {id : String} {found : String} (h : identity (.str id) = .ok found) :
    found = id :=
  (Option.some.inj (identity_ok h)).symm

/-- A change of a subscription, with the next revision. -/
structure Renewed (peer : Peer) (rid : String) (row : Subscription) : Prop where
  revision : ∀ old, peer.subscriptions.get? rid = some old → row.revision = old.revision + 1
  sequence : ∀ old, peer.subscriptions.get? rid = some old →
    row.refreshSequence = old.refreshSequence

theorem Peer.changed_ok {enabled : Bool} {expectedRevision : Nat}
    {relationship : Option Relationship}
    (h : peer.changed rid enabled expectedRevision relationship = .ok reader) :
    reader = peer ∨ ∃ row, Renewed peer rid row ∧ reader = peer.write rid row := by
  unfold Peer.changed at h
  split at h
  · rename_i prior hprior
    split at h
    · exact Or.inl (Except.ok.inj h).symm
    · simp only [bind_ok, require_ok, demand_ok, pure_ok] at h
      obtain ⟨-, hrevision, peerId, -, rfl⟩ := h
      refine Or.inr ⟨_, ⟨fun old hold => ?_, fun old hold => ?_⟩, rfl⟩
      · rw [hprior] at hold
        cases hold
        show expectedRevision + 1 = _
        rw [hrevision]
      · rw [hprior] at hold
        cases hold
        rfl
  · rename_i hnone
    simp only [bind_ok, require_ok, demand_ok, pure_ok] at h
    obtain ⟨-, -, -, -, known, -, rfl⟩ := h
    refine Or.inr ⟨_, ⟨fun old hold => ?_, fun old hold => ?_⟩, rfl⟩
    · rw [hnone] at hold
      cases hold
    · rw [hnone] at hold
      cases hold

theorem Peer.subscribe_ok {enabled : Bool} {expectedRevision : Nat}
    (h : peer.subscribe rid enabled expectedRevision = .ok reader) :
    reader = peer ∨ ∃ row, Renewed peer rid row ∧ reader = peer.write rid row := by
  obtain ⟨found, hfound, h⟩ := bind_ok.mp h
  rw [identity_str hfound] at h
  split at h
  · obtain ⟨relationship, -, h⟩ := bind_ok.mp h
    exact Peer.changed_ok h
  · exact Peer.changed_ok h

theorem Peer.begin_ok {ticket : Ticket} (h : peer.begin rid = .ok (reader, ticket)) :
    ∃ row, peer.subscriptions.get? rid = some row ∧ row.enabled = true ∧
      ticket.revision = row.revision ∧ ticket.sequence = row.refreshSequence + 1 ∧
      reader = { peer with
        subscriptions := peer.subscriptions.set rid
          { row with refreshSequence := row.refreshSequence + 1 } } := by
  unfold Peer.begin at h
  simp only [bind_ok, demand_ok, pure_ok, Option.filter_eq_some_iff] at h
  obtain ⟨relationship, -, row, ⟨hrow, henabled⟩, heq⟩ := h
  obtain ⟨rfl, rfl⟩ := Prod.mk.inj heq
  exact ⟨row, hrow, henabled, rfl, rfl, rfl⟩

theorem Peer.failure_same (peer : Peer) (rid : String) (ticket : Ticket) (code : String) :
    (peer.failure rid ticket code).inbox = peer.inbox ∧
      ((peer.failure rid ticket code).subscriptions.get? rid).map Subscription.mark =
        (peer.subscriptions.get? rid).map Subscription.mark := by
  unfold Peer.failure
  split
  · rename_i row hrow
    split
    · refine ⟨rfl, ?_⟩
      rw [Dict.get?_set_self, hrow]
      rfl
    · exact ⟨rfl, rfl⟩
  · exact ⟨rfl, rfl⟩

/-- What a refresh that succeeds leaves. -/
structure Received (p : ReaderPlatform) (peer : Peer) (rid : String) (ticket : Ticket)
    (cursor : String) (page : Json) (listing : Listing) (now : Rat) (reader : Peer) : Prop where
  checked : readPage p page = .ok listing
  newest : ∃ row, peer.subscriptions.get? rid = some row ∧ row.enabled = true ∧
    row.revision = ticket.revision ∧ row.refreshSequence = ticket.sequence
  inbox : reader.inbox.get? rid = some (nextInbox (peer.inbox.get? rid) cursor listing now)
  mark : (reader.subscriptions.get? rid).map Subscription.mark =
    (peer.subscriptions.get? rid).map Subscription.mark

theorem Peer.complete_cases (p : ReaderPlatform) (peer : Peer) (rid : String) (ticket : Ticket)
    (cursor : String) (reply : Except String Json) (now : Rat) :
    (∃ code, peer.complete p rid ticket cursor reply now =
      (peer.failure rid ticket code, .error code)) ∨
    ∃ page listing reader, reply = .ok page ∧
      peer.complete p rid ticket cursor reply now = (reader, .ok ()) ∧
      Received p peer rid ticket cursor page listing now reader := by
  unfold Peer.complete
  cases hreceive : peer.receive p rid ticket cursor reply now with
  | error code => exact Or.inl ⟨code, rfl⟩
  | ok reader =>
    right
    unfold Peer.receive Peer.finish Peer.current at hreceive
    simp only [bind_ok, require_ok, demand_ok, pure_ok, Option.filter_eq_some_iff,
      Bool.and_eq_true, decide_eq_true_eq] at hreceive
    obtain ⟨page, hreply, listing, hlisting, -, -, row, ⟨hrow, ⟨henabled, hrevision⟩, hsequence⟩,
      -, -, rfl⟩ := hreceive
    refine ⟨page, listing, _, hreply, rfl, hlisting, ⟨row, hrow, henabled, hrevision, hsequence⟩,
      Dict.get?_set_self _ _ _, ?_⟩
    rw [Dict.get?_set_self, hrow]
    rfl

/-! ### Steps and runs -/

variable {shots : List Shot}

theorem Inv.forgets {p : Platform} {v : View} (h : Inv p rid shots v) {stored : List String}
    (hstored : ∀ cursor ∈ stored, cursor ∈ v.stored) : Inv p rid shots { v with stored } := by
  refine ⟨h.numbered, h.shown, h.kept, fun cursor hcursor => h.stored cursor
    (hstored cursor hcursor),
    h.inbox, h.enabled, h.tickets, h.distinct, h.asked, fun n flight page hflight hpage => ?_⟩
  obtain ⟨rows, offset, ha⟩ := h.answered n flight page hflight hpage
  exact ⟨rows, offset, ha.of_same rfl rfl rfl⟩

theorem view_write (w : World) (row : Subscription) (stored : List String) :
    World.view rid { w with reader := w.reader.write rid row, stored } =
      { w.view rid with
        mark := some row.mark
        inbox := if row.mark.enabled = true then (w.view rid).inbox else none
        stored } := by
  unfold World.view Peer.write
  simp only [Dict.get?_set_self, Option.map_some, View.mk.injEq, true_and, and_true]
  show (if row.enabled = true then _ else _ : Dict String Inbox).get? rid =
    if row.enabled = true then _ else _
  split
  · rfl
  · rw [Dict.get?_erase, if_pos rfl]

theorem Inv.subscribed {p : Platform} {w : World} (h : Inv p rid shots (w.view rid))
    {row : Subscription} (hrow : Renewed w.reader rid row) {stored : List String}
    (hstored : stored = if ((w.reader.write rid row).inbox.get? rid).isNone then [] else w.stored) :
    ∃ shots, Inv p rid shots
      (World.view rid { w with reader := w.reader.write rid row, stored }) := by
  have hold : ∀ mark, (w.view rid).mark = some mark → ∃ old,
      w.reader.subscriptions.get? rid = some old ∧ old.mark = mark := by
    intro mark hmark
    exact Option.map_eq_some_iff.mp hmark
  have hrevision : ∀ mark, (w.view rid).mark = some mark → mark.revision < row.mark.revision := by
    intro mark hmark
    obtain ⟨old, hget, rfl⟩ := hold mark hmark
    exact (Nat.lt_succ_self _).trans_eq (hrow.revision old hget).symm
  have hsequence : ∀ mark, (w.view rid).mark = some mark → mark.sequence ≤ row.mark.sequence := by
    intro mark hmark
    obtain ⟨old, hget, rfl⟩ := hold mark hmark
    exact (hrow.sequence old hget).ge
  have hmarked := h.remark hrevision hsequence
  rw [view_write]
  refine ⟨_, hmarked.forgets fun cursor hcursor => ?_⟩
  rw [hstored] at hcursor
  split at hcursor
  · cases hcursor
  · rename_i hsome
    show cursor ∈ (if row.enabled = true then w.stored else [])
    split
    · exact hcursor
    · rename_i hoff
      refine absurd ?_ hsome
      simp [Peer.write, hoff, Dict.get?_erase]

variable {friend : Relationship}

theorem Inv.step (hp : p.toPlatform.Faithful) {w w' : World} (hstep : WorldStep p friend w w')
    (h : Inv p.toPlatform friend.relationshipId shots (w.view friend.relationshipId)) :
    ∃ shots, Inv p.toPlatform friend.relationshipId shots (w'.view friend.relationshipId) := by
  cases hstep with
  | edit id operationId expectedRevision request edit hchange =>
    exact ⟨shots, h.moves (moves_change h.numbered hchange)⟩
  | surroundings node hfeed => exact ⟨shots, h.moves (moves_surroundings h.numbered hfeed)⟩
  | elsewhere reader hsubscription hinbox =>
    refine ⟨shots, ?_⟩
    unfold World.view at h ⊢
    rwa [hsubscription, hinbox]
  | subscribe enabled expectedRevision hsubscribe =>
    obtain rfl | ⟨row, hrow, rfl⟩ := Peer.subscribe_ok hsubscribe
    · refine ⟨shots, h.forgets fun cursor hcursor => ?_⟩
      split at hcursor
      · cases hcursor
      · exact hcursor
    · exact h.subscribed hrow rfl
  | begin cursor hcursor hbegin =>
    rename_i reader ticket
    obtain ⟨row, hrow, henabled, hrevision, hsequence, rfl⟩ := Peer.begin_ok hbegin
    have hmark : (w.view friend.relationshipId).mark =
        some ⟨true, row.revision, row.refreshSequence⟩ := by
      unfold World.view Subscription.mark
      rw [hrow, Option.map_some, henabled]
    have hnext := h.begin hmark ticket.relationship hcursor
    rw [← hrevision, ← hsequence] at hnext
    refine ⟨shots, ?_⟩
    unfold World.view Subscription.mark at hnext ⊢
    simp only [Dict.get?_set_self, Option.map_some, henabled, ← hrevision, ← hsequence]
    exact hnext
  | answer n hflight hfirst hpage => exact ⟨shots, h.answer hp hflight rfl hpage⟩
  | complete n hflight reply hreply now =>
    rename_i flight
    obtain ⟨code, heq⟩ | ⟨page, listing, reader, rfl, heq, hreceived⟩ :=
      Peer.complete_cases p w.reader friend.relationshipId flight.ticket flight.cursor reply now
    · refine ⟨shots, ?_⟩
      have hfails := h.fails n
      obtain ⟨hinbox, hmark⟩ :=
        w.reader.failure_same friend.relationshipId flight.ticket code
      rw [heq]
      unfold World.view at hfails ⊢
      rw [hinbox, hmark]
      exact hfails
    · obtain ⟨row, hrow, henabled, hrevision, hsequence⟩ := hreceived.newest
      have hnewest : (w.view friend.relationshipId).Newest flight.ticket := by
        unfold View.Newest World.view Subscription.mark
        rw [hrow, Option.map_some, henabled, hrevision, hsequence]
      obtain ⟨next, hnext⟩ :=
        h.lands hp hflight hnewest (hreply page rfl) hreceived.checked now
      refine ⟨next, ?_⟩
      rw [heq]
      unfold World.view at hnext ⊢
      rw [hreceived.inbox, hreceived.mark]
      exact hnext

theorem inv_initial (p : Platform) (rid : String) (publisher reader : Node) :
    Inv p rid [] ((World.initial publisher reader).view rid) := by
  refine ⟨?_, by simp, by simp, ?_, ?_, ?_, ?_, ?_, ?_, ?_⟩
  · intro id row publication hget
    cases hget
  · intro cursor hcursor
    cases hcursor
  · intro inbox hinbox
    cases hinbox
  · intro inbox hinbox
    cases hinbox
  · intro n flight hflight
    cases hflight
  · intro n m flight other hflight
    cases hflight
  · intro n flight hflight
    cases hflight
  · intro n flight page hflight
    cases hflight

theorem Inv.run (hp : p.toPlatform.Faithful) {w w' : World} (hrun : Runs p friend w w')
    (h : Inv p.toPlatform friend.relationshipId shots (w.view friend.relationshipId)) :
    ∃ shots, Inv p.toPlatform friend.relationshipId shots (w'.view friend.relationshipId) := by
  induction hrun with
  | refl => exact ⟨shots, h⟩
  | step _ hstep ih =>
    obtain ⟨shots, hnext⟩ := ih
    exact hnext.step hp hstep

/-! ### What a run never takes back -/

/-- Refreshes under way keep their tickets, and no revision is used again. -/
structure Later (rid : String) (w w' : World) : Prop where
  begun : w.begun ≤ w'.begun
  flights : ∀ n flight, n < w.begun → w'.flights.get? n = some flight →
    ∃ was, w.flights.get? n = some was ∧ was.ticket = flight.ticket
  subscription : ∀ row, w.reader.subscriptions.get? rid = some row →
    ∃ row', w'.reader.subscriptions.get? rid = some row' ∧ row.revision ≤ row'.revision

theorem Later.refl (rid : String) (w : World) : Later rid w w :=
  ⟨le_rfl, fun _ flight _ hflight => ⟨flight, hflight, rfl⟩, fun row hrow => ⟨row, hrow, le_rfl⟩⟩

theorem Later.trans {w next last : World} (h : Later rid w next) (hlast : Later rid next last) :
    Later rid w last := by
  refine ⟨h.begun.trans hlast.begun, fun n flight hn hflight => ?_, fun row hrow => ?_⟩
  · obtain ⟨was, hwas, hticket⟩ := hlast.flights n flight (hn.trans_le h.begun) hflight
    obtain ⟨had, hhad, hticket'⟩ := h.flights n was hn hwas
    exact ⟨had, hhad, hticket'.trans hticket⟩
  · obtain ⟨row', hrow', hle⟩ := h.subscription row hrow
    obtain ⟨row'', hrow'', hle'⟩ := hlast.subscription row' hrow'
    exact ⟨row'', hrow'', hle.trans hle'⟩

theorem revision_of_mark (hmark : (reader.subscriptions.get? rid).map Subscription.mark =
      (peer.subscriptions.get? rid).map Subscription.mark) (row : Subscription)
    (hrow : peer.subscriptions.get? rid = some row) :
    ∃ row', reader.subscriptions.get? rid = some row' ∧ row.revision ≤ row'.revision := by
  rw [hrow, Option.map_some, Option.map_eq_some_iff] at hmark
  obtain ⟨row', hrow', hsame⟩ := hmark
  exact ⟨row', hrow', (congrArg Mark.revision hsame).ge⟩

theorem WorldStep.later {w w' : World} (h : WorldStep p friend w w') :
    Later friend.relationshipId w w' := by
  have hkeep : ∀ row, w.reader.subscriptions.get? friend.relationshipId = some row →
      ∃ row', w.reader.subscriptions.get? friend.relationshipId = some row' ∧
        row.revision ≤ row'.revision := fun row hrow => ⟨row, hrow, le_rfl⟩
  have hflights : ∀ n flight, n < w.begun → w.flights.get? n = some flight →
      ∃ was, w.flights.get? n = some was ∧ was.ticket = flight.ticket :=
    fun _ flight _ hflight => ⟨flight, hflight, rfl⟩
  cases h with
  | edit | surroundings => exact ⟨le_rfl, hflights, hkeep⟩
  | elsewhere reader hsubscription =>
    refine ⟨le_rfl, hflights, ?_⟩
    rw [← hsubscription] at hkeep
    rwa [← hsubscription]
  | subscribe enabled expectedRevision hsubscribe =>
    refine ⟨le_rfl, hflights, fun old hold => ?_⟩
    obtain rfl | ⟨row, hrow, rfl⟩ := Peer.subscribe_ok hsubscribe
    · exact hkeep old hold
    · refine ⟨row, Dict.get?_set_self _ _ _, ?_⟩
      rw [hrow.revision old hold]
      exact Nat.le_succ _
  | begin cursor hcursor hbegin =>
    obtain ⟨row, hrow, -, -, -, rfl⟩ := Peer.begin_ok hbegin
    refine ⟨Nat.le_succ _, fun n flight hn hflight => ?_, fun old hold => ?_⟩
    · rw [Dict.get?_set, if_neg hn.ne] at hflight
      exact hflights n flight hn hflight
    · rw [hrow] at hold
      cases hold
      exact ⟨_, Dict.get?_set_self _ _ _, le_rfl⟩
  | answer n hflight hfirst hpage =>
    rename_i flight page
    refine ⟨le_rfl, fun m other hm hother => ?_, hkeep⟩
    rw [Dict.get?_set] at hother
    split at hother
    · rename_i hsame
      cases hother
      exact ⟨flight, hsame ▸ hflight, rfl⟩
    · exact hflights m other hm hother
  | complete n hflight reply hreply now =>
    rename_i flight
    refine ⟨le_rfl, fun m other hm hother => ?_, ?_⟩
    · exact hflights m other hm (Dict.of_get?_erase hother).2
    · obtain ⟨code, heq⟩ | ⟨page, listing, reader, -, heq, hreceived⟩ :=
        Peer.complete_cases p w.reader friend.relationshipId flight.ticket flight.cursor reply now
      · rw [heq]
        exact revision_of_mark (w.reader.failure_same _ _ _).2
      · rw [heq]
        exact revision_of_mark hreceived.mark

theorem Runs.later {w w' : World} (h : Runs p friend w w') : Later friend.relationshipId w w' := by
  induction h with
  | refl => exact Later.refl _ _
  | step _ hstep ih => exact ih.trans hstep.later

/-! ### What is cached -/

/-- An inbox that is of one catalogue, and all of it once there is no cursor left. -/
structure Inbox.Consistent (p : Platform) (catalogue : Json) (inbox : Inbox) : Prop where
  generation : inbox.generation = p.digest catalogue
  sound : ∀ id record, inbox.records.get? id = some record →
    record.id = id ∧ catalogue.get? id = some (.int record.revision)
  distinct : (inbox.records.entries.map fun e => e.2.id).Nodup
  whole : inbox.nextCursor = "" → ∀ id value, catalogue.get? id = some value →
    ∃ record, inbox.records.get? id = some record ∧ value = .int record.revision

theorem cursorAt_empty {p : Platform} {rows : List Publication} {offset : Nat}
    (h : cursorAt p rows offset = "") : rows.length ≤ offset := by
  unfold cursorAt at h
  split at h
  · have hchars := congrArg String.toList h
    simp at hchars
  · omega

theorem Current.consistent {p : Platform} {shot : Shot} {inbox : Inbox} (hlisted : Listed shot.rows)
    (h : Current p shot inbox) : inbox.Consistent p (catalogue shot.rows) := by
  refine ⟨h.generation, fun id record hget => ⟨h.keyed id record hget, h.sound id record hget⟩, ?_,
    fun hcursor id value hvalue => ?_⟩
  · have hkeys : inbox.records.entries.map (fun e => e.2.id) =
        inbox.records.entries.map Prod.fst :=
      List.map_congr_left fun e he => h.keyed e.1 e.2 (Dict.get?_eq_some_iff.mpr he)
    rw [hkeys]
    exact inbox.records.keys_nodup
  · obtain ⟨row, hrow, hid, rfl⟩ := (get?_catalogue hlisted.nodup).mp hvalue
    have hend : shot.rows.length ≤ shot.offset := cursorAt_empty (h.nextCursor.symm.trans hcursor)
    obtain ⟨record, hget, hrevision⟩ := h.has row (by rwa [List.take_of_length_le hend])
    exact ⟨record, hid ▸ hget, by rw [hrevision]⟩

theorem Inv.consistent {w : World} {p : Platform} (h : Inv p rid shots (w.view rid)) {inbox : Inbox}
    (hinbox : w.reader.inbox.get? rid = some inbox) :
    ∃ rows, inbox.Consistent p (catalogue rows) := by
  obtain ⟨shot, hshot, hcurrent⟩ := h.inbox inbox hinbox
  exact ⟨shot.rows, hcurrent.consistent (h.shown shot hshot).1⟩

/-- How a refresh ends: with an error, which leaves what is cached, or with the rows of the
page's catalogue. -/
def Ends (p : Platform) (peer : Peer) (rid : String) (reply : Except String Json)
    (outcome : Peer × Except String Unit) : Prop :=
  (∃ code, outcome.2 = .error code ∧ outcome.1.inbox = peer.inbox) ∨
  outcome.2 = .ok () ∧ ∃ page catalogue inbox, reply = .ok page ∧
    page.get? "catalogue" = some catalogue ∧ outcome.1.inbox.get? rid = some inbox ∧
    inbox.Consistent p catalogue

theorem Inv.ends (hp : p.toPlatform.Faithful) {w : World}
    (h : Inv p.toPlatform friend.relationshipId shots (w.view friend.relationshipId)) {n : Nat}
    {flight : Flight} (hflight : w.flights.get? n = some flight) {reply : Except String Json}
    (hreply : ∀ page, reply = .ok page → flight.page = some page) (now : Rat) :
    Ends p.toPlatform w.reader friend.relationshipId reply
      (w.reader.complete p friend.relationshipId flight.ticket flight.cursor reply now) := by
  obtain ⟨next, hnext⟩ := h.step hp (.complete n hflight reply hreply now)
  obtain ⟨code, heq⟩ | ⟨page, listing, reader, rfl, heq, hreceived⟩ :=
    Peer.complete_cases p w.reader friend.relationshipId flight.ticket flight.cursor reply now
  · rw [heq]
    exact Or.inl ⟨code, rfl, (w.reader.failure_same _ _ _).1⟩
  · rw [heq] at hnext ⊢
    obtain ⟨rows, offset, ha⟩ := h.answered n flight page hflight (hreply page rfl)
    have hchecked := hreceived.checked
    rw [ha.page] at hchecked
    have hbrings := readPage_made hchecked
    obtain ⟨others, hothers⟩ := hnext.consistent hreceived.inbox
    have hsame : catalogue rows = catalogue others := by
      refine hp.catalogue _ _ ?_
      rw [← hbrings.generation]
      exact hothers.generation
    refine Or.inr ⟨rfl, page, _, _, rfl, (readPage_ok hreceived.checked).1, hreceived.inbox, ?_⟩
    rwa [hbrings.catalogue, hsame]

/-- A refresh from before the subscription was turned off never ends well. -/
theorem Inv.superseded {w later : World} {q : Platform}
    (h : Inv q friend.relationshipId shots (w.view friend.relationshipId))
    (hoff : ∀ row, w.reader.subscriptions.get? friend.relationshipId = some row →
      row.enabled = false) (hlater : Later friend.relationshipId w later) {n : Nat}
    {flight : Flight} (hn : n < w.begun) (hflight : later.flights.get? n = some flight)
    (reply : Except String Json) (now : Rat) :
    ∃ code, later.reader.complete p friend.relationshipId flight.ticket flight.cursor reply now =
      (later.reader.failure friend.relationshipId flight.ticket code, .error code) := by
  refine (Peer.complete_cases p later.reader _ flight.ticket flight.cursor reply now).resolve_right
    fun hok => ?_
  obtain ⟨page, listing, next, -, -, hreceived⟩ := hok
  obtain ⟨row, hrow, -, hrevision, -⟩ := hreceived.newest
  obtain ⟨was, hwas, hticket⟩ := hlater.flights n flight hn hflight
  obtain ⟨-, mark, hmark, -, hle, henabled⟩ := h.tickets n was hwas
  obtain ⟨old, hold, rfl⟩ := Option.map_eq_some_iff.mp hmark
  obtain ⟨row', hrow', hle'⟩ := hlater.subscription old hold
  rw [hrow] at hrow'
  cases hrow'
  rw [hticket] at hle henabled
  have hsame : flight.ticket.revision = old.mark.revision :=
    le_antisymm hle (hle'.trans_eq hrevision)
  have hon := henabled hsame
  rw [show old.mark.enabled = old.enabled from rfl, hoff old hold] at hon
  cases hon

/-- **The cached feed is consistent.**  In every run, what is cached is of one catalogue,
each row with its revision and none twice, and all of it once there is no cursor left.  A
refresh ends with the rows of its page's catalogue, or with an error that leaves what is
cached.  Once the subscription is off nothing is cached, and no refresh from before ever
brings anything back. -/
theorem refresh_consistent (p : ReaderPlatform) (hp : p.toPlatform.Faithful)
    (friend : Relationship) {publisher reader : Node} {w : World}
    (h : Runs p friend (.initial publisher reader) w) :
    (∀ inbox, w.reader.inbox.get? friend.relationshipId = some inbox →
      ∃ catalogue, inbox.Consistent p.toPlatform catalogue) ∧
    (∀ begun ticket, w.reader.begin friend.relationshipId = .ok (begun, ticket) →
      begun.inbox = w.reader.inbox) ∧
    (∀ n flight, w.flights.get? n = some flight → ∀ reply : Except String Json,
      (∀ page, reply = .ok page → flight.page = some page) → ∀ now,
      Ends p.toPlatform w.reader friend.relationshipId reply
        (w.reader.complete p friend.relationshipId flight.ticket flight.cursor reply now)) ∧
    ((∀ row, w.reader.subscriptions.get? friend.relationshipId = some row → row.enabled = false) →
      w.reader.inbox.get? friend.relationshipId = none ∧
      ∀ later, Runs p friend w later → ∀ n flight, n < w.begun →
        later.flights.get? n = some flight → ∀ reply now, ∃ code,
          (later.reader.complete p friend.relationshipId flight.ticket flight.cursor reply
            now).2 = .error code ∧
          (later.reader.complete p friend.relationshipId flight.ticket flight.cursor reply
            now).1.inbox = later.reader.inbox) := by
  obtain ⟨shots, hinv⟩ :=
    (inv_initial p.toPlatform friend.relationshipId publisher reader).run hp h
  refine ⟨fun inbox hinbox => ?_, fun begun ticket hbegin => ?_,
    fun n flight hflight reply hreply now => hinv.ends hp hflight hreply now, fun hoff => ⟨?_, ?_⟩⟩
  · obtain ⟨rows, hrows⟩ := hinv.consistent hinbox
    exact ⟨_, hrows⟩
  · obtain ⟨-, -, -, -, -, rfl⟩ := Peer.begin_ok hbegin
    rfl
  · cases hinbox : w.reader.inbox.get? friend.relationshipId with
    | none => rfl
    | some inbox =>
      obtain ⟨mark, hmark, henabled⟩ := hinv.enabled inbox hinbox
      obtain ⟨row, hrow, rfl⟩ := Option.map_eq_some_iff.mp hmark
      have hnot := hoff row hrow
      rw [show row.enabled = row.mark.enabled from rfl, henabled] at hnot
      cases hnot
  · intro later hlater n flight hn hflight reply now
    obtain ⟨code, heq⟩ := hinv.superseded (p := p) hoff hlater.later hn hflight reply now
    rw [heq]
    exact ⟨code, rfl, (later.reader.failure_same _ _ _).1⟩

/-! A feed of one publication, read once. -/

/-- A character without a colon. -/
def escaped (c : Char) : List Char :=
  if c = ':' then ['%', 'c'] else if c = '%' then ['%', '%'] else [c]

theorem prefixFree_escaped : Json.PrefixFree escaped := by
  intro c d x y h
  unfold escaped at h
  split_ifs at h <;> grind

def sampleReaderPlatform : ReaderPlatform where
  toPlatform :=
    { samplePlatform with
      digest := fun value => .ofList (Json.listCode escaped (Json.encode value))
      int := fun text =>
        if text.toList.all Char.isDigit then some (Nat.ofDigitChars 10 text.toList 0 : Nat)
        else none }
  cleanCard card := some (card.withField "fetch_available" (.bool true))

theorem notMem_escaped (l : List Char) : ':' ∉ Json.listCode escaped l := by
  induction l with
  | nil => decide
  | cons c rest ih =>
    have hc : ':' ∉ escaped c := by
      unfold escaped
      split_ifs <;> simp_all [eq_comm]
    simp [Json.listCode, hc, ih]

theorem sampleReaderPlatform_faithful : sampleReaderPlatform.toPlatform.Faithful where
  colon := by
    intro value
    show ':' ∉ (String.ofList _).toList
    rw [String.toList_ofList]
    exact notMem_escaped _
  catalogue := by
    intro rows others h
    have hcode := Json.prefixFree_listCode prefixFree_escaped _ _ [] [] (by
      simpa using String.ofList_inj.mp h)
    exact Json.encode_injective (congrArg String.ofList hcode.1)
  int := by
    intro n
    have hdigits : (toString n).toList.all Char.isDigit = true := by
      rw [Nat.toString_eq_repr, Nat.toList_repr, List.all_eq_true]
      exact fun c hc => Nat.isDigit_of_mem_toDigits (by decide) (by decide) hc
    show (if _ then _ else _) = _
    rw [if_pos hdigits, Nat.toString_eq_repr, Nat.toList_repr,
      Nat.ofDigitChars_toDigits (by decide) (by decide)]

def sampleFriend : Relationship := ⟨friendId, "friend", "key", true⟩

def sampleDraft : Draft := ⟨⟨"library", "sha256", 0, []⟩, ⟨true, []⟩⟩

/-- A draft, a publication, a subscription and one refresh. -/
def sampleReading : Except String Peer := do
  let (drafted, _) ← (World.initial sampleNode sampleNode).publisher.change
    sampleReaderPlatform.toPlatform friendId friendId 0 .null (.saveDraft sampleDraft)
  let (published, _) ← drafted.change sampleReaderPlatform.toPlatform friendId secretId 1 .null
    (.publish true 0)
  let subscribed ← (World.initial sampleNode sampleNode).reader.subscribe friendId true 0
  let (started, ticket) ← subscribed.begin friendId
  let page ← published.page sampleReaderPlatform.toPlatform sampleFriend (.str "")
  started.receive sampleReaderPlatform friendId ticket "" (.ok page) 0

theorem refresh_consistent_sample :
    ∃ w, Runs sampleReaderPlatform sampleFriend (.initial sampleNode sampleNode) w ∧
      ∃ inbox, w.reader.inbox.get? friendId = some inbox ∧ inbox.records.keys = [friendId] ∧
        ∃ catalogue, inbox.Consistent sampleReaderPlatform.toPlatform catalogue := by
  have hcached : (sampleReading.toOption.any fun peer => decide
      (((peer.inbox.get? friendId).map fun inbox => inbox.records.keys) = some [friendId])) =
        true := by
    decide +kernel
  obtain ⟨peer, hpeer, hkeys⟩ := toOption_any hcached
  obtain ⟨inbox, hinbox, hrecords⟩ := Option.map_eq_some_iff.mp (of_decide_eq_true hkeys)
  unfold sampleReading at hpeer
  simp only [bind_ok] at hpeer
  obtain ⟨⟨drafted, _⟩, hdraft, ⟨published, _⟩, hpublish, subscribed, hsubscribe,
    ⟨started, ticket⟩, hbegin, page, hpage, hreceive⟩ := hpeer
  have hcomplete : started.complete sampleReaderPlatform friendId ticket "" (.ok page) 0 =
      (peer, .ok ()) := by
    unfold Peer.complete
    rw [hreceive]
  have hrun : ∃ w, Runs sampleReaderPlatform sampleFriend (.initial sampleNode sampleNode) w ∧
      w.reader = peer := by
    refine ⟨_, .step (.step (.step (.step (.step (.step (.refl _)
      (.edit _ _ _ _ _ hdraft)) (.edit _ _ _ _ _ hpublish)) (.subscribe _ _ hsubscribe))
      (.begin "" (.inl rfl) hbegin)) (.answer 0 (Dict.get?_set_self _ _ _) rfl hpage))
      (.complete 0 (Dict.get?_set_self _ _ _) (.ok page)
        (fun _ h => congrArg some (Except.ok.inj h))
        0), ?_⟩
    exact congrArg Prod.fst hcomplete
  obtain ⟨w, hw, rfl⟩ := hrun
  exact ⟨w, hw, inbox, hinbox, hrecords,
    (refresh_consistent sampleReaderPlatform sampleReaderPlatform_faithful sampleFriend hw).1 inbox
      hinbox⟩

end Feed
