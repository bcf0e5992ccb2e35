import Rynmesh.FriendFeed

/-!
# Reading a friend's feed

The receiver's side of `friend_feed/service.py`.

* `Peer.subscribe` changes a subscription, and `Peer.begin` and `Peer.complete` are the
  two ends of `refresh`; between them the friend is asked for a page;
* `readPage` is what `refresh` checks of a page;
* `World` is a receiver, a publisher who is its friend, and the refreshes that are
  under way; `Step` interleaves them.

A page travels sealed for one request, so that the receiver gets the publisher's page
or none.  How a card is cleaned is a field of `ReaderPlatform`; the marks of what was
read and the cleanup are left out.
-/

namespace Feed

open Checked

structure ReaderPlatform extends Platform where
  /-- `friends._clean_card`, none where it raises. -/
  cleanCard : Json → Option Json

structure Subscription where
  relationshipId : String
  peerId : String
  enabled : Bool
  revision : Nat
  refreshSequence : Nat
  lastError : String

/-- A cached row. -/
structure Record where
  id : String
  revision : Nat
  publishedAt : Json
  updatedAt : Json
  card : Json

structure Inbox where
  records : Dict String Record
  generation : String
  nextCursor : String
  checkedAt : Rat

/-- A node with what it follows. -/
structure Peer where
  node : Node
  subscriptions : Dict String Subscription
  inbox : Dict String Inbox

/-! ### Subscriptions -/

/-- A subscription that is not enabled has no inbox. -/
def Peer.write (peer : Peer) (rid : String) (row : Subscription) : Peer :=
  { peer with
    subscriptions := peer.subscriptions.set rid row
    inbox := if row.enabled = true then peer.inbox else peer.inbox.erase rid }

/-- The `change` of `subscribe`, with the relationship where it was looked up. -/
def Peer.changed (peer : Peer) (rid : String) (enabled : Bool) (expectedRevision : Nat)
    (relationship : Option Relationship) : Except String Peer :=
  match peer.subscriptions.get? rid with
  | some prior =>
      if prior.revision = expectedRevision + 1 ∧ prior.enabled = enabled then .ok peer
      else do
        require (prior.revision = expectedRevision) "feed_revision_conflict"
        let peerId ← demand "TypeError"
          (if prior.peerId ≠ "" then some prior.peerId else relationship.map Relationship.peerId)
        return peer.write rid { prior with
          relationshipId := rid, peerId, enabled, revision := expectedRevision + 1 }
  | none => do
      require (0 = expectedRevision) "feed_revision_conflict"
      require (peer.subscriptions.entries.length < maxSubscriptions) "feed_capacity_exhausted"
      let relationship ← demand "TypeError" relationship
      return peer.write rid ⟨rid, relationship.peerId, enabled, 1, 0, ""⟩

/-- `subscribe`. -/
def Peer.subscribe (peer : Peer) (rid : String) (enabled : Bool) (expectedRevision : Nat) :
    Except String Peer := do
  let rid ← identity (.str rid)
  if enabled = true ∨ (peer.subscriptions.get? rid).isNone then do
    let relationship ← peer.node.active rid none
    peer.changed rid enabled expectedRevision (some relationship)
  else peer.changed rid enabled expectedRevision none

/-! ### The start of a refresh -/

/-- What a refresh holds on to. -/
structure Ticket where
  relationship : Relationship
  revision : Nat
  sequence : Nat

/-- `refresh` up to its request. -/
def Peer.begin (peer : Peer) (rid : String) : Except String (Peer × Ticket) := do
  let relationship ← peer.node.active rid none
  let row ← demand "feed_subscription_required"
    ((peer.subscriptions.get? rid).filter fun row => row.enabled)
  return ({ peer with
      subscriptions := peer.subscriptions.set rid
        { row with refreshSequence := row.refreshSequence + 1 } },
    ⟨relationship, row.revision, row.refreshSequence + 1⟩)

/-! ### The page -/

def field (value : Json) (k : String) : Json := (value.get? k).getD .null

/-- A finite number that is not negative; `math.isfinite` raises on an integer without a float. -/
def checkTime : Json → Except String Unit
  | .int n =>
      if 2 ^ 1024 - 2 ^ 970 ≤ n.natAbs then .error "feed_friend_unreachable"
      else require (0 ≤ n) "feed_response_invalid"
  | .float value _ => require (value.any (fun x => 0 ≤ x) = true) "feed_response_invalid"
  | _ => .error "feed_response_invalid"

/-- One row of a page.  What is no `FeedError` is reported as an unreachable friend. -/
def readRow (p : ReaderPlatform) (catalogue : Json) (clean : Dict String Record) (row : Json) :
    Except String (Dict String Record) := do
  require (row.isObj = true) "feed_friend_unreachable"
  let identifier ← identity (field row "id")
  require ((clean.get? identifier).isNone = true) "feed_response_invalid"
  let rev ← revision (field row "revision")
  require (catalogue.get? identifier = some (.int rev)) "feed_response_invalid"
  checkTime (field row "published_at")
  checkTime (field row "updated_at")
  let card ← demand "feed_friend_unreachable"
    (((row.get? "card").filter Json.isObj).bind fun card =>
      p.cleanCard (card.withField "library_id" (.str "peer-feed")))
  require ((field card "fetch_available").truthy = true) "feed_response_invalid"
  return clean.set identifier
    ⟨identifier, rev, field row "published_at", field row "updated_at", card.without "library_id"⟩

structure Listing where
  catalogue : Json
  generation : String
  nextCursor : String
  records : Dict String Record

/-- An identifier of the catalogue with its revision. -/
def checkEntry (catalogue : Json) (identifier : String) : Except String Unit := do
  let _ ← identity (.str identifier)
  let rev ← revision (field catalogue identifier)
  require (1 ≤ rev) "feed_response_invalid"

/-- What `refresh` checks of a page. -/
def readPage (p : ReaderPlatform) (page : Json) : Except String Listing := do
  let catalogue ← demand "feed_response_invalid"
    ((page.get? "catalogue").filter Json.isObj)
  require (catalogue.keys.length ≤ maxPublications) "feed_response_invalid"
  require (page.get? "generation" = some (.str (p.digest catalogue))) "feed_response_invalid"
  forM catalogue.keys (checkEntry catalogue)
  let rows ← demand "feed_response_invalid" ((page.get? "rows").bind Json.asArr?)
  let nextCursor ← demand "feed_response_invalid"
    ((page.get? "next_cursor").bind Json.asStr?)
  require (rows.length ≤ 20 ∧ nextCursor.length ≤ 100) "feed_response_invalid"
  let records ← rows.foldlM (readRow p catalogue) .empty
  return ⟨catalogue, p.digest catalogue, nextCursor, records⟩

/-! ### The end of a refresh -/

/-- `current`: the subscription, if no later refresh or change came in between. -/
def Peer.current (peer : Peer) (rid : String) (ticket : Ticket) : Except String Subscription :=
  demand "feed_refresh_superseded" ((peer.subscriptions.get? rid).filter fun row =>
    row.enabled && row.revision = ticket.revision && row.refreshSequence = ticket.sequence)

/-- The records that are kept, with those of the page. -/
def mergeRecords (prior : Dict String Record) (listing : Listing) : Dict String Record :=
  listing.records.entries.foldl (fun records e => records.set e.1 e.2)
    (prior.filter fun key row => listing.catalogue.get? key = some (.int row.revision))

/-- The inbox after a page. -/
def nextInbox (prior : Option Inbox) (cursor : String) (listing : Listing) (now : Rat) : Inbox where
  records := mergeRecords ((prior.map Inbox.records).getD .empty) listing
  generation := listing.generation
  nextCursor :=
    if cursor = "" ∧ prior.map Inbox.generation = some listing.generation then
      (prior.map Inbox.nextCursor).getD listing.nextCursor
    else listing.nextCursor
  checkedAt := now

/-- The `finish` of `refresh`. -/
def Peer.finish (peer : Peer) (rid : String) (ticket : Ticket) (cursor : String)
    (listing : Listing) (now : Rat) : Except String Peer := do
  let subscription ← peer.current rid ticket
  require (cursor ≠ "" →
    (peer.inbox.get? rid).map Inbox.generation = some listing.generation) "feed_results_changed"
  return { peer with
    subscriptions := peer.subscriptions.set rid { subscription with lastError := "" }
    inbox := peer.inbox.set rid (nextInbox (peer.inbox.get? rid) cursor listing now) }

/-- The `failure` of `refresh`. -/
def Peer.failure (peer : Peer) (rid : String) (ticket : Ticket) (code : String) : Peer :=
  match peer.subscriptions.get? rid with
  | some row =>
      if row.revision = ticket.revision ∧ row.refreshSequence = ticket.sequence then
        { peer with subscriptions := peer.subscriptions.set rid { row with lastError := code } }
      else peer
  | none => peer

/-- The checks of a page, and what they leave. -/
def Peer.receive (p : ReaderPlatform) (peer : Peer) (rid : String) (ticket : Ticket)
    (cursor : String) (reply : Except String Json) (now : Rat) : Except String Peer := do
  let page ← reply
  let listing ← readPage p page
  let _ ← peer.node.active rid (some ticket.relationship.peerId)
  peer.finish rid ticket cursor listing now

/-- `refresh` from what came of its request: a page, or the code of a failure. -/
def Peer.complete (p : ReaderPlatform) (peer : Peer) (rid : String) (ticket : Ticket)
    (cursor : String) (reply : Except String Json) (now : Rat) : Peer × Except String Unit :=
  match peer.receive p rid ticket cursor reply now with
  | .ok next => (next, .ok ())
  | .error code => (peer.failure rid ticket code, .error code)

/-! ### A publisher and a receiver -/

/-- A refresh under way, with the publisher's page once it was asked. -/
structure Flight where
  ticket : Ticket
  cursor : String
  page : Option Json

structure World where
  publisher : Node
  reader : Peer
  flights : Dict Nat Flight
  /-- The number of refreshes that began. -/
  begun : Nat
  /-- The cursors that the inbox has held since it was last emptied. -/
  stored : List String


section Steps

variable (p : ReaderPlatform) (friend : Relationship)

/-- What happens at either side; the receiver's friend is known by `friend.relationshipId`. -/
inductive WorldStep (w : World) : World → Prop
  /-- An edit of the publisher: a draft, a publication, a stop. -/
  | edit (id operationId : String) (expectedRevision : Nat) (request : Json) (edit : Edit)
      {node : Node} {row : Row}
      (h : w.publisher.change p.toPlatform id operationId expectedRevision request edit =
        .ok (node, row)) :
      WorldStep w { w with publisher := node }
  /-- The publisher's friends and library change. -/
  | surroundings (node : Node) (h : node.feed = w.publisher.feed) :
      WorldStep w { w with publisher := node }
  /-- The receiver's own feed, friends and library change, and so do its other subscriptions. -/
  | elsewhere (reader : Peer)
      (hsubscription : reader.subscriptions.get? friend.relationshipId =
        w.reader.subscriptions.get? friend.relationshipId)
      (hinbox : reader.inbox.get? friend.relationshipId =
        w.reader.inbox.get? friend.relationshipId) :
      WorldStep w { w with reader }
  | subscribe (enabled : Bool) (expectedRevision : Nat) {reader : Peer}
      (h : w.reader.subscribe friend.relationshipId enabled expectedRevision = .ok reader) :
      WorldStep w { w with
        reader
        stored := if (reader.inbox.get? friend.relationshipId).isNone then [] else w.stored }
  /-- A refresh begins, from the first page or from a cursor that the inbox held. -/
  | begin (cursor : String) (hcursor : cursor = "" ∨ cursor ∈ w.stored) {reader : Peer}
      {ticket : Ticket} (h : w.reader.begin friend.relationshipId = .ok (reader, ticket)) :
      WorldStep w { w with
        reader
        flights := w.flights.set w.begun ⟨ticket, cursor, none⟩
        begun := w.begun + 1 }
  /-- The publisher makes the page that a refresh asked for. -/
  | answer (n : Nat) {flight : Flight} (hflight : w.flights.get? n = some flight)
      (hfirst : flight.page = none) {page : Json}
      (h : w.publisher.page p.toPlatform friend (.str flight.cursor) = .ok page) :
      WorldStep w { w with flights := w.flights.set n { flight with page := some page } }
  /-- A refresh ends, with the page or with any failure. -/
  | complete (n : Nat) {flight : Flight} (hflight : w.flights.get? n = some flight)
      (reply : Except String Json) (hreply : ∀ page, reply = .ok page → flight.page = some page)
      (now : Rat) :
      WorldStep w { w with
        reader := (w.reader.complete p friend.relationshipId flight.ticket flight.cursor reply
          now).1
        flights := w.flights.erase n
        stored := match (w.reader.complete p friend.relationshipId flight.ticket flight.cursor
            reply now).1.inbox.get? friend.relationshipId with
          | some inbox => inbox.nextCursor :: w.stored
          | none => w.stored }

/-- The runs of a publisher and a receiver. -/
inductive Runs : World → World → Prop
  | refl (w : World) : Runs w w
  | step {w next last : World} (h : Runs w next) (hstep : WorldStep p friend next last) :
      Runs w last

/-- Before anything was published or subscribed to. -/
def World.initial (publisher reader : Node) : World where
  publisher := { publisher with feed := .empty }
  reader := ⟨reader, .empty, .empty⟩
  flights := .empty
  begun := 0
  stored := []

end Steps

end Feed
