import Rynmesh.CheckedComputation
import Rynmesh.JsonValue

/-!
# Publications for friends

The publisher's side of `friend_feed/service.py`.

* `Publications` is the feed store: one row for each publication, with its draft,
  its published snapshot and whether it was stopped;
* `Node.change` performs an owner's edit: a draft, a publication, a stop;
* `Node.page`, `Node.fetch` and `Node.respond` answer a friend, and check the
  audience again at every read.

The receiver's side (subscriptions, inbox) and the cleanup are left out, and so is
how a card is prepared for a draft.  Sealing, hashing and the conversions of the
standard library are fields of `Platform`.
-/

namespace Feed

open Checked

abbrev Bytes := List UInt8

def wireVersion : String := "ryn.friend-feed-wire.v1"

def maxPublications : Nat := 512

def maxSubscriptions : Nat := 512

def peerErrors : List String :=
  ["feed_publication_unavailable", "feed_publication_changed", "feed_content_changed",
    "feed_results_changed", "feed_cursor_invalid", "feed_friend_inactive"]

/-- What the feed uses of its libraries, and the publisher's own id. -/
structure Platform where
  peerId : String
  /-- `digest`: SHA-256 of the canonical JSON. -/
  digest : Json → String
  sha256 : Bytes → String
  /-- `int` of a text, none where it raises. -/
  int : String → Option Int
  /-- A clock reading as a JSON number. -/
  number : Rat → Json
  /-- `peer_box.open_sealed` of a wire from the holder of a messaging key. -/
  openSealed : String → Json → Option Bytes
  /-- `json.loads`, none where it raises. -/
  loads : Bytes → Option Json
  /-- `peer_box.seal` to the holder of a messaging key, with its random nonce. -/
  sealFor : String → Json → Nat → Json
  b64encode : Bytes → String

/-- A `FeedError` carries its code. -/
def require (q : Prop) [Decidable q] (code : String) : Except String Unit :=
  Checked.require code q

@[simp] theorem require_ok {q : Prop} [Decidable q] {code : String} {u : Unit} :
    require q code = .ok u ↔ q :=
  Checked.require_ok

/-- `re.fullmatch("[a-f0-9]{32}", ..)`. -/
def isIdentity (text : String) : Bool :=
  text.toList.length = 32 &&
    text.toList.all fun c => ('0' ≤ c && c ≤ '9') || ('a' ≤ c && c ≤ 'f')

/-- `identity`. -/
def identity (value : Json) : Except String String := do
  let text ← Checked.demand "feed_identity_invalid" value.asStr?
  require (isIdentity text) "feed_identity_invalid"
  pure text

/-- `revision`. -/
def revision (value : Json) : Except String Nat := do
  let n ← Checked.demand "feed_revision_invalid" value.asInt?
  require (0 ≤ n) "feed_revision_invalid"
  pure n.toNat

/-! ### The store -/

structure Card where
  libraryId : String
  sha256 : String
  sizeBytes : Nat
  /-- The other fields: a title, a summary, a file name and so on. -/
  details : List (String × Json)
  deriving DecidableEq

structure Audience where
  allFriends : Bool
  relationshipIds : List String
  deriving DecidableEq

structure Draft where
  card : Card
  audience : Audience
  deriving DecidableEq

/-- A published snapshot. -/
structure Publication where
  id : String
  revision : Nat
  card : Card
  audience : Audience
  publishedAt : Rat
  updatedAt : Rat
  deriving DecidableEq

structure Row where
  id : String
  draft : Option Draft
  published : Option Publication
  stopped : Bool
  revision : Nat
  operationId : String
  operationDigest : String
  deriving DecidableEq

/-- A row under its own identifier. -/
def Row.Keyed (id : String) (row : Row) : Prop :=
  row.id = id ∧ ∀ publication, row.published = some publication → publication.id = id

/-- The feed store. -/
structure Publications where
  rows : Dict String Row
  erased : List String
  keyed : ∀ id row, rows.get? id = some row → row.Keyed id
  bounded : rows.entries.length ≤ maxPublications

def Publications.empty : Publications where
  rows := .empty
  erased := []
  keyed := nofun
  bounded := Nat.zero_le _

structure Relationship where
  relationshipId : String
  peerId : String
  messagingPub : String
  active : Bool
  deriving DecidableEq

/-- The friends store: each relationship under its own identifier. -/
structure Friends where
  relationship : String → Option Relationship
  keyed : ∀ rid row, relationship rid = some row → row.relationshipId = rid

/-- A publisher: its feed, its friends and its library. -/
structure Node where
  feed : Publications
  friends : Friends
  resolve : String → Option Bytes

namespace Node

variable (p : Platform) (node : Node)

/-- `active`, for the relationship of a given peer where there is one. -/
def active (rid : String) (peerId : Option String) : Except String Relationship := do
  let rid ← identity (.str rid)
  let row ← Checked.demand "feed_friend_inactive" (node.friends.relationship rid)
  require (row.active = true ∧ ∀ peer ∈ peerId, row.peerId = peer) "feed_friend_inactive"
  pure row

/-- `_body`. -/
def body (card : Card) : Except String Bytes := do
  let body := (node.resolve card.libraryId).getD []
  require (body.length = card.sizeBytes ∧ p.sha256 body = card.sha256) "feed_content_changed"
  pure body

end Node

/-! ### The owner's edits -/

/-- `audience`. -/
def Node.audience (node : Node) (value : Audience) : Except String Audience := do
  require (value.relationshipIds.length ≤ maxSubscriptions) "feed_audience_invalid"
  require (if value.allFriends then value.relationshipIds = [] else value.relationshipIds ≠ [])
    "feed_audience_invalid"
  value.relationshipIds.forM fun rid => do
    let _ ← node.active rid none
    pure ()
  pure { value with
    relationshipIds := value.relationshipIds.dedup.insertionSort fun a b => a ≤ b }

inductive Edit
  | saveDraft (value : Draft)
  | publish (confirmAllFriends : Bool) (now : Rat)
  | stop

/-- The `apply` of `save_draft`, `publish` and `stop`, on a row with its new
revision. -/
def Edit.apply (p : Platform) (node : Node) (id : String) (row : Row) :
    Edit → Except String Row
  | .saveDraft value => pure { row with draft := some value }
  | .publish confirmAllFriends now => do
      let draft ← Checked.demand "feed_draft_required" row.draft
      let audience ← node.audience draft.audience
      require (audience.allFriends = true → confirmAllFriends = true)
        "feed_future_friends_confirmation_required"
      let _ ← node.body p draft.card
      let publication : Publication :=
        { id, revision := row.revision, card := draft.card, audience
          publishedAt := (row.published.map Publication.publishedAt).getD now
          updatedAt := now }
      pure { row with published := some publication, stopped := false }
  | .stop => do
      require (row.published.isSome = true) "feed_publication_unavailable"
      pure { row with stopped := true }

/-- The row an edit starts from. -/
def Row.fresh (id : String) : Row :=
  { id, draft := none, published := none, stopped := false, revision := 0, operationId := ""
    operationDigest := "" }

/-- The row an edit works on. -/
def Row.revised (row : Row) (expectedRevision : Nat) : Row :=
  { row with revision := expectedRevision + 1 }

/-- The row an edit leaves. -/
def Row.signed (row : Row) (operationId operationDigest : String) : Row :=
  { row with operationId, operationDigest }

theorem Row.fresh_keyed (id : String) (expectedRevision : Nat) :
    ((Row.fresh id).revised expectedRevision).Keyed id := by
  refine ⟨rfl, ?_⟩
  nofun

theorem Edit.apply_keyed {p : Platform} {node : Node} {id : String} {row row' : Row} {edit : Edit}
    (h : edit.apply p node id row = .ok row') (hrow : row.Keyed id) : row'.Keyed id := by
  cases edit with
  | saveDraft value =>
    obtain rfl := pure_ok.mp h
    exact hrow
  | publish confirmAllFriends now =>
    simp only [Edit.apply, bind_ok] at h
    obtain ⟨draft, _, audience, _, _, _, _, _, h⟩ := h
    obtain rfl := pure_ok.mp h
    refine ⟨hrow.1, ?_⟩
    intro publication hpublication
    obtain rfl := Option.some.inj hpublication
    rfl
  | stop =>
    simp only [Edit.apply, bind_ok] at h
    obtain ⟨_, _, h⟩ := h
    obtain rfl := pure_ok.mp h
    exact hrow

theorem Row.Keyed.signed {id : String} {row : Row} (h : row.Keyed id)
    (operationId operationDigest : String) : (row.signed operationId operationDigest).Keyed id :=
  h

/-- A row joins the store. -/
def Publications.put (feed : Publications) (id : String) (row : Row) (hrow : row.Keyed id)
    (hroom : id ∈ feed.rows.keys ∨ feed.rows.entries.length < maxPublications) : Publications :=
  { feed with
    rows := feed.rows.set id row
    keyed := by
      intro other row' hget
      rw [Dict.get?_set] at hget
      split at hget
      · next he =>
        obtain rfl := Option.some.inj hget
        rw [he]
        exact hrow
      · exact feed.keyed other row' hget
    bounded := by
      have hkeys : (feed.rows.set id row).keys.length ≤ maxPublications := by
        show ((Dict.assign id row feed.rows.entries).map Prod.fst).length ≤ _
        rw [Dict.map_fst_assign]
        have hbounded := feed.bounded
        split
        · rw [List.length_map]
          exact hbounded
        · next hnew =>
          rcases hroom with hold | hlt
          · exact absurd hold hnew
          · rw [List.length_append, List.length_map, List.length_singleton]
            exact hlt
      rwa [Dict.keys, List.length_map] at hkeys }

/-- The row an edit is about, with the operation that repeats one answered. -/
def Node.change (p : Platform) (node : Node) (id operationId : String) (expectedRevision : Nat)
    (request : Json) (edit : Edit) : Except String (Node × Row) := do
  let id ← identity (.str id)
  let operationId ← identity (.str operationId)
  require (id ∉ node.feed.erased) "feed_publication_erased"
  match hprevious : node.feed.rows.get? id with
  | some previous =>
      if previous.operationId = operationId then do
        require (previous.operationDigest = p.digest request) "feed_operation_conflict"
        pure (node, previous)
      else do
        require (previous.revision = expectedRevision) "feed_revision_conflict"
        match happly : edit.apply p node id (previous.revised expectedRevision) with
        | .error code => .error code
        | .ok row =>
            have hrow := Edit.apply_keyed happly (node.feed.keyed id previous hprevious)
            let row := row.signed operationId (p.digest request)
            pure ({ node with
              feed := node.feed.put id row (hrow.signed _ _)
                (.inl (Dict.mem_keys_of_get? hprevious)) }, row)
  | none => do
      require (0 = expectedRevision) "feed_revision_conflict"
      if hroom : node.feed.rows.entries.length < maxPublications then
        match happly : edit.apply p node id ((Row.fresh id).revised expectedRevision) with
        | .error code => .error code
        | .ok row =>
            have hrow := Edit.apply_keyed happly (Row.fresh_keyed id expectedRevision)
            let row := row.signed operationId (p.digest request)
            pure ({ node with feed := node.feed.put id row (hrow.signed _ _) (.inr hroom) }, row)
      else .error "feed_capacity_exhausted"

/-! ### A friend's requests -/

/-- `permitted`. -/
def Row.permitted (row : Row) (rid : String) : Option Publication :=
  match row.published with
  | some publication =>
      if row.stopped = false ∧
          (publication.audience.allFriends = true ∨ rid ∈ publication.audience.relationshipIds)
      then some publication
      else none
  | none => none

/-- What an identifier stands for, to a friend. -/
def Node.visible (node : Node) (rid id : String) : Option Publication :=
  (node.feed.rows.get? id).bind fun row => row.permitted rid

/-- `authorize`; a revision that is not given is null. -/
def Node.authorize (node : Node) (identifier : Json) (relationship : Relationship)
    (expectedRevision : Json) : Except String Publication := do
  let relationship ← node.active relationship.relationshipId (some relationship.peerId)
  let id ← identity identifier
  let publication ← Checked.demand "feed_publication_unavailable"
    (node.visible relationship.relationshipId id)
  if expectedRevision = .null then pure publication
  else do
    let expected ← revision expectedRevision
    require (publication.revision = expected) "feed_publication_changed"
    pure publication

/-- `peer_row`: the card without the publisher's library identifier. -/
def peerRow (p : Platform) (publication : Publication) : Json :=
  .object [("id", .str publication.id), ("revision", .int publication.revision),
    ("published_at", p.number publication.publishedAt),
    ("updated_at", p.number publication.updatedAt),
    ("card", .object (("sha256", .str publication.card.sha256) ::
      ("size_bytes", .int publication.card.sizeBytes) :: publication.card.details))]

/-- The order of a page: newest first, and by identifier. -/
def Publication.before (a b : Publication) : Prop :=
  b.publishedAt < a.publishedAt ∨ a.publishedAt = b.publishedAt ∧ a.id ≤ b.id

instance : DecidableRel Publication.before := fun _ _ =>
  inferInstanceAs (Decidable (_ ∨ _ ∧ _))

/-- The publications permitted to a friend, as they stand in the store. -/
def Node.permittedRows (node : Node) (rid : String) : List Publication :=
  node.feed.rows.values.filterMap fun row => row.permitted rid

def catalogue (rows : List Publication) : Json :=
  .object (rows.map fun row => (row.id, .int row.revision))

/-- Where a page starts. -/
def readCursor (p : Platform) (generation : String) (count : Nat) (cursor : Json) :
    Except String Nat :=
  if cursor.truthy = false then pure 0
  else
    match cursor.asStr?.map fun text => text.splitOn ":" with
    | some [prior, offsetText] => do
        let offset ← Checked.demand "feed_cursor_invalid" (p.int offsetText)
        require (prior = generation) "feed_results_changed"
        require (0 ≤ offset ∧ offset ≤ count) "feed_cursor_invalid"
        pure offset.toNat
    | _ => .error "feed_cursor_invalid"

/-- `page`. -/
def Node.page (p : Platform) (node : Node) (relationship : Relationship) (cursor : Json) :
    Except String Json := do
  let relationship ← node.active relationship.relationshipId (some relationship.peerId)
  let rows := (node.permittedRows relationship.relationshipId).insertionSort Publication.before
  let generation := p.digest (catalogue rows)
  let offset ← readCursor p generation rows.length cursor
  pure (.object [("rows", .arr (((rows.drop offset).take 20).map (peerRow p))),
    ("catalogue", catalogue rows), ("generation", .str generation),
    ("next_cursor", .str
      (if offset + 20 < rows.length then generation ++ ":" ++ toString (offset + 20) else ""))])

/-- The request in a sealed wire. -/
def readRequest (p : Platform) (relationship : Relationship) (wire : Json) : Option Json := do
  let plain ← p.openSealed relationship.messagingPub wire
  if plain.length ≤ 4096 then
    let request ← p.loads plain
    let requestId ← (request.get? "request_id").bind Json.asStr?
    if isIdentity requestId ∧ request.get? "version" = some (.str wireVersion) ∧
        request.get? "from" = some (.str relationship.peerId) ∧
        request.get? "to" = some (.str p.peerId) ∧
        request.get? "relationship_id" = some (.str relationship.relationshipId) then
      some request
    else none
  else none

/-- What `respond` holds of a request before it checks a fetched publication again. -/
inductive Stage
  | listed (page : Json)
  | fetched (publication : Publication) (body : Bytes)

/-- The first half of `respond`: a page, or a publication and its body. -/
def Node.perform (p : Platform) (node : Node) (relationship : Relationship) (request : Json) :
    Except String Stage :=
  if request.get? "action" = some (.str "list") then do
    pure (.listed (← node.page p relationship ((request.get? "cursor").getD (.str ""))))
  else if request.get? "action" = some (.str "fetch") then do
    let publication ← node.authorize ((request.get? "id").getD .null) relationship
      ((request.get? "revision").getD .null)
    pure (.fetched publication (← node.body p publication.card))
  else .error "feed_request_rejected"

/-- The second half: resolving takes time, so the friendship and the publication
are checked again on the node as it is then. -/
def Node.conclude (p : Platform) (node : Node) (relationship : Relationship) :
    Stage → Except String Json
  | .listed page => pure page
  | .fetched publication body => do
      let _ ← node.authorize (.str publication.id) relationship (.int publication.revision)
      pure (.object [("publication", peerRow p publication),
        ("data_base64", .str (p.b64encode body))])

/-- A request that was opened, with what it came to so far. -/
structure Work where
  relationship : Relationship
  request : Json
  stage : Except String Stage

/-- A response, sealed for the friend. -/
def sealedResponse (p : Platform) (relationship : Relationship) (request result : Json)
    (random : Nat) : Json :=
  p.sealFor relationship.messagingPub
    (.object [("version", .str wireVersion),
      ("request_id", (request.get? "request_id").getD .null),
      ("relationship_id", .str relationship.relationshipId), ("result", result)]) random

/-- The start of `respond`, up to the body of a publication. -/
def Node.accept (p : Platform) (node : Node) (wire : Json) (relationship : Relationship) :
    Except String Work := do
  let relationship ← node.active relationship.relationshipId (some relationship.peerId)
  let request ← Checked.demand "feed_request_rejected" (readRequest p relationship wire)
  pure { relationship, request, stage := node.perform p relationship request }

/-- The end of `respond`: an error a peer may know is sealed as a result. -/
def Node.complete (p : Platform) (node : Node) (work : Work) (random : Nat) :
    Except String Json :=
  match work.stage >>= node.conclude p work.relationship with
  | .ok result => pure (sealedResponse p work.relationship work.request result random)
  | .error code =>
      if code ∈ peerErrors then
        pure (sealedResponse p work.relationship work.request
          (.object [("error_code", .str code)]) random)
      else .error code

/-- `respond`, from a node that may have moved on once the content is resolved. -/
def Node.respond (p : Platform) (node later : Node) (wire : Json) (relationship : Relationship)
    (random : Nat) : Except String Json := do
  let work ← node.accept p wire relationship
  later.complete p work random

end Feed
