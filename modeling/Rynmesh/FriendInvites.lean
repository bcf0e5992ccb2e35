import Rynmesh.CheckedComputation
import Rynmesh.InsertionDict

/-!
# Friend invitations

`friends/service.py` and `friends/store.py`: an inviter creates an invite, a joiner
who has its URI sends a join request, the inviter accepts it and answers with the
relationship and its secret.

* `Store` is the state of one node, and its operations are those of `FriendStore`;
* `Node.join`, `Node.accept` and `Node.receive` are the three parts of joining;
* `World` holds the stores of all nodes that run this code, what they sent, and
  what they did, newest first; `Step` interleaves them with joiners that do not.

The invites that are joined come from nodes that run this code.  Sealing and
signing are symbolic: a box opens for the pair of keys and the label it was sealed
under, and a signature of such a node is on something it sent.  Fresh identifiers
are new.  Nonces, cards, legacy files and the delivery of a revocation are left out.
-/

namespace Invites

open Checked

abbrev Bytes := List UInt8

def maxRelationships : Nat := 500

/-- What is common to all nodes. -/
structure Platform where
  /-- The peers that run this code. -/
  honest : String → Prop
  /-- The public messaging key of such a peer. -/
  messagingPub : String → String
  secretHash : Bytes → String
  /-- `validate_endpoint`, none where it raises. -/
  validEndpoint : String → Option String
  /-- `base64.b64decode` with validation, none where it raises. -/
  decode : String → Option Bytes

def require (q : Prop) [Decidable q] (code : String) : Except String Unit :=
  Checked.require code q

@[simp] theorem require_ok {q : Prop} [Decidable q] {code : String} {u : Unit} :
    require q code = .ok u ↔ q :=
  Checked.require_ok

/-! ### The store -/

inductive InviteStatus
  | active
  | used
  | cancelled
  | expired
  deriving DecidableEq

/-- A stored invite; times are ISO texts. -/
structure Invite where
  secretHash : String
  expiresAt : String
  status : InviteStatus
  relationshipId : Option String
  deriving DecidableEq

inductive RelationshipStatus
  | active
  | revoked
  deriving DecidableEq

structure Relationship where
  relationshipId : String
  inviteId : String
  peerId : String
  nodeName : String
  endpoint : String
  messagingPub : String
  status : RelationshipStatus
  createdAt : String
  revokedAt : Option String
  deriving DecidableEq

/-- A key of the secrets: a relationship, or the revocation of one. -/
inductive SecretName
  | relationship (relationshipId : String)
  | revocation (relationshipId : String)
  deriving DecidableEq

structure Store where
  invites : Dict String Invite
  relationships : Dict String Relationship
  secrets : Dict SecretName Bytes

namespace Store

variable (s : Store)

def empty : Store := ⟨.empty, .empty, .empty⟩

/-- `put_invite`. -/
def putInvite (inviteId : String) (invite : Invite) : Store :=
  { s with invites := s.invites.set inviteId invite }

/-- `cancel_invite`. -/
def cancelInvite (inviteId : String) : Store :=
  match s.invites.get? inviteId with
  | some invite =>
      if invite.status = .active then s.putInvite inviteId { invite with status := .cancelled }
      else s
  | none => s

/-- `consume_invite`, which nothing calls. -/
def consumeInvite (inviteId secretHash now : String) : Store × Bool :=
  match s.invites.get? inviteId with
  | some invite =>
      if invite.status ≠ .active ∨ invite.secretHash ≠ secretHash then (s, false)
      else if invite.expiresAt ≤ now then
        (s.putInvite inviteId { invite with status := .expired }, false)
      else (s.putInvite inviteId { invite with status := .used }, true)
  | none => (s, false)

/-- A relationship with its secret, as both writers store them. -/
def addRelationship (record : Relationship) (secret : Bytes) : Store :=
  { s with
    relationships := s.relationships.set record.relationshipId record
    secrets := s.secrets.set (.relationship record.relationshipId) secret }

/-- `put_relationship`. -/
def putRelationship (record : Relationship) (secret : Bytes) : Except String Store := do
  require (∀ old ∈ s.relationships.get? record.relationshipId, old.status ≠ .revoked)
    "friend_revoked"
  pure (s.addRelationship record secret)

/-- `accept_invite`: the record and the secret are the stored ones when the invite was
used by the same joiner before. -/
def acceptInvite (inviteId secretHash now : String) (proposed : Relationship) (secret : Bytes) :
    Except String (Store × Relationship × Bytes) := do
  let invite ← Checked.demand "invalid_join" (s.invites.get? inviteId)
  require (invite.secretHash = secretHash) "invalid_join"
  match invite.status with
  | .used => do
      let old ← Checked.demand "invite_used"
        (invite.relationshipId.bind fun rid => s.relationships.get? rid)
      require
        (old.peerId = proposed.peerId ∧ old.messagingPub = proposed.messagingPub) "invite_used"
      require (old.status = .active) "friend_revoked"
      let stored ← Checked.demand "friend_credentials_unavailable"
        (s.secrets.get? (.relationship old.relationshipId))
      require (stored ≠ []) "friend_credentials_unavailable"
      pure (s, old, stored)
  | .cancelled => .error "invite_cancelled"
  | .expired => .error "invite_expired"
  | .active => do
      require (¬ invite.expiresAt ≤ now) "invite_expired"
      require (s.relationships.entries.length < maxRelationships) "friend_capacity_exhausted"
      let used := s.putInvite inviteId
        { invite with status := .used, relationshipId := some proposed.relationshipId }
      pure (used.addRelationship proposed secret, proposed, secret)

/-- `list_relationships`: newest first. -/
def listRelationships : List Relationship :=
  s.relationships.values.insertionSort fun a b => b.createdAt ≤ a.createdAt

/-- `revoke`. -/
def revoke (relationshipId revokedAt : String) (retainSecret : Bool) : Store :=
  match s.relationships.get? relationshipId with
  | some record =>
      if record.status = .revoked then s
      else
        let secrets := s.secrets.erase (.relationship relationshipId)
        { s with
          relationships := s.relationships.set relationshipId
            { record with status := .revoked, revokedAt := some revokedAt }
          secrets :=
            match s.secrets.get? (.relationship relationshipId) with
            | some secret =>
                if retainSecret then secrets.set (.revocation relationshipId) secret else secrets
            | none => secrets }
  | none => s

end Store

/-! ### Joining -/

/-- The signed part of an invite. -/
structure InvitePayload where
  inviteId : String
  peerId : String
  nodeName : String
  endpoint : String
  messagingPub : String
  expiresAt : String
  secretHash : String
  deriving DecidableEq

/-- A payload under a signature that verifies for its key. -/
structure SignedInvite where
  publicKey : String
  payload : InvitePayload
  deriving DecidableEq

/-- A sealed text: who sealed it, for whom and under which label. -/
structure Box where
  sender : String
  receiver : String
  label : String
  plain : Bytes
  deriving DecidableEq

/-- `open_sealed`: both ends derive the key from the pair and the label. -/
def Box.unseal (box : Box) (own other label : String) : Option Bytes :=
  if box.sender = other ∧ box.receiver = own ∧ box.label = label then some box.plain else none

def messageLabel : String := "rynmesh-peer-msg-v1"

/-- `invite_secret_info`. -/
def inviteSecretInfo (joinerPeerId : String) : String :=
  "rynmesh-friend-invite-secret-v1|" ++ joinerPeerId

/-- `str.rstrip("/")`. -/
def trimmed (text : String) : String :=
  String.ofList (text.toList.reverse.dropWhile (· = '/')).reverse

def joinKind : String := "ryn.friend-join.v2"

/-- A join request, and the key whose signature it bears. -/
structure Join where
  kind : String
  invite : SignedInvite
  box : Box
  peerId : String
  nodeName : String
  endpoint : String
  messagingPub : String
  timestamp : Int
  permissionsMatch : Bool
  proofKey : String
  deriving DecidableEq

/-- The inviter's answer, and the key that signed it. -/
structure Answer where
  publicKey : String
  relationshipId : String
  inviteId : String
  receiver : String
  messagingPub : String
  box : Box
  deriving DecidableEq

namespace Node

variable (p : Platform) (self : String) (s : Store)

/-- The prior relationship of an invite, if there is one. -/
def prior (payload : InvitePayload) : Option Relationship :=
  s.listRelationships.find? fun row =>
    row.inviteId = payload.inviteId && row.peerId = payload.peerId

/-- The first half of `join`: the relationship the invite led to, or a request. -/
def join (nodeName endpoint : String) (invite : SignedInvite) (secret : Bytes)
    (timestamp : Int) : Except String (Relationship ⊕ Join) := do
  require (invite.payload.peerId = invite.publicKey ∧
    invite.payload.secretHash = p.secretHash secret) "invalid_invite"
  let _ ← Checked.demand "unsafe_endpoint" (p.validEndpoint invite.payload.endpoint)
  match prior s invite.payload with
  | some row => do
      require (row.status = .active) "friend_revoked"
      pure (.inl row)
  | none => do
      let endpoint ← Checked.demand "unsafe_endpoint" (p.validEndpoint endpoint)
      pure (.inr
        { kind := joinKind, invite, peerId := self, nodeName, endpoint, timestamp
          box := ⟨p.messagingPub self, invite.payload.messagingPub, inviteSecretInfo self, secret⟩
          messagingPub := p.messagingPub self, permissionsMatch := true, proofKey := self })

/-- The checks of `accept`: the secret the join carries. -/
def admitted (body : Join) (clock : Int) : Except String Bytes := do
  require (body.kind = joinKind) "invalid_join"
  let secret ← Checked.demand "invalid_join"
    (body.box.unseal (p.messagingPub self) body.messagingPub (inviteSecretInfo body.peerId))
  require (body.proofKey = body.peerId ∧ body.permissionsMatch = true) "invalid_join"
  require ((clock - body.timestamp).natAbs ≤ 120) "invalid_join"
  require (body.invite.publicKey = self ∧ body.invite.payload.peerId = self ∧
    body.invite.payload.secretHash = p.secretHash secret ∧ body.peerId ≠ self) "invalid_join"
  let key ← Checked.demand "invalid_join" (p.decode body.messagingPub)
  require (key.length = 32) "invalid_join"
  let _ ← Checked.demand "invalid_join" (p.validEndpoint body.endpoint)
  pure secret

/-- `accept`, with the identifier and the secret it draws. -/
def accept (body : Join) (clock : Int) (now relationshipId : String) (drawn : Bytes) :
    Except String (Store × Answer) := do
  let secret ← admitted p self body clock
  let (s, record, stored) ← s.acceptInvite body.invite.payload.inviteId (p.secretHash secret) now
    { relationshipId, inviteId := body.invite.payload.inviteId, peerId := body.peerId
      nodeName := if body.nodeName = "" then "Friend" else body.nodeName
      endpoint := trimmed body.endpoint, messagingPub := body.messagingPub
      status := .active, createdAt := now, revokedAt := none } drawn
  pure (s,
    { publicKey := self, relationshipId := record.relationshipId
      inviteId := body.invite.payload.inviteId, receiver := body.peerId
      messagingPub := p.messagingPub self
      box := ⟨p.messagingPub self, record.messagingPub, messageLabel, stored⟩ })

/-- The second half of `join`: the answer to a request that is under way. -/
def receive (body : Join) (answer : Answer) (now : String) : Except String Store := do
  let payload := body.invite.payload
  require (answer.publicKey = payload.peerId ∧ answer.inviteId = payload.inviteId ∧
    answer.receiver = self ∧ answer.messagingPub = payload.messagingPub) "friend_acceptance_invalid"
  let endpoint ← Checked.demand "unsafe_endpoint" (p.validEndpoint payload.endpoint)
  let secret ← Checked.demand "could_not_join_friend"
    (answer.box.unseal (p.messagingPub self) answer.messagingPub messageLabel)
  require (secret.length = 32) "friend_acceptance_invalid"
  s.putRelationship
    { relationshipId := answer.relationshipId, inviteId := payload.inviteId
      peerId := payload.peerId, nodeName := payload.nodeName, endpoint
      messagingPub := answer.messagingPub, status := .active, createdAt := now
      revokedAt := none } secret

end Node

/-! ### Runs -/

/-- What a node did. -/
inductive Event
  /-- An invite led to a new relationship, at this time. -/
  | created (peer inviteId relationshipId now : String)
  /-- An invite was cancelled or consumed, or found expired. -/
  | closed (peer inviteId : String)
  | revoked (peer relationshipId : String)
  deriving DecidableEq

structure World where
  store : String → Store
  /-- The join requests that were sent. -/
  joins : List Join
  answers : List Answer
  history : List Event

namespace World

def initial : World := ⟨fun _ => .empty, [], [], []⟩

def withStore (w : World) (peer : String) (s : Store) : World :=
  { w with store := fun other => if other = peer then s else w.store other }

/-- Whether an invite is open at a peer. -/
def Open (w : World) (peer inviteId : String) : Prop :=
  ∃ invite, (w.store peer).invites.get? inviteId = some invite ∧ invite.status = .active

/-- No node has used the identifier. -/
def Fresh (w : World) (inviteId : String) : Prop :=
  ∀ peer, (w.store peer).invites.get? inviteId = none

end World

/-- A step of a node that runs this code. -/
inductive Step (p : Platform) : World → World → Prop
  | createInvite (w : World) {peer : String} (hpeer : p.honest peer)
      (inviteId secretHash expiresAt : String) (hfresh : w.Fresh inviteId) :
      Step p w (w.withStore peer
        ((w.store peer).putInvite inviteId ⟨secretHash, expiresAt, .active, none⟩))
  | cancelInvite (w : World) {peer inviteId : String} (hopen : w.Open peer inviteId) :
      Step p w { w.withStore peer ((w.store peer).cancelInvite inviteId) with
        history := .closed peer inviteId :: w.history }
  | consumeInvite (w : World) (peer inviteId secretHash now : String)
      (hopen : w.Open peer inviteId)
      (hchange : ¬ (w.withStore peer
        ((w.store peer).consumeInvite inviteId secretHash now).1).Open peer inviteId) :
      Step p w { w.withStore peer ((w.store peer).consumeInvite inviteId secretHash now).1 with
        history := .closed peer inviteId :: w.history }
  | join (w : World) {peer : String} (hpeer : p.honest peer) (nodeName endpoint : String)
      (invite : SignedInvite) (hinvite : p.honest invite.publicKey) (secret : Bytes)
      (timestamp : Int) {body : Join}
      (h : Node.join p peer (w.store peer) nodeName endpoint invite secret timestamp =
        .ok (.inr body)) :
      Step p w { w with joins := body :: w.joins }
  /-- A request of a peer that runs this code is one it sent; others send what they like. -/
  | accept (w : World) {peer : String} (hpeer : p.honest peer) (body : Join)
      (hbody : p.honest body.proofKey → body ∈ w.joins) (clock : Int)
      (now relationshipId : String) (drawn : Bytes) (hdrawn : drawn.length = 32)
      (hfresh : ∀ answer ∈ w.answers, answer.relationshipId ≠ relationshipId)
      {s : Store} {answer : Answer}
      (h : Node.accept p peer (w.store peer) body clock now relationshipId drawn =
        .ok (s, answer)) :
      Step p w { w.withStore peer s with
        answers := answer :: w.answers
        history :=
          if answer.relationshipId = relationshipId then
            .created peer answer.inviteId relationshipId now :: w.history
          else w.history }
  /-- An answer arrives at any time after the request, any number of times. -/
  | receive (w : World) {peer : String} {body : Join} (hbody : body ∈ w.joins)
      (hown : body.peerId = peer) {answer : Answer} (hanswer : answer ∈ w.answers)
      (now : String) {s : Store}
      (h : Node.receive p peer (w.store peer) body answer now = .ok s) :
      Step p w (w.withStore peer s)
  | revoke (w : World) (peer relationshipId revokedAt : String) (retainSecret : Bool)
      (hknown : ((w.store peer).relationships.get? relationshipId).isSome = true) :
      Step p w { w.withStore peer
          ((w.store peer).revoke relationshipId revokedAt retainSecret) with
        history := .revoked peer relationshipId :: w.history }

inductive Reachable (p : Platform) : World → Prop
  | initial : Reachable p .initial
  | step {w w' : World} (h : Reachable p w) (hstep : Step p w w') : Reachable p w'

end Invites
