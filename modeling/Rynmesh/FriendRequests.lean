import Rynmesh.FriendInvites

/-!
# Authenticated friend requests

`friends/crypto.py`, `verify_request` of `friends/service.py` and `remember_nonce`
of `friends/store.py`: a friend signs each request with the secret of the
relationship, and the receiver accepts each at most once.

* `authHeaders` and `verifyAuth` make and check the MAC, over the lines of `message`;
* `rememberNonce` keeps the nonces of a relationship while their requests are valid;
* `World` is one node with its clock, what was signed for it and what it accepted;
  `Step` interleaves the requests with everything else that happens to it.

Nothing but `rememberNonce` writes the nonces, and a restart reads the same file.
-/

namespace FriendRequests

open Checked

abbrev Bytes := List UInt8

structure Platform where
  /-- `str.lower`. -/
  lower : String → String
  /-- `str.upper`. -/
  upper : String → String
  /-- `int` of a text, none where it raises. -/
  parseInt : String → Option Int
  /-- The SHA-256 of a body, in hexadecimal. -/
  sha256 : Bytes → String
  /-- The HMAC of a text, under the key that is derived from a secret. -/
  mac : Bytes → String → String

variable (p : Platform)

/-! ### The MAC -/

/-- `AUTH_WINDOW_SECONDS`. -/
def authWindow : Nat := 120

/-- The signed arguments of `auth_headers`. -/
structure Fields where
  method : String
  path : String
  body : Bytes
  sender : String
  receiver : String
  timestamp : Int
  nonce : String

def fieldLines (f : Fields) : List String :=
  ["ryn.friend-request.v1", f.sender, f.receiver, p.upper f.method, f.path, f.timestamp.repr,
    f.nonce, p.sha256 f.body]

/-- `"\n".join`. -/
def joinLines : List String → List Char
  | [] => []
  | [line] => line.toList
  | line :: rest => line.toList ++ '\n' :: joinLines rest

/-- The text that is signed. -/
def message (f : Fields) : String := String.ofList (joinLines (fieldLines p f))

/-- `auth_headers`; the identifier of the relationship is not among the lines. -/
def authHeaders (secret : Bytes) (relationshipId : String) (f : Fields) :
    List (String × String) :=
  [("X-Ryn-Friend-Id", relationshipId), ("X-Ryn-Friend-Peer", f.sender),
    ("X-Ryn-Friend-Time", f.timestamp.repr), ("X-Ryn-Friend-Nonce", f.nonce),
    ("X-Ryn-Friend-MAC", p.mac secret (message p f))]

/-- `verify_auth`. -/
def verifyAuth (secret : Bytes) (f : Fields) (signature : String) (now : Int) :
    Except String Unit := do
  require "friend_auth_failed" ((now - f.timestamp).natAbs ≤ authWindow)
  require "friend_auth_failed" (signature = p.mac secret (message p f))

/-! ### Nonces -/

/-- The nonces of a relationship: those of an older version have no time. -/
inductive Remembered
  | legacy (nonces : List String)
  | dated (expiries : Dict String Int)

/-- With a full window for those that have no time. -/
def Remembered.expiries (now : Int) : Remembered → Dict String Int
  | .legacy nonces => nonces.foldl (fun d nonce => d.set nonce (now + 120)) .empty
  | .dated expiries => expiries

/-- What is still remembered of a relationship. -/
def seen (nonces : Dict String Remembered) (relationshipId : String) (now : Int) :
    Dict String Int :=
  (((nonces.get? relationshipId).getD (.dated .empty)).expiries now).filter
    fun _ expires => now ≤ expires

def nonceLimit : Nat := 512

/-- `remember_nonce`, none where it refuses. -/
def rememberNonce (nonces : Dict String Remembered) (relationshipId nonce : String)
    (now timestamp : Int) : Option (Dict String Remembered) :=
  if ((seen nonces relationshipId now).get? nonce).isSome ∨
      nonceLimit ≤ (seen nonces relationshipId now).entries.length then none
  else some (nonces.set relationshipId
    (.dated ((seen nonces relationshipId now).set nonce (timestamp + 120))))

/-! ### Requests -/

/-- The state of a node, in one file. -/
structure State where
  friends : Invites.Store
  nonces : Dict String Remembered

structure Request where
  path : String
  body : Bytes
  headers : List (String × String)

/-- The headers by lower-case names. -/
def Request.normalized (request : Request) : Dict String String :=
  request.headers.foldl (fun d header => d.set (p.lower header.1) header.2) .empty

def Request.header (request : Request) (name fallback : String) : String :=
  ((request.normalized p).get? name).getD fallback

def Request.relationshipId (request : Request) : String := request.header p "x-ryn-friend-id" ""

def Request.sender (request : Request) : String := request.header p "x-ryn-friend-peer" ""

def Request.nonce (request : Request) : String := request.header p "x-ryn-friend-nonce" ""

def Request.signature (request : Request) : String := request.header p "x-ryn-friend-mac" ""

/-- `store.relationship`: an active one. -/
def State.relationship (state : State) (relationshipId : String) : Option Invites.Relationship :=
  (state.friends.relationships.get? relationshipId).filter fun record => record.status = .active

/-- What a request is to be signed over. -/
def Request.fields (request : Request) (receiver : String) (timestamp : Int) : Fields :=
  ⟨"POST", request.path, request.body, request.sender p, receiver, timestamp, request.nonce p⟩

/-- What `verify_request` accepted: the relationship, its secret and the time of the request. -/
structure Verified where
  relationship : Invites.Relationship
  secret : Bytes
  timestamp : Int

/-- `verify_request` by the peer `receiver`. -/
def verifyRequest (receiver : String) (state : State) (now : Int) (request : Request) :
    Except String (State × Verified) := do
  let relationship ← demand "friend_auth_failed" (state.relationship (request.relationshipId p))
  let secret ← demand "friend_auth_failed"
    (state.friends.secrets.get? (.relationship (request.relationshipId p)))
  require "friend_auth_failed" (secret ≠ [] ∧ relationship.peerId = request.sender p)
  let timestamp ← demand "friend_auth_failed"
    (p.parseInt (request.header p "x-ryn-friend-time" "0"))
  verifyAuth p secret (request.fields p receiver timestamp) (request.signature p) now
  require "friend_auth_failed" (request.nonce p ≠ "" ∧ (request.nonce p).length ≤ 128)
  let nonces ← demand "friend_auth_failed"
    (rememberNonce state.nonces (request.relationshipId p) (request.nonce p) now timestamp)
  return ({ state with nonces }, ⟨relationship, secret, timestamp⟩)

/-! ### A node and what happens to it -/

/-- A request that a holder of a secret signed. -/
structure Signing where
  secret : Bytes
  relationshipId : String
  fields : Fields

/-- A request that was accepted. -/
structure Accepted where
  request : Request
  verified : Verified
  now : Int

structure World where
  state : State
  /-- Seconds, as the node reads them. -/
  clock : Int
  signed : List Signing
  /-- Newest first. -/
  accepted : List Accepted

/-- A signature that fits a text was made by someone who signed the text. -/
def Genuine (w : World) (secret : Bytes) (signature : String) : Prop :=
  ∀ text, signature = p.mac secret text →
    ∃ signing ∈ w.signed, signing.secret = secret ∧ message p signing.fields = text

/-- Every secret was drawn for one relationship. -/
def Drawn (owner : Bytes → String) (friends : Invites.Store) : Prop :=
  ∀ relationshipId secret, friends.secrets.get? (.relationship relationshipId) = some secret →
    owner secret = relationshipId

/-- Nothing in the arguments of `auth_headers` ends a line. -/
def OneLine (f : Fields) : Prop :=
  ∀ line ∈ [f.sender, f.receiver, p.upper f.method, f.path, f.nonce], '\n' ∉ line.toList

/-- What happens to a node: time goes on, a friend signs a request, the store is used for
anything else, or a request is accepted.  A request that is refused changes nothing. -/
inductive Step (owner : Bytes → String) (receiver : String) (w : World) : World → Prop
  | tick (clock : Int) (h : w.clock ≤ clock) : Step owner receiver w { w with clock }
  | sign (signing : Signing) (howner : owner signing.secret = signing.relationshipId)
      (hline : OneLine p signing.fields) :
      Step owner receiver w { w with signed := signing :: w.signed }
  | friends (friends : Invites.Store) (h : Drawn owner friends) :
      Step owner receiver w { w with state := { w.state with friends } }
  | accept (request : Request) {state : State} {verified : Verified}
      (h : verifyRequest p receiver w.state w.clock request = .ok (state, verified))
      (hgenuine : Genuine p w verified.secret (request.signature p)) :
      Step owner receiver w
        { w with state, accepted := ⟨request, verified, w.clock⟩ :: w.accepted }

/-- The runs of a node from a state, which an older version may have left. -/
inductive Reachable (owner : Bytes → String) (receiver : String) (start : State) (clock : Int) :
    World → Prop
  | start (h : Drawn owner start.friends) :
      Reachable owner receiver start clock ⟨start, clock, [], []⟩
  | step {w next : World} (h : Reachable owner receiver start clock w)
      (hstep : Step p owner receiver w next) : Reachable owner receiver start clock next

end FriendRequests
