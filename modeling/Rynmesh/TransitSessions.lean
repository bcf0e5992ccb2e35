import Rynmesh.TransitCipher

/-!
# A target worker and the sources it talks to

`_serve_target` of `peer_transit_service.py`, for any number of orders at a
time, and the sessions that honest sources open.  The network is whoever relays:
it may bring any order and any frame, in any order and any number of times.

* `acceptOrder` checks an order and makes the session's cipher;
* `World.receive`, `World.finish`, `World.answer` and `World.acknowledge` are
  the calls of `_serve_target` after that, `World.close` is what an exception
  leads to;
* `World.openSession` and `World.send` are the sending half of a source;
* `World.log` records what a cipher has sealed.
-/

namespace Transit

/-- The operations that `_serve_target` handles. -/
inductive Operation
  | accept
  | direct

/-- A work order, and the parameters that `_serve_target` reads. -/
structure Order where
  operation : Operation
  requesterPeerId : String
  transitPeerId : String
  signedOpen : SignedPayload

/-- The worker's own settings. -/
structure Target where
  peerId : String
  messagingKey : Bytes
  allowDirect : Bool

/-- The receipt that `finish` returns, as a document. -/
def Receipt.document (r : Receipt) : Json :=
  .object [("status", .str r.status), ("session_id", .str r.sessionId),
    ("source_peer_id", .str r.sourcePeerId), ("transfer_id", .str r.transferId),
    ("filename", .str r.filename), ("size_bytes", .int r.size), ("sha256", .str r.sha256),
    ("offset_bytes", .int r.offset), ("segment_size_bytes", .int r.segmentSize),
    ("next_offset_bytes", .int r.nextOffset), ("segment_sha256", .str r.segmentSha256),
    ("prefix_sha256", .str r.prefixSha256), ("complete", .bool r.complete),
    ("duplicate", .bool r.duplicate), ("stored_path", .str r.storedPath)]

/-- Where `_serve_target` is with an order. -/
inductive Stage
  | receiving
  | received
  | finished (receipt : Receipt)
  | answered

/-- An order that is being served. -/
structure TargetSession (Key : Type) where
  opened : SessionOpen
  cipher : Cipher Key
  sink : Sink
  stage : Stage

/-- A session of a source: what it signed, its cipher, and the chunks it sends,
the next of them by the cipher's counter. -/
structure SourceSession (Key : Type) where
  opened : SessionOpen
  cipher : Cipher Key
  chunks : List Bytes

/-- A plaintext that was sealed. -/
structure Sealed (Key : Type) where
  key : Key
  direction : Direction
  sequence : Nat
  plaintext : Bytes

/-- The worker's inbox and the orders it is serving, the sessions of the sources,
the opens that were answered, and what was sealed. -/
structure World (Key : Type) where
  inbox : Inbox
  targets : Nat → Option (TargetSession Key)
  sources : Nat → Option (SourceSession Key)
  answered : List (SessionOpen × Receipt)
  log : List (Sealed Key)

variable {Key : Type} (p : Platform) (c : Crypto Key) (target : Target)

/-- The requester is whom the operation says. -/
def checkRequester (order : Order) (session : SessionOpen) : Except Failure Unit :=
  match order.operation with
  | .direct => do
      require (target.allowDirect = true) "direct path disabled by target policy"
      require (order.requesterPeerId = session.sourcePeerId)
        "direct target order source identity mismatch"
  | .accept =>
      require (order.requesterPeerId = order.transitPeerId)
        "target order transit identity mismatch"

/-- `_serve_target` up to the first frame. -/
def acceptOrder (order : Order) (now : Rat) : Except Failure (TargetSession Key) := do
  let session ← verifySessionOpen p c order.signedOpen target.peerId now
  checkRequester target order session
  let cipher ← forTarget c session target.messagingKey
  return ⟨session, cipher, .new session.sessionId session.sourcePeerId, .receiving⟩

/-- `messaging_public_key`. -/
def messagingPublicKey (key : Bytes) : String := c.b64encode (c.publicKey key)

/-- What a source signs, and the cipher it keeps; `uuid` is the `uuid4` that it
draws and `ephemeral` the key that it generates. -/
def sourceSession (uuid : Bytes) (sourcePeerId targetPeerId targetMessagingPub expiresAt : String)
    (ephemeral : Bytes) (chunks : List Bytes) : Except Failure (SourceSession Key) := do
  let cipher ← forSource c (hexText uuid) sourcePeerId targetPeerId targetMessagingPub ephemeral
  return ⟨⟨hexText uuid, sourcePeerId, targetPeerId, messagingPublicKey c ephemeral, expiresAt, 1,
    Transit.protocolVersion⟩, cipher, chunks⟩

/-- The payload of `sign_session_open`. -/
def SessionOpen.document (session : SessionOpen) : Json :=
  .object [("kind", .str "peer_transit_session_open"), ("session_id", .str session.sessionId),
    ("source_peer_id", .str session.sourcePeerId), ("target_peer_id", .str session.targetPeerId),
    ("source_ephemeral_pub", .str session.sourceEphemeralPub),
    ("expires_at", .str session.expiresAt), ("hop_limit", .int session.hopLimit),
    ("protocol_version", .str session.protocolVersion)]

namespace World

variable (w : World Key)

/-- Nothing is served yet; the inbox may hold files already. -/
def start (inbox : Inbox) : World Key := ⟨inbox, fun _ => none, fun _ => none, [], []⟩

def setTarget (inbox : Inbox) (id : Nat) (session : Option (TargetSession Key)) : World Key :=
  { w with inbox, targets := Function.update w.targets id session }

def setSource (id : Nat) (session : SourceSession Key) : World Key :=
  { w with sources := Function.update w.sources id (some session) }

/-- The order fails, or its connection is lost. -/
def close (inbox : Inbox) (sink : Sink) (id : Nat) : World Key :=
  w.setTarget (abort inbox sink).1 id none

/-- An order is taken up. -/
def serve (id : Nat) (order : Order) (now : Rat) : World Key :=
  match w.targets id, acceptOrder p c target order now with
  | none, .ok session => w.setTarget w.inbox id (some session)
  | _, _ => w

/-- One round of `receive_encrypted_stream`. -/
def receive (id : Nat) (session : TargetSession Key) (frame : Bytes) : World Key :=
  match session.cipher.openFrame c .request frame with
  | .error e =>
      if e = .transit "replayed transit frame" then w else w.close w.inbox session.sink id
  | .ok (plaintext, header, cipher) =>
      match write p w.inbox session.sink plaintext with
      | (.error _, inbox, sink) => w.close inbox sink id
      | (.ok _, inbox, sink) =>
          w.setTarget inbox id (some { session with
            cipher, sink, stage := if header.final then .received else .receiving })

/-- `sink.finish()`. -/
def finish (id : Nat) (session : TargetSession Key) : World Key :=
  match Transit.finish p w.inbox session.sink with
  | (.error _, inbox, sink) => w.close inbox sink id
  | (.ok receipt, inbox, sink) =>
      w.setTarget inbox id (some { session with sink, stage := .finished receipt })

/-- The response is sealed, whether or not it can be sent. -/
def answer (id : Nat) (session : TargetSession Key) (receipt : Receipt) : World Key :=
  let plaintext := p.dumps receipt.document
  match session.cipher.sealFrame c .response plaintext true with
  | .error _ => w.close w.inbox session.sink id
  | .ok (_, cipher) =>
      { w.setTarget w.inbox id (some { session with cipher, stage := .answered }) with
        answered := (session.opened, receipt) :: w.answered
        log := ⟨session.cipher.key, .response, session.cipher.nextSend .response, plaintext⟩ ::
          w.log }

/-- `sink.acknowledge_receipt()`. -/
def acknowledge (id : Nat) (session : TargetSession Key) : World Key :=
  w.setTarget (acknowledgeReceipt w.inbox session.sink).1 id none

/-- A new worker: the orders it was serving and its claims are gone. -/
def restart : World Key :=
  { w with inbox := { w.inbox with active := fun _ => false }, targets := fun _ => none }

/-- A source seals its next chunk; the last one is final. -/
def send (id : Nat) (session : SourceSession Key) : World Key :=
  match session.chunks[session.cipher.nextSend .request]? with
  | none => w
  | some chunk =>
      match session.cipher.sealFrame c .request chunk
        (session.cipher.nextSend .request + 1 = session.chunks.length) with
      | .error _ => w
      | .ok (_, cipher) =>
          { w.setSource id { session with cipher } with
            log := ⟨session.cipher.key, .request, session.cipher.nextSend .request, chunk⟩ ::
              w.log }

end World

/-! ### Runs -/

/-- What happens next. -/
inductive Event
  | serve (id : Nat) (order : Order) (now : Rat)
  | frame (id : Nat) (frame : Bytes)
  | finish (id : Nat)
  | answer (id : Nat)
  | acknowledge (id : Nat)
  | lose (id : Nat)
  | restart
  | openSession (id : Nat) (uuid : Bytes)
      (sourcePeerId targetPeerId targetMessagingPub expiresAt : String) (ephemeral : Bytes)
      (chunks : List Bytes)
  | send (id : Nat)

/-- One step; what does not apply changes nothing. -/
def World.step (w : World Key) : Event → World Key
  | .serve id order now => w.serve p c target id order now
  | .frame id frame =>
      match w.targets id with
      | some ⟨opened, cipher, sink, .receiving⟩ =>
          w.receive p c id ⟨opened, cipher, sink, .receiving⟩ frame
      | _ => w
  | .finish id =>
      match w.targets id with
      | some ⟨opened, cipher, sink, .received⟩ => w.finish p id ⟨opened, cipher, sink, .received⟩
      | _ => w
  | .answer id =>
      match w.targets id with
      | some ⟨opened, cipher, sink, .finished receipt⟩ =>
          w.answer p c id ⟨opened, cipher, sink, .finished receipt⟩ receipt
      | _ => w
  | .acknowledge id =>
      match w.targets id with
      | some ⟨opened, cipher, sink, .answered⟩ => w.acknowledge id ⟨opened, cipher, sink, .answered⟩
      | _ => w
  | .lose id =>
      match w.targets id with
      | some session => w.close w.inbox session.sink id
      | none => w
  | .restart => w.restart
  | .openSession id uuid sourcePeerId targetPeerId targetMessagingPub expiresAt ephemeral chunks =>
      match w.sources id, sourceSession c uuid sourcePeerId targetPeerId targetMessagingPub
        expiresAt ephemeral chunks with
      | none, .ok session => w.setSource id session
      | _, _ => w
  | .send id =>
      match w.sources id with
      | some session => w.send c id session
      | none => w

/-- A `uuid4` is 16 bytes that no source has drawn before. -/
def FreshUuid (w : World Key) : Event → Prop
  | .openSession _ uuid .. => uuid.length = 16 ∧
      ∀ id session, w.sources id = some session → session.cipher.sessionId ≠ hexText uuid
  | _ => True

/-- The states that allowed steps lead to. -/
inductive Run (allowed : World Key → Event → Prop) : World Key → Prop
  | start (inbox : Inbox) : Run allowed (.start inbox)
  | step {w : World Key} (before : Run allowed w) (event : Event) (fresh : FreshUuid w event)
      (ok : allowed w event) : Run allowed (w.step p c target event)

/-- **No two plaintexts share a key, a direction and a sequence number.** -/
def NonceUnique (log : List (Sealed Key)) : Prop :=
  ∀ e ∈ log, ∀ e' ∈ log, e.key = e'.key → e.direction = e'.direction →
    e.sequence = e'.sequence → e.plaintext = e'.plaintext

instance [DecidableEq Key] (log : List (Sealed Key)) : Decidable (NonceUnique log) :=
  inferInstanceAs (Decidable (∀ e ∈ log, ∀ e' ∈ log, e.key = e'.key →
    e.direction = e'.direction → e.sequence = e'.sequence → e.plaintext = e'.plaintext))

/-- What the key of a target's session is derived from. -/
def SessionOpen.keyInputs (session : SessionOpen) (messagingKey : Bytes) :
    Option (String × Bytes) := do
  let remote ← c.remoteKey session.sourceEphemeralPub
  let shared ← c.exchange messagingKey remote
  return (keyContext session.sessionId session.sourcePeerId session.targetPeerId, shared)

/-- No order is answered whose open gives the same key as one answered before. -/
def Unreplayed (w : World Key) : Event → Prop
  | .answer id => ∀ session, w.targets id = some session → ∀ a ∈ w.answered,
      a.1.keyInputs c target.messagingKey ≠ session.opened.keyInputs c target.messagingKey
  | _ => True

end Transit
