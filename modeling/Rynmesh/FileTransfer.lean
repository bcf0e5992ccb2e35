import Rynmesh.CheckedComputation
import Rynmesh.JsonValue

/-!
# The target of a resumable file transfer

`_TargetFileSink` of `peer_transit_service.py`: a session loads a manifest,
appends the data of one segment to a partial file, and moves the checkpoint; the
last segment moves the partial file to its destination.

* `Inbox` is what sessions share: the partial files, the checkpoints, the
  destinations, and the transfers that are claimed;
* `Sink` is one session, with `write`, `finish`, `acknowledgeReceipt` and
  `abort`;
* `Step` is one call of a session, as the worker makes them: chunks, then a
  finish, then a receipt or an abort, and an abort after anything that raises.

A JSON text, a hash and a conversion of the standard library is a field of
`Platform`.  The schema of a checkpoint and its stored path are left out: no
call reads them.
-/

namespace Transit

abbrev Bytes := List UInt8

def defaultChunkBytes : Nat := 64 * 1024

def defaultResumeSegmentBytes : Nat := 64 * 1024 * 1024

/-- What a call raises: a `PeerTransitError`, or an error of a conversion. -/
inductive Failure
  | transit (message : String)
  | conversion
  deriving DecidableEq

def require (p : Prop) [Decidable p] (message : String) : Except Failure Unit :=
  Checked.require (.transit message) p

@[simp] theorem require_ok {p : Prop} [Decidable p] {message : String} {u : Unit} :
    require p message = .ok u ↔ p :=
  Checked.require_ok

/-- What the target uses of the standard library, and its size policy. -/
structure Platform where
  /-- `json.loads`, none where it raises. -/
  loads : Bytes → Option Json
  /-- `json.dumps`, as bytes. -/
  dumps : Json → Bytes
  /-- `str`. -/
  str : Json → String
  /-- `int`, none where it raises. -/
  int : Json → Option Int
  /-- `int(text, 16)` returns. -/
  isHex : String → Bool
  /-- The text `sha256:` and the digest in hexadecimal. -/
  sha256 : Bytes → String
  /-- `_resume_slug`. -/
  resumeSlug : String → String → String
  maxFileBytes : Int

/-! ### Manifests -/

/-- `bool` of a value. -/
def truthy : Json → Bool
  | .null => false
  | .bool b => b
  | .int n => n ≠ 0
  | .float value _ => value ≠ some 0
  | .str s => s ≠ ""
  | .arr items => !items.isEmpty
  | .obj fields => !fields.isEmpty

/-- `str(value.get(key) or "")`. -/
def text (p : Platform) (value : Json) (key : String) : String :=
  match value.get? key with
  | some v => if truthy v then p.str v else ""
  | none => ""

/-- `int(value.get(key, -1))`. -/
def integer (p : Platform) (value : Json) (key : String) : Except Failure Int :=
  match value.get? key with
  | some v => Checked.demand .conversion (p.int v)
  | none => .ok (-1)

/-- `Path(filename).name == filename` for a name that is not empty. -/
def validFilename (filename : String) : Bool :=
  filename ≠ "" && filename ≠ "." && !filename.toList.contains '/'

/-- `uuid.UUID(transfer_id).hex == transfer_id`. -/
def validTransferId (transferId : String) : Bool :=
  transferId.toList.length = 32 &&
    transferId.toList.all fun c => ('0' ≤ c && c ≤ '9') || ('a' ≤ c && c ≤ 'f')

/-- `_valid_sha256`. -/
def validSha256 (p : Platform) (text : String) : Bool :=
  "sha256:".isPrefixOf text && text.toList.length = 71 &&
    p.isHex (String.ofList (text.toList.drop 7))

/-- A manifest that passed the checks on its values. -/
structure Manifest where
  filename : String
  transferId : String
  size : Nat
  offset : Nat
  segmentSize : Nat
  final : Bool
  sha256 : String
  segmentSha256 : String
  prefixSha256 : String
  fits : offset + segmentSize ≤ size
  final_iff : final = true ↔ offset + segmentSize = size

/-- Where the segment ends. -/
def Manifest.endOffset (m : Manifest) : Nat := m.offset + m.segmentSize

/-- The checks that the sizes of a manifest pass. -/
def Bounded (size offset segmentSize : Int) (final : Option Json) : Prop :=
  ¬ (offset < 0 ∨ offset > size ∨ (offset ≠ 0 ∧ offset % defaultChunkBytes ≠ 0) ∨
    segmentSize < 0 ∨ segmentSize > defaultResumeSegmentBytes ∨ offset + segmentSize > size ∨
    final ≠ some (.bool (offset + segmentSize = size)))

instance (size offset segmentSize : Int) (final : Option Json) :
    Decidable (Bounded size offset segmentSize final) := by
  unfold Bounded
  infer_instance

/-- `_load_manifest` up to the claim. -/
def readManifest (p : Platform) (body : Bytes) : Except Failure Manifest := do
  let manifest ← Checked.demand (.transit "invalid encrypted file manifest") (p.loads body)
  require (manifest.isObj ∧ manifest.get? "kind" = some (.str "file"))
    "unsupported transit request kind"
  let filename := text p manifest "filename"
  require (validFilename filename) "transit filename is invalid"
  let transferId := text p manifest "transfer_id"
  require (validTransferId transferId) "transit transfer ID is invalid"
  let size ← integer p manifest "size_bytes"
  let offset ← integer p manifest "offset_bytes"
  let segmentSize ← integer p manifest "segment_size_bytes"
  require (0 ≤ size ∧ size ≤ p.maxFileBytes) "transit file exceeds target size policy"
  if h : Bounded size offset segmentSize (manifest.get? "final") then do
    require (validSha256 p (text p manifest "sha256")) "transit manifest sha256 is invalid"
    require (validSha256 p (text p manifest "segment_sha256"))
      "transit manifest segment_sha256 is invalid"
    require (validSha256 p (text p manifest "prefix_sha256"))
      "transit manifest prefix_sha256 is invalid"
    pure {
      filename, transferId
      size := size.toNat
      offset := offset.toNat
      segmentSize := segmentSize.toNat
      final := offset + segmentSize = size
      sha256 := text p manifest "sha256"
      segmentSha256 := text p manifest "segment_sha256"
      prefixSha256 := text p manifest "prefix_sha256"
      fits := by
        simp only [Bounded, not_or] at h
        omega
      final_iff := by
        simp only [Bounded, not_or] at h
        rw [decide_eq_true_eq]
        omega }
  else .error (.transit "transit resume boundary is invalid")

/-! ### What sessions share -/

inductive Status
  | incomplete
  | complete
  deriving DecidableEq

/-- A confirmed segment. -/
structure SegmentRecord where
  offset : Nat
  endOffset : Nat
  segmentSize : Nat
  segmentSha256 : String
  prefixSha256 : String
  deriving DecidableEq

/-- A resume checkpoint. -/
structure Checkpoint where
  status : Status
  sourcePeerId : String
  transferId : String
  filename : String
  size : Nat
  sha256 : String
  verifiedOffset : Nat
  prefixSha256 : String
  segments : List SegmentRecord
  deriving DecidableEq

/-- The files of an inbox, and the worker's set of claimed transfers. -/
structure Inbox where
  parts : String → Option Bytes
  checkpoints : String → Option Checkpoint
  files : String → Option Bytes
  active : String → Bool

namespace Inbox

def claim (inbox : Inbox) (slug : String) : Inbox :=
  { inbox with active := Function.update inbox.active slug true }

def release (inbox : Inbox) (slug : String) : Inbox :=
  { inbox with active := Function.update inbox.active slug false }

def setPart (inbox : Inbox) (slug : String) (part : Option Bytes) : Inbox :=
  { inbox with parts := Function.update inbox.parts slug part }

def setCheckpoint (inbox : Inbox) (slug : String) (checkpoint : Option Checkpoint) : Inbox :=
  { inbox with checkpoints := Function.update inbox.checkpoints slug checkpoint }

def store (inbox : Inbox) (destination : String) (content : Bytes) : Inbox :=
  { inbox with files := Function.update inbox.files destination (some content) }

end Inbox

/-- The destination of a transfer. -/
def destinationOf (slug filename : String) : String := slug ++ "-" ++ filename

/-! ### Sessions -/

/-- What a session holds once its manifest is loaded. -/
structure Loaded where
  manifest : Manifest
  slug : String
  state : Checkpoint
  verifiedOffset : Nat
  duplicate : Bool
  /-- The position of the open handle. -/
  handle : Option Nat

def Loaded.destination (loaded : Loaded) : String :=
  destinationOf loaded.slug loaded.manifest.filename

/-- A `_TargetFileSink`; the digest is held as the bytes it has read. -/
structure Sink where
  sessionId : String
  sourcePeerId : String
  claimed : Option String
  loaded : Option Loaded
  segmentReceived : Nat
  segmentDigest : Bytes
  finished : Bool

def Sink.new (sessionId sourcePeerId : String) : Sink :=
  { sessionId, sourcePeerId, claimed := none, loaded := none, segmentReceived := 0
    segmentDigest := [], finished := false }

/-- A fresh checkpoint. -/
def Checkpoint.new (p : Platform) (sourcePeerId : String) (m : Manifest) : Checkpoint :=
  { status := .incomplete, sourcePeerId, transferId := m.transferId, filename := m.filename
    size := m.size, sha256 := m.sha256, verifiedOffset := 0, prefixSha256 := p.sha256 []
    segments := [] }

/-- The checkpoint of a transfer whose receipt was acknowledged. -/
def Checkpoint.stored (sourcePeerId : String) (m : Manifest) : Checkpoint :=
  { status := .complete, sourcePeerId, transferId := m.transferId, filename := m.filename
    size := m.size, sha256 := m.sha256, verifiedOffset := m.size, prefixSha256 := m.sha256
    segments := [] }

/-- The checkpoint a session starts from. -/
def resumeState (p : Platform) (inbox : Inbox) (sourcePeerId slug : String) (m : Manifest) :
    Except Failure Checkpoint :=
  match inbox.checkpoints slug with
  | some state => do
      require (state.sourcePeerId = sourcePeerId ∧ state.transferId = m.transferId ∧
        state.filename = m.filename ∧ state.size = m.size ∧ state.sha256 = m.sha256)
        "transit resume checkpoint identity mismatch"
      pure state
  | none =>
      match inbox.files (destinationOf slug m.filename) with
      | some content => do
          require (m.final ∧ content.length = m.size ∧ p.sha256 content = m.sha256)
            "transit destination conflicts with resume request"
          pure (.stored sourcePeerId m)
      | none => pure (.new p sourcePeerId m)

/-- The segment is one of the confirmed ones. -/
def Checkpoint.confirms (state : Checkpoint) (m : Manifest) : Bool :=
  state.segments.any fun r =>
    r.offset = m.offset && r.endOffset = m.endOffset && r.segmentSha256 = m.segmentSha256 &&
      r.prefixSha256 = m.prefixSha256

/-- Whether the segment is a duplicate. -/
def isDuplicate (state : Checkpoint) (m : Manifest) : Except Failure Bool := do
  require (state.verifiedOffset ≤ m.size) "transit resume checkpoint offset is invalid"
  if m.offset ≠ state.verifiedOffset then do
    require (state.confirms m ∨ state.status = .complete ∧ m.final)
      "transit resume offset does not match target checkpoint"
    pure true
  else pure (state.status = .complete)

/-- The partial file, cut to its verified bytes. -/
def openPart (inbox : Inbox) (slug : String) (verifiedOffset : Nat) : Except Failure Bytes :=
  match inbox.parts slug with
  | some content => do
      require (verifiedOffset ≤ content.length)
        "transit partial file is shorter than its checkpoint"
      pure (content.take verifiedOffset)
  | none => do
      require (verifiedOffset = 0) "transit partial file is missing"
      pure []

/-- What `_load_manifest` finds once the transfer is claimed: the session's
values, and the partial file to write to. -/
def resume (p : Platform) (inbox : Inbox) (sourcePeerId slug : String) (m : Manifest) :
    Except Failure (Loaded × Option Bytes) := do
  let state ← resumeState p inbox sourcePeerId slug m
  let duplicate ← isDuplicate state m
  if duplicate then
    pure ({ manifest := m, slug, state, verifiedOffset := state.verifiedOffset, duplicate := true
            handle := none }, none)
  else do
    let content ← openPart inbox slug state.verifiedOffset
    pure ({ manifest := m, slug, state, verifiedOffset := state.verifiedOffset
            duplicate := false, handle := some state.verifiedOffset }, some content)

/-- `_load_manifest`. -/
def loadManifest (p : Platform) (inbox : Inbox) (sink : Sink) (body : Bytes) :
    Except Failure Unit × Inbox × Sink :=
  match readManifest p body with
  | .error e => (.error e, inbox, sink)
  | .ok m =>
      let slug := p.resumeSlug sink.sourcePeerId m.transferId
      if inbox.active slug then
        (.error (.transit "transit resume transfer is already active"), inbox, sink)
      else
        let inbox := inbox.claim slug
        let sink := { sink with claimed := some slug }
        match resume p inbox sink.sourcePeerId slug m with
        | .error e => (.error e, inbox, sink)
        | .ok (loaded, none) => (.ok (), inbox, { sink with loaded := some loaded })
        | .ok (loaded, some content) =>
            (.ok (), inbox.setPart slug (some content), { sink with loaded := some loaded })

/-- Writing to an open file at a position. -/
def writeAt (content : Bytes) (position : Nat) (body : Bytes) : Bytes :=
  content.take position ++ body ++ content.drop (position + body.length)

/-- Data of the segment. -/
def writeData (inbox : Inbox) (sink : Sink) (loaded : Loaded) (body : Bytes) :
    Except Failure Unit × Inbox × Sink :=
  let sink := { sink with segmentReceived := sink.segmentReceived + body.length }
  if sink.segmentReceived > loaded.manifest.segmentSize then
    (.error (.transit "transit segment exceeds its declared boundary"), inbox, sink)
  else
    let sink := { sink with segmentDigest := sink.segmentDigest ++ body }
    match loaded.handle with
    | none => (.ok (), inbox, sink)
    | some position =>
        let content := (inbox.parts loaded.slug).getD []
        (.ok (), inbox.setPart loaded.slug (some (writeAt content position body)),
          { sink with
            loaded := some { loaded with handle := some (position + body.length) } })

/-- `write`. -/
def write (p : Platform) (inbox : Inbox) (sink : Sink) :
    Bytes → Except Failure Unit × Inbox × Sink
  | [] => (.error (.transit "empty file protocol chunk"), inbox, sink)
  | kind :: body =>
      match sink.loaded with
      | none =>
          if kind = 77 then loadManifest p inbox sink body
          else (.error (.transit "file manifest must be the first transit chunk"), inbox, sink)
      | some loaded =>
          if kind = 68 then writeData inbox sink loaded body
          else (.error (.transit "invalid transit file data chunk"), inbox, sink)

structure Receipt where
  status : String
  sessionId : String
  sourcePeerId : String
  transferId : String
  filename : String
  size : Nat
  sha256 : String
  offset : Nat
  segmentSize : Nat
  nextOffset : Nat
  segmentSha256 : String
  prefixSha256 : String
  complete : Bool
  duplicate : Bool
  storedPath : String
  deriving DecidableEq

/-- What `finish` returns. -/
def Sink.receipt (sink : Sink) (loaded : Loaded) (segmentSha256 : String) : Receipt :=
  let m := loaded.manifest
  { status := if m.final then "stored" else "checkpointed"
    sessionId := sink.sessionId, sourcePeerId := sink.sourcePeerId
    transferId := m.transferId, filename := m.filename, size := m.size, sha256 := m.sha256
    offset := m.offset, segmentSize := m.segmentSize, nextOffset := m.endOffset
    segmentSha256, prefixSha256 := m.prefixSha256, complete := m.final
    duplicate := loaded.duplicate
    storedPath := if m.final then loaded.destination else "" }

/-- The checkpoint after a segment. -/
def Checkpoint.advance (state : Checkpoint) (m : Manifest) (segmentSha256 prefixSha256 : String) :
    Checkpoint :=
  { state with
    segments := state.segments ++
      [{ offset := m.offset, endOffset := m.endOffset, segmentSize := m.segmentSize
         segmentSha256, prefixSha256 }]
    verifiedOffset := m.endOffset
    prefixSha256
    status := if m.final then .complete else .incomplete }

/-- `finish` of a segment that was written: the partial file is checked, moved
when it is complete, and the checkpoint is written last. -/
def commit (p : Platform) (inbox : Inbox) (sink : Sink) (loaded : Loaded)
    (segmentSha256 : String) : Except Failure Receipt × Inbox × Sink :=
  let m := loaded.manifest
  let loaded := { loaded with handle := none }
  let sink := { sink with loaded := some loaded }
  let content := (inbox.parts loaded.slug).getD []
  let prefixSha256 := p.sha256 content
  if content.length ≠ m.endOffset then
    (.error (.transit "transit checkpoint file size mismatch"), inbox, sink)
  else if prefixSha256 ≠ m.prefixSha256 then
    (.error (.transit "transit checkpoint prefix hash mismatch"),
      inbox.setPart loaded.slug (some (content.take loaded.verifiedOffset)), sink)
  else
    let state := loaded.state.advance m segmentSha256 prefixSha256
    let loaded := { loaded with state }
    let sink := { sink with loaded := some loaded }
    if m.final then
      if prefixSha256 ≠ m.sha256 then
        (.error (.transit "transit target file hash mismatch"), inbox, sink)
      else if (inbox.files loaded.destination).isSome then
        (.error (.transit "transit destination already exists"), inbox, sink)
      else
        (.ok (sink.receipt loaded segmentSha256),
          ((inbox.store loaded.destination content).setPart loaded.slug none).setCheckpoint
            loaded.slug (some state),
          { sink with finished := true })
    else
      (.ok (sink.receipt loaded segmentSha256), inbox.setCheckpoint loaded.slug (some state),
        { sink with finished := true })

/-- `finish`. -/
def finish (p : Platform) (inbox : Inbox) (sink : Sink) :
    Except Failure Receipt × Inbox × Sink :=
  match sink.loaded with
  | none => (.error (.transit "transit file manifest is missing"), inbox, sink)
  | some loaded =>
      let segmentSha256 := p.sha256 sink.segmentDigest
      if sink.segmentReceived ≠ loaded.manifest.segmentSize then
        (.error (.transit "transit segment size mismatch"), inbox, sink)
      else if segmentSha256 ≠ loaded.manifest.segmentSha256 then
        (.error (.transit "transit segment hash mismatch"), inbox, sink)
      else if loaded.duplicate then
        (.ok (sink.receipt loaded segmentSha256), inbox, { sink with finished := true })
      else commit p inbox sink loaded segmentSha256

/-- `_release_claim`. -/
def releaseClaim (inbox : Inbox) (sink : Sink) : Inbox × Sink :=
  match sink.claimed with
  | some slug => (inbox.release slug, { sink with claimed := none })
  | none => (inbox, sink)

/-- `acknowledge_receipt`. -/
def acknowledgeReceipt (inbox : Inbox) (sink : Sink) : Inbox × Sink :=
  match sink.loaded with
  | some loaded =>
      if sink.finished ∧ loaded.manifest.final then
        releaseClaim (inbox.setCheckpoint loaded.slug none) sink
      else releaseClaim inbox sink
  | none => releaseClaim inbox sink

/-- `abort`. -/
def abort (inbox : Inbox) (sink : Sink) : Inbox × Sink :=
  match sink.loaded with
  | none => releaseClaim inbox sink
  | some loaded =>
      if sink.finished ∨ loaded.duplicate then releaseClaim inbox sink
      else
        let cut := inbox.setPart loaded.slug
          ((inbox.parts loaded.slug).map (·.take loaded.verifiedOffset))
        let sink := { sink with loaded := some { loaded with handle := none } }
        if loaded.verifiedOffset = 0 then
          releaseClaim ((cut.setPart loaded.slug none).setCheckpoint loaded.slug none) sink
        else releaseClaim cut sink

/-! ### The worker -/

/-- Where the worker is with a session. -/
inductive Phase
  | receiving
  | raised
  | finished
  | closed
  deriving DecidableEq

structure Session where
  sink : Sink
  phase : Phase

/-- An inbox and the sessions on it. -/
structure Server where
  inbox : Inbox
  sessions : Nat → Option Session

def Server.set (server : Server) (inbox : Inbox) (id : Nat) (session : Session) : Server :=
  { inbox, sessions := Function.update server.sessions id (some session) }

/-- The phase after a call. -/
def phaseAfter {α : Type} (result : Except Failure α) (next : Phase) : Phase :=
  match result with
  | .ok _ => next
  | .error _ => .raised

/-- One call of `_serve_target`.  A connection may be lost before any call. -/
inductive Step (p : Platform) (server : Server) : Server → Prop
  | start (id : Nat) (sessionId sourcePeerId : String) (fresh : server.sessions id = none) :
      Step p server (server.set server.inbox id ⟨.new sessionId sourcePeerId, .receiving⟩)
  | write {id : Nat} {sink : Sink} (chunk : Bytes)
      (found : server.sessions id = some ⟨sink, .receiving⟩) :
      Step p server
        (server.set (write p server.inbox sink chunk).2.1 id
          ⟨(write p server.inbox sink chunk).2.2,
            phaseAfter (write p server.inbox sink chunk).1 .receiving⟩)
  | finish {id : Nat} {sink : Sink} (found : server.sessions id = some ⟨sink, .receiving⟩) :
      Step p server
        (server.set (finish p server.inbox sink).2.1 id
          ⟨(finish p server.inbox sink).2.2,
            phaseAfter (finish p server.inbox sink).1 .finished⟩)
  | acknowledge {id : Nat} {sink : Sink} (found : server.sessions id = some ⟨sink, .finished⟩) :
      Step p server
        (server.set (acknowledgeReceipt server.inbox sink).1 id
          ⟨(acknowledgeReceipt server.inbox sink).2, .closed⟩)
  | abort {id : Nat} {sink : Sink} {phase : Phase}
      (found : server.sessions id = some ⟨sink, phase⟩) (opened : phase ≠ .closed) :
      Step p server
        (server.set (abort server.inbox sink).1 id ⟨(abort server.inbox sink).2, .closed⟩)

/-- An inbox nothing was sent to. -/
def Server.empty : Server :=
  { inbox := ⟨fun _ => none, fun _ => none, fun _ => none, fun _ => false⟩
    sessions := fun _ => none }

/-- The states that sessions lead to. -/
inductive Reachable (p : Platform) : Server → Prop
  | empty : Reachable p .empty
  | step {server server' : Server} (before : Reachable p server) (step : Step p server server') :
      Reachable p server'

end Transit
