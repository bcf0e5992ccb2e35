import Rynmesh.CheckedComputation
import Rynmesh.InsertionDict
import Rynmesh.JsonValue

/-!
# Erasure requests between paired devices

`device_erasure/service.py` and `device_erasure/adapters.py`: a device asks its
paired devices to erase a category; the owner of each reviews and approves, and the
first device polls for the receipt.

* `Device` holds the pairs and the journal of one device, and the operations on it;
* `World` holds the devices, the wires that were sent, the calls that are under way
  and what the devices did, newest first;
* `Step` interleaves the parts of the calls, one journal write at most in each.

Sealing is symbolic: a wire that opens for a pair was sent by the other device of that
pair, under the same direction.  What a cleanup target answers is an argument.  The
public views, the order of `run_once` and the limits on the size of the file are left
out: any call may also fail where it stands.
-/

namespace Erasure

open Checked

def maxJobs : Nat := 128

def require (q : Prop) [Decidable q] (code : String) : Except String Unit :=
  Checked.require code q

@[simp] theorem require_ok {q : Prop} [Decidable q] {code : String} {u : Unit} :
    require q code = .ok u ↔ q :=
  Checked.require_ok

/-- `token`. -/
def isToken (size : Nat) (text : String) : Bool :=
  text.toList.length = size &&
    text.toList.all fun c => ('0' ≤ c && c ≤ '9') || ('a' ≤ c && c ≤ 'f')

structure Platform where
  /-- `fingerprint`: SHA-256 of the canonical JSON. -/
  fingerprint : Json → String
  /-- The other device of a pair: its identifier stands for the same two forever. -/
  partner : String → String → String

/-! ### The cleanup adapters -/

inductive Category
  | conversations
  | reading
  | documents
  | friendFeed
  | friendCards
  | offline
  deriving DecidableEq

def Category.text : Category → String
  | .conversations => "conversations"
  | .reading => "reading"
  | .documents => "documents"
  | .friendFeed => "friend_feed"
  | .friendCards => "friend_cards"
  | .offline => "offline"

/-- `PHASES`. -/
def phases : Category → List String
  | .conversations => ["source", "replica", "backups", "search", "orders"]
  | .reading => ["source", "replica", "backups", "search"]
  | .documents => ["source", "files"]
  | .friendFeed => ["source", "backups"]
  | .friendCards => ["source", "legacy_files"]
  | .offline => ["metadata", "files"]

structure Review where
  reviewToken : String
  counts : List (String × Json)
  phases : List String
  deriving DecidableEq

/-- What the cleanup of a category answers to a review token. -/
inductive Report
  | cards (complete : Bool)
  | offline (receipt : Option (String × Bool))
  | job (id : String) (done : List String) (localCopiesComplete cancelled : Bool)

/-- Whether a report says that the cleanup of a category is complete. -/
def Report.complete (category : Category) (token : String) : Report → Bool
  | .cards complete => category = .friendCards && complete
  | .offline (some (reviewToken, done)) => category = .offline && reviewToken = token && done
  | .offline none => false
  | .job id done localCopiesComplete cancelled =>
      category ≠ .friendCards && category ≠ .offline && id = token && localCopiesComplete &&
        done = phases category && !cancelled

/-- `CleanupAdapters.execute`. -/
def execute (category : Category) (token : String) (report : Report) :
    Except String (List String) := do
  require (report.complete category token = true) "erasure_local_incomplete"
  pure (phases category)

/-! ### The journal -/

/-- The state of a target or of an incoming request. -/
inductive State
  | queued
  | unconfirmed
  | policyChanged
  | awaitingOwner
  | approved
  /-- `partial` -/
  | incomplete
  | confirmed
  | rejected
  deriving DecidableEq

/-- `STATES`: those that a receipt may show. -/
def State.shown (state : State) : Prop :=
  state ≠ .queued ∧ state ≠ .unconfirmed ∧ state ≠ .policyChanged

instance : DecidablePred State.shown := fun _ => inferInstanceAs (Decidable (_ ∧ _ ∧ _))

/-- No call changes it any more. -/
def State.final (state : State) : Prop :=
  state = .confirmed ∨ state = .rejected

instance : DecidablePred State.final := fun _ => inferInstanceAs (Decidable (_ ∨ _))

structure Target where
  peerId : String
  name : String
  epoch : String
  state : State
  completedAt : Option Rat

structure Job where
  category : Category
  manifest : String
  targets : Dict String Target

def Job.putTarget (job : Job) (pairId : String) (target : Target) : Job :=
  { job with targets := job.targets.set pairId target }

structure Entry where
  id : String
  category : Category
  manifest : String
  epoch : String
  pairId : String
  name : String
  state : State
  review : Option Review
  approvedToken : Option String
  phases : Option (List String)
  completedAt : Option Rat

/-- A pair, as one of its devices holds it. -/
structure Pair where
  active : Bool
  remote : String
  name : String
  /-- The policies of both devices, by actor. -/
  policies : Json

/-- `epoch`. -/
def Pair.epoch (p : Platform) (pair : Pair) : String := p.fingerprint pair.policies

structure Device where
  pairs : Dict String Pair
  outgoing : Dict String Job
  incoming : Dict String Entry

/-! ### Wires -/

structure Request where
  id : String
  category : Category
  manifest : String
  epoch : String
  nonce : String
  deriving DecidableEq

structure Result where
  state : State
  approvedToken : Option String
  phases : Option (List String)
  completedAt : Option Rat
  deriving DecidableEq

/-- A sealed wire: the pair and the two devices it names, and what it carries.  A reply
names the request that its `request_hash` stands for: the hash is injective. -/
inductive Wire
  | request (pairId sender receiver : String) (body : Request)
  | reply (pairId sender receiver : String) (question : String × String × String × Request)
      (result : Result)
  deriving DecidableEq

namespace Device

variable (p : Platform) (self : String) (d : Device)

/-- `pair`, with the epoch it must still have where one is given. -/
def pair (identifier : String) (epoch : Option String) : Except String Pair := do
  require (isToken 64 identifier = true) "erasure_request_invalid"
  let row ← Checked.demand "sync_pairing_not_found" (d.pairs.get? identifier)
  require (row.active = true) "erasure_device_inactive"
  require (∀ e ∈ epoch, row.epoch p = e) "erasure_policy_changed"
  pure row

/-- Both tables fit. -/
def fits (d : Device) : Except String Device := do
  require (d.outgoing.entries.length ≤ maxJobs ∧ d.incoming.entries.length ≤ maxJobs)
    "erasure_capacity"
  pure d

def putIncoming (key : String) (entry : Entry) : Device :=
  { d with incoming := d.incoming.set key entry }

def putOutgoing (id : String) (job : Job) : Device :=
  { d with outgoing := d.outgoing.set id job }

/-- The manifest of a job: its identifier, its category and its targets by pair. -/
def manifest (id : String) (category : Category) (targets : Dict String Target) : String :=
  p.fingerprint (.object
    [("id", .str id), ("category", .str category.text),
      ("targets", .arr ((targets.entries.insertionSort fun a b => a.1 ≤ b.1).map fun target =>
        .object [("pair_id", .str target.1), ("peer_id", .str target.2.peerId),
          ("epoch", .str target.2.epoch)]))])

/-- The targets of a new job. -/
def targets : List String → Except String (Dict String Target)
  | [] => pure .empty
  | pairId :: rest => do
      let row ← d.pair p pairId none
      let others ← targets rest
      pure (others.set pairId ⟨row.remote, row.name, row.epoch p, .queued, none⟩)

/-- `begin` up to its write: the prior job of the identifier, or a new one. -/
def propose (id : String) (category : Category) (pairIds : List String) :
    Except String (Option Job) := do
  require (isToken 32 id = true ∧ 1 ≤ pairIds.length ∧ pairIds.length ≤ 16 ∧ pairIds.Nodup)
    "erasure_request_invalid"
  match d.outgoing.get? id with
  | some prior => do
      require
        (prior.category = category ∧ prior.targets.keys.Perm pairIds) "erasure_request_changed"
      pure none
  | none => do
      let targets ← d.targets p pairIds
      pure (some ⟨category, manifest p id category targets, targets⟩)

/-- The `save` of `begin`. -/
def begin (id : String) (job : Job) : Except String Device :=
  match d.outgoing.get? id with
  | some current => do
      require (current.manifest = job.manifest) "erasure_request_changed"
      pure d
  | none => fits (d.putOutgoing id job)

/-- The key of an incoming request. -/
def incomingKey (pairId id : String) : String :=
  p.fingerprint (.arr [.str pairId, .str id])

/-- `receive`: the journal, and what the reply shows of the entry. -/
def receive (pairId sender : String) (body : Request) : Except String (Device × Wire) := do
  let row ← d.pair p pairId none
  require (row.remote = sender) "erasure_request_invalid"
  require (isToken 32 body.id = true ∧ isToken 64 body.manifest = true ∧
    isToken 64 body.epoch = true ∧ isToken 32 body.nonce = true) "erasure_request_invalid"
  let _ ← d.pair p pairId (some body.epoch)
  let key := incomingKey p pairId body.id
  let question := (pairId, sender, self, body)
  match d.incoming.get? key with
  | some entry => do
      require (entry.id = body.id ∧ entry.category = body.category ∧
        entry.manifest = body.manifest ∧ entry.epoch = body.epoch ∧ entry.pairId = pairId)
        "erasure_request_changed"
      pure (d, .reply pairId self sender question
        ⟨entry.state, entry.approvedToken, entry.phases, entry.completedAt⟩)
  | none => do
      let d ← fits (d.putIncoming key
        { id := body.id, category := body.category, manifest := body.manifest
          epoch := body.epoch, pairId, name := row.name, state := .awaitingOwner, review := none
          approvedToken := none, phases := none, completedAt := none })
      pure (d, .reply pairId self sender question ⟨.awaitingOwner, none, none, none⟩)

/-- `exchange` up to its request. -/
def ask (id pairId nonce : String) : Except String Request := do
  require (isToken 32 id = true) "erasure_request_invalid"
  let job ← Checked.demand "erasure_request_invalid" (d.outgoing.get? id)
  let target ← Checked.demand "erasure_request_invalid" (job.targets.get? pairId)
  require (¬ target.state.final) "erasure_settled"
  let _ ← d.pair p pairId (some target.epoch)
  pure ⟨id, job.category, job.manifest, target.epoch, nonce⟩

/-- The checks of `exchange` on a reply to its request. -/
def acceptable (pairId : String) (body : Request) (sender : String)
    (question : String × String × String × Request) (result : Result) : Except String Unit := do
  let row ← d.pair p pairId none
  require (row.remote = sender) "erasure_request_invalid"
  require (question = (pairId, self, row.remote, body)) "erasure_receipt_invalid"
  let _ ← d.pair p pairId (some body.epoch)
  require result.state.shown "erasure_receipt_invalid"
  if result.state = .confirmed then do
    require (∃ token ∈ result.approvedToken, isToken 64 token = true) "erasure_request_invalid"
    require (result.phases = some (Erasure.phases body.category) ∧
      ∃ completedAt ∈ result.completedAt, 0 ≤ completedAt) "erasure_receipt_invalid"

/-- The `save` of `exchange`. -/
def update (id pairId : String) (state : State) (completedAt : Option Rat) : Device :=
  match d.outgoing.get? id with
  | some job =>
      match job.targets.get? pairId with
      | some target =>
          if target.state.final then d
          else
            d.putOutgoing id (job.putTarget pairId
              { target with state, completedAt := completedAt.or target.completedAt })
      | none => d
  | none => d

/-- The check that `incoming` makes for the owner's calls. -/
def owned (key : String) : Except String Entry := do
  require (isToken 64 key = true) "erasure_request_invalid"
  let entry ← Checked.demand "erasure_request_invalid" (d.incoming.get? key)
  let _ ← d.pair p entry.pairId (some entry.epoch)
  pure entry

/-- The `save` of `preview`. -/
def record (key : String) (review : Review) : Except String Device := do
  let entry ← Checked.demand "erasure_request_invalid" (d.incoming.get? key)
  require (entry.state = .awaitingOwner) "erasure_already_reviewed"
  pure (d.putIncoming key { entry with review := some review })

/-- The `decide` of `approve`: whether there is something left to do. -/
def decide (key token : String) : Except String (Device × Bool) := do
  let entry ← Checked.demand "erasure_request_invalid" (d.incoming.get? key)
  require (entry.state ≠ .rejected ∧
    entry.approvedToken.or (entry.review.map Review.reviewToken) = some token)
    "erasure_review_changed"
  if entry.state = .confirmed then pure (d, false)
  else pure (d.putIncoming key
    { entry with state := .approved, approvedToken := some token }, true)

/-- The `complete` of `approve`. -/
def complete (key : String) (phases : List String) (clock : Rat) : Device :=
  match d.incoming.get? key with
  | some entry =>
      if entry.state = .rejected then d
      else d.putIncoming key
        { entry with state := .confirmed, phases := some phases, completedAt := some clock }
  | none => d

/-- The `partial` of `approve`. -/
def fail (key : String) : Device :=
  match d.incoming.get? key with
  | some entry =>
      if entry.state.final then d else d.putIncoming key { entry with state := .incomplete }
  | none => d

/-- The `change` of `reject`. -/
def reject (key : String) : Except String Device := do
  let entry ← Checked.demand "erasure_request_invalid" (d.incoming.get? key)
  require (entry.state ≠ .confirmed) "erasure_already_confirmed"
  pure (d.putIncoming key { entry with state := .rejected })

end Device

/-! ### Runs -/

/-- How far a call of `approve` has come. -/
inductive Stage
  | checked
  | decided
  | authorized
  | executed (phases : List String)
  | verified (phases : List String)
  | failed
  deriving DecidableEq

/-- A call that is under way, with what it has read. -/
inductive Task
  | proposing (device id : String) (job : Job)
  | asking (device pairId : String) (body : Request)
  | previewing (device key : String) (review : Review)
  | approving (device key token : String) (entry : Entry) (stage : Stage)
  | rejecting (device key : String)

inductive Event
  | reviewed (device key token : String)
  | approved (device key token : String)
  /-- A cleanup adapter ran: the phases it returned, none where it raised. -/
  | ran (device key : String) (category : Category) (token : String)
      (result : Option (List String))
  | completed (device key token : String)
  deriving DecidableEq

structure World where
  device : String → Device
  sent : List Wire
  tasks : List Task
  history : List Event

namespace World

def initial : World := ⟨fun _ => ⟨.empty, .empty, .empty⟩, [], [], []⟩

def withDevice (w : World) (self : String) (d : Device) : World :=
  { w with device := fun other => if other = self then d else w.device other }

end World

/-- Whose doing a step is. -/
inductive Actor
  | owner
  | peer

/-- One part of a call: at most one write of a journal. -/
inductive Step (p : Platform) (w : World) : Actor → World → Prop
  /-- Pairing, and changes of policies and of the status of a pair. -/
  | arrange (self : String) (pairs : Dict String Pair)
      (hpairs : ∀ id pair, pairs.get? id = some pair → pair.remote = p.partner self id) :
      Step p w .owner (w.withDevice self { w.device self with pairs })
  | propose (self id : String) (category : Category) (pairIds : List String)
      {job : Job} (h : (w.device self).propose p id category pairIds = .ok (some job)) :
      Step p w .owner { w with tasks := .proposing self id job :: w.tasks }
  | begin {self id : String} {job : Job} {rest : List Task}
      (htask : w.tasks.Perm (.proposing self id job :: rest)) {d : Device}
      (h : (w.device self).begin id job = .ok d) :
      Step p w .owner { w.withDevice self d with tasks := rest }
  | ask (self id pairId nonce : String) {body : Request}
      (h : (w.device self).ask p id pairId nonce = .ok body) :
      Step p w .owner { w with
        sent := .request pairId self (p.partner self pairId) body :: w.sent
        tasks := .asking self pairId body :: w.tasks }
  | settle {self pairId : String} {body : Request} {rest : List Task}
      (htask : w.tasks.Perm (.asking self pairId body :: rest)) {sender : String}
      {question : String × String × String × Request} {result : Result}
      (hsent : .reply pairId sender self question result ∈ w.sent)
      (h : (w.device self).acceptable p self pairId body sender question result = .ok ()) :
      Step p w .peer { w.withDevice self
        ((w.device self).update body.id pairId result.state result.completedAt) with
          tasks := rest }
  /-- An exchange fails, on its way or before it sent anything. -/
  | lapse (self id pairId : String) (state : State)
      (hstate : state = .unconfirmed ∨ state = .policyChanged) {rest : List Task}
      (htask : w.tasks = rest ∨ ∃ body, w.tasks.Perm (.asking self pairId body :: rest)) :
      Step p w .owner { w.withDevice self ((w.device self).update id pairId state none) with
        tasks := rest }
  | receive {self pairId sender : String} {body : Request}
      (hsent : .request pairId sender self body ∈ w.sent) {d : Device} {reply : Wire}
      (h : (w.device self).receive p self pairId sender body = .ok (d, reply)) :
      Step p w .peer { w.withDevice self d with sent := reply :: w.sent }
  | preview (self key : String) (review : Review)
      (htoken : isToken 64 review.reviewToken = true) {entry : Entry}
      (h : (w.device self).owned p key = .ok entry) (hstate : entry.state = .awaitingOwner) :
      Step p w .owner { w with tasks := .previewing self key review :: w.tasks }
  | record {self key : String} {review : Review} {rest : List Task}
      (htask : w.tasks.Perm (.previewing self key review :: rest)) {d : Device}
      (h : (w.device self).record key review = .ok d) :
      Step p w .owner { w.withDevice self d with
        tasks := rest, history := .reviewed self key review.reviewToken :: w.history }
  /-- The owner calls `approve`, or `resume` with the approved token. -/
  | approve (self key token : String) (htoken : isToken 64 token = true)
      {entry : Entry} (h : (w.device self).owned p key = .ok entry) :
      Step p w .owner { w with tasks := .approving self key token entry .checked :: w.tasks }
  | decide {self key token : String} {entry : Entry} {rest : List Task}
      (htask : w.tasks.Perm (.approving self key token entry .checked :: rest)) {d : Device}
      (h : (w.device self).decide key token = .ok (d, true)) :
      Step p w .owner { w.withDevice self d with
        tasks := .approving self key token entry .decided :: rest
        history := .approved self key token :: w.history }
  | authorize {self key token : String} {entry : Entry} {rest : List Task}
      (htask : w.tasks.Perm (.approving self key token entry .decided :: rest)) {row : Pair}
      (h : (w.device self).pair p entry.pairId (some entry.epoch) = .ok row) :
      Step p w .owner { w with tasks := .approving self key token entry .authorized :: rest }
  | execute {self key token : String} {entry : Entry} {rest : List Task}
      (htask : w.tasks.Perm (.approving self key token entry .authorized :: rest))
      (report : Report) :
      Step p w .owner { w with
        tasks := .approving self key token entry
          (match execute entry.category token report with
          | .ok phases => .executed phases
          | .error _ => .failed) :: rest
        history := .ran self key entry.category token
          (execute entry.category token report).toOption :: w.history }
  | verify {self key token : String} {entry : Entry} {phases : List String}
      {rest : List Task}
      (htask : w.tasks.Perm (.approving self key token entry (.executed phases) :: rest))
      (hphases : phases = Erasure.phases entry.category) {row : Pair}
      (h : (w.device self).pair p entry.pairId (some entry.epoch) = .ok row) :
      Step p w .owner { w with
        tasks := .approving self key token entry (.verified phases) :: rest }
  | complete {self key token : String} {entry : Entry} {phases : List String}
      {rest : List Task}
      (htask : w.tasks.Perm (.approving self key token entry (.verified phases) :: rest))
      (clock : Rat) {current : Entry} (hcurrent : (w.device self).incoming.get? key = some current)
      (hstate : current.state ≠ .rejected) :
      Step p w .owner { w.withDevice self ((w.device self).complete key phases clock) with
        tasks := rest, history := .completed self key token :: w.history }
  | fail {self key token : String} {entry : Entry} {stage : Stage}
      {rest : List Task} (htask : w.tasks.Perm (.approving self key token entry stage :: rest))
      (hstage : stage ≠ .checked) :
      Step p w .owner { w.withDevice self ((w.device self).fail key) with tasks := rest }
  | reject (self key : String) {entry : Entry}
      (h : (w.device self).owned p key = .ok entry) :
      Step p w .owner { w with tasks := .rejecting self key :: w.tasks }
  | refuse {self key : String} {rest : List Task}
      (htask : w.tasks.Perm (.rejecting self key :: rest)) {d : Device}
      (h : (w.device self).reject key = .ok d) :
      Step p w .owner { w.withDevice self d with tasks := rest }
  /-- A call ends without a write: an error, or the process stops. -/
  | drop {task : Task} {rest : List Task} (htask : w.tasks.Perm (task :: rest)) :
      Step p w .owner { w with tasks := rest }

inductive Reachable (p : Platform) : World → Prop
  | initial : Reachable p .initial
  | step {w w' : World} {actor : Actor} (h : Reachable p w) (hstep : Step p w actor w') :
      Reachable p w'

/-- Runs from any world. -/
inductive Leads (p : Platform) : World → World → Prop
  | refl (w : World) : Leads p w w
  | step {w w' w'' : World} {actor : Actor} (h : Leads p w w') (hstep : Step p w' actor w'') :
      Leads p w w''

end Erasure
