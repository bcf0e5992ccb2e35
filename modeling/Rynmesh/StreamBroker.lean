import Rynmesh.CheckedComputation
import Rynmesh.InsertionDict
import Rynmesh.JsonValue

/-!
# Hand-off of streamed answers

`StreamEventBroker` of `stream_protocol.py`: a ring of events for each of a few
tasks, a snapshot of the text so far, and a deadline after which a task is
forgotten.

* `Broker.prune`, `Broker.makeRoom` and `Broker.forget` are the ways in which a
  task leaves the memory;
* `Broker.publish` and `Broker.replay` are the calls;
* `Reader` is a subscriber, and `World` the broker with its publishers and
  subscribers.

A call reads the clock several times, so what it reads is left open: `now` is
the time at which the deadline of a task is looked at.
-/

namespace Stream

/-- An event, with the fields that the broker reads; a `delta` that is no string
is none, and so is a `sequence` that is missing. -/
structure StreamEvent where
  event : String
  sequence : Option Int
  delta : Option String
  snapshot : Bool
  fields : List (String × Json)

def StreamEvent.isDelta (e : StreamEvent) : Bool := e.event = "delta"

/-- `int(event.get("sequence", -1))`. -/
def StreamEvent.number (e : StreamEvent) : Int := e.sequence.getD (-1)

/-- What is kept of a terminal event. -/
def StreamEvent.outcome (e : StreamEvent) : StreamEvent :=
  { event := e.event, sequence := none, delta := none, snapshot := false
    fields := e.fields.filter fun field => ["task_id", "state", "error_code"].contains field.1 }

/-- The limits that a broker is constructed with. -/
structure Limits where
  maxTasks : Nat
  maxEventsPerTask : Nat
  maxSnapshotBytes : Nat
  maxTasks_pos : 0 < maxTasks
  maxEventsPerTask_pos : 0 < maxEventsPerTask
  maxSnapshotBytes_pos : 0 < maxSnapshotBytes

structure Broker where
  tasks : Dict String (List StreamEvent)
  snapshots : Dict String (Int × String)
  order : List String
  expires : Dict String Rat

namespace Broker

def empty : Broker := ⟨.empty, .empty, [], .empty⟩

variable (l : Limits) (b : Broker)

/-- The task is in memory. -/
def held (taskId : String) : Bool := (b.tasks.get? taskId).isSome

/-- `forget`. -/
def forget (taskId : String) : Broker :=
  { tasks := b.tasks.erase taskId, snapshots := b.snapshots.erase taskId
    order := b.order.erase taskId, expires := b.expires.erase taskId }

/-- `_prune`. -/
def prune (now : String → Rat) : Broker :=
  b.expires.entries.foldl
    (fun b entry => if entry.2 ≤ now entry.1 then b.forget entry.1 else b) b

/-- Tasks are evicted in the order in which they came. -/
def evictFrom (b : Broker) : List String → Except String Broker
  | [] =>
      if b.tasks.entries.length < l.maxTasks then .ok { b with order := [] }
      else .error "pop from an empty deque"
  | evicted :: rest =>
      if b.tasks.entries.length < l.maxTasks then .ok { b with order := evicted :: rest }
      else
        evictFrom
          { b with
            tasks := b.tasks.erase evicted, snapshots := b.snapshots.erase evicted
            expires := b.expires.erase evicted }
          rest

def makeRoom : Except String Broker := b.evictFrom l b.order

/-- A task that is new in memory. -/
def enter (taskId : String) : Broker :=
  { b with tasks := b.tasks.set taskId [], order := b.order ++ [taskId] }

/-- `append` of a deque with a greatest length. -/
def append (maxlen : Nat) (ring : List StreamEvent) (e : StreamEvent) : List StreamEvent :=
  (ring ++ [e]).drop ((ring ++ [e]).length - maxlen)

/-- The event goes into the ring of its task. -/
def keep (taskId : String) (e : StreamEvent) (deadline : Rat) : Broker :=
  { b with
    expires := b.expires.set taskId deadline
    tasks := b.tasks.set taskId
      (append l.maxEventsPerTask ((b.tasks.get? taskId).getD []) e) }

/-- The text so far, with the sequence number of its last delta. -/
def snapshotOf (taskId : String) : Int × String := (b.snapshots.get? taskId).getD (-1, "")

/-- A delta extends the snapshot. -/
def keepDelta (taskId : String) (e : StreamEvent) (later : Rat) : Except String Unit × Broker :=
  match e.delta with
  | none => (.error "stream broker delta is invalid", b)
  | some delta =>
      let previous := b.snapshotOf taskId
      if e.number < 0 then (.error "stream broker delta is invalid", b)
      else if e.number ≠ previous.1 + 1 then
        (.error "stream broker delta sequence is not contiguous", b)
      else if l.maxSnapshotBytes < (previous.2 ++ delta).utf8ByteSize then
        (.error "stream broker snapshot exceeds output limit", b)
      else
        (.ok (), { b with snapshots := b.snapshots.set taskId (e.number, previous.2 ++ delta) }.keep
          l taskId e (later + 3600))

/-- `publish` once its task is in memory. -/
def keepEvent (taskId : String) (e : StreamEvent) (later : Rat) : Except String Unit × Broker :=
  if e.event = "delta" then b.keepDelta l taskId e later
  else if e.event = "complete" ∨ e.event = "error" then
    (.ok (), b.keep l taskId e.outcome (later + 60))
  else (.ok (), b.keep l taskId e (later + 3600))

/-- `publish`. -/
def publish (taskId : String) (e : StreamEvent) (now : String → Rat) (later : Rat) :
    Except String Unit × Broker :=
  if ["state", "delta", "complete", "error"].contains e.event then
    let b := b.prune now
    if b.held taskId then b.keepEvent l taskId e later
    -- A bounded preview was evicted.
    else if e.event = "delta" ∧ e.sequence ≠ some 0 then (.ok (), b)
    else
      match b.makeRoom l with
      | .error code => (.error code, b)
      | .ok b => (b.enter taskId).keepEvent l taskId e later
  else (.error "stream broker event kind is invalid", b)

/-- The deltas that a subscriber has not seen. -/
def newer (values : List StreamEvent) (afterSequence : Int) : List StreamEvent :=
  values.filter fun e => e.isDelta && afterSequence < e.number

/-- What `replay` makes of the events and the snapshot of a task. -/
def replayOf (values : List StreamEvent) (snapshot : Option (Int × String))
    (afterSequence : Int) : List StreamEvent :=
  let result := values.filter fun e => !e.isDelta || afterSequence < e.number
  match snapshot with
  | none => result
  | some (sequence, text) =>
      if afterSequence < sequence ∧
          ∀ e ∈ newer values afterSequence, afterSequence + 1 < e.number then
        { event := "delta", sequence := some sequence, delta := some text, snapshot := true
          fields := [] } :: result.filter fun e => !e.isDelta
      else result

/-- `replay`. -/
def replay (taskId : String) (afterSequence : Int) (now : String → Rat) :
    List StreamEvent × Broker :=
  let b := b.prune now
  (replayOf ((b.tasks.get? taskId).getD []) (b.snapshots.get? taskId) afterSequence, b)

end Broker

/-! ### Subscribers -/

/-- The last delta that a subscriber has applied, and its text. -/
structure Reader where
  last : Int
  text : String

/-- Ordinary deltas are appended, a snapshot replaces the text. -/
def Reader.apply (reader : Reader) (e : StreamEvent) : Reader :=
  if e.isDelta then
    ⟨e.number, if e.snapshot then e.delta.getD "" else reader.text ++ e.delta.getD ""⟩
  else reader

/-! ### Runs -/

/-- What a task publishes; its deltas are numbered from zero. -/
inductive TaskEvent
  | state (fields : List (String × Json))
  | delta (text : String) (fields : List (String × Json))
  | complete (fields : List (String × Json))
  | error (fields : List (String × Json))

/-- The event that goes to the broker when so many deltas were published. -/
def TaskEvent.event (sequence : Nat) : TaskEvent → StreamEvent
  | .state fields => ⟨"state", none, none, false, fields⟩
  | .delta text fields => ⟨"delta", some sequence, some text, false, fields⟩
  | .complete fields => ⟨"complete", none, none, false, fields⟩
  | .error fields => ⟨"error", none, none, false, fields⟩

/-- The deltas of a task after an event. -/
def TaskEvent.after (deltas : List String) : TaskEvent → List String
  | .delta text _ => deltas ++ [text]
  | _ => deltas

/-- The broker, the deltas that each task has published, the tasks that have left
the memory, the subscribers of each task, and whether a publish has raised. -/
structure World where
  broker : Broker
  published : String → List String
  evicted : String → Bool
  readers : String → Nat → Reader
  raised : Bool

inductive Event
  | publish (taskId : String) (event : TaskEvent) (now : String → Rat) (later : Rat)
  | replay (taskId : String) (reader : Nat) (now : String → Rat)
  | forget (taskId : String)

namespace World

def empty : World := ⟨.empty, fun _ => [], fun _ => false, fun _ _ => ⟨-1, ""⟩, false⟩

/-- The tasks that a call removes from memory, `pruned` and `last` being the
broker after its prune and at its end. -/
def leave (w : World) (pruned last : Broker) (taskId : String) : Bool :=
  w.evicted taskId ||
    (w.broker.held taskId && !(pruned.held taskId && last.held taskId))

def step (l : Limits) (w : World) : Event → World
  | .publish taskId event now later =>
      let result := w.broker.publish l taskId (event.event (w.published taskId).length) now later
      { broker := result.2
        published := Function.update w.published taskId (event.after (w.published taskId))
        evicted := w.leave (w.broker.prune now) result.2
        readers := w.readers
        raised := w.raised || !result.1.isOk }
  | .replay taskId reader now =>
      let result := w.broker.replay taskId (w.readers taskId reader).last now
      { w with
        broker := result.2
        evicted := w.leave result.2 result.2
        readers := Function.update w.readers taskId (Function.update (w.readers taskId) reader
          (result.1.foldl Reader.apply (w.readers taskId reader))) }
  | .forget taskId =>
      { w with
        broker := w.broker.forget taskId
        evicted := w.leave (w.broker.forget taskId) (w.broker.forget taskId) }

end World

/-- The text of a task's deltas. -/
def textOf (deltas : List String) : String := String.join deltas

/-- The deltas of a task stay within the bytes of a snapshot. -/
def InLimits (l : Limits) (w : World) : Event → Prop
  | .publish taskId event _ _ =>
      (textOf (event.after (w.published taskId))).utf8ByteSize ≤ l.maxSnapshotBytes
  | _ => True

instance (l : Limits) (w : World) : (event : Event) → Decidable (InLimits l w event)
  | .publish taskId event _ _ =>
      inferInstanceAs (Decidable
        ((textOf (event.after (w.published taskId))).utf8ByteSize ≤ l.maxSnapshotBytes))
  | .replay .. => inferInstanceAs (Decidable True)
  | .forget _ => inferInstanceAs (Decidable True)

/-- The states that allowed calls lead to. -/
inductive Run (l : Limits) (allowed : World → Event → Prop) : World → Prop
  | empty : Run l allowed .empty
  | step {w : World} (before : Run l allowed w) (event : Event) (limits : InLimits l w event)
      (ok : allowed w event) : Run l allowed (w.step l event)

/-- No later delta is published for a task that came back into memory without its
snapshot. -/
def Continued (w : World) : Event → Prop
  | .publish taskId (.delta _ _) now _ =>
      w.published taskId = [] ∨ (w.broker.prune now).held taskId = false ∨
        ((w.broker.prune now).snapshots.get? taskId).isSome = true
  | _ => True

instance (w : World) : (event : Event) → Decidable (Continued w event)
  | .publish taskId (.delta _ _) now _ =>
      inferInstanceAs (Decidable (w.published taskId = [] ∨
        (w.broker.prune now).held taskId = false ∨
          ((w.broker.prune now).snapshots.get? taskId).isSome = true))
  | .publish _ (.state _) _ _ => inferInstanceAs (Decidable True)
  | .publish _ (.complete _) _ _ => inferInstanceAs (Decidable True)
  | .publish _ (.error _) _ _ => inferInstanceAs (Decidable True)
  | .replay .. => inferInstanceAs (Decidable True)
  | .forget _ => inferInstanceAs (Decidable True)

end Stream
