import Rynmesh.CheckedComputation
import Rynmesh.InsertionDict
import Rynmesh.JsonValue

/-!
# Order records of language-model tasks

`TaskOrderStore` of `task_protocol.py`, for a store that writes the encrypted
responses into its records: one file for each task, with the state of the task,
a history of a bounded length, and the encrypted response.

* `claim`, `transition`, `checkpoint`, `markAcknowledged`, `purgeExpiredResponses`
  and `get` are the calls, and `call` is what any of them returns and leaves;
* `awaitingArchive` is what protects the response of a success;
* `World` adds to the store what a reader would note of it: the time of each
  success and the response stored with it.

A call reads the clock, and each of its writes may be refused.
-/

namespace TaskOrders

open Checked

/-! ### States -/

inductive TaskState
  | created | accepted | running | succeeded | failed | timedOut | cancelled | rejected
  deriving DecidableEq

namespace TaskState

def text : TaskState → String
  | created => "created"
  | accepted => "accepted"
  | running => "running"
  | succeeded => "succeeded"
  | failed => "failed"
  | timedOut => "timed_out"
  | cancelled => "cancelled"
  | rejected => "rejected"

/-- `ALL_STATES`. -/
def all : List TaskState :=
  [created, accepted, running, succeeded, failed, timedOut, cancelled, rejected]

def ofText (state : String) : Option TaskState := all.find? fun s => s.text = state

/-- `TERMINAL_STATES`. -/
def terminal : List TaskState := [succeeded, failed, timedOut, cancelled, rejected]

/-- `ALLOWED_TRANSITIONS`. -/
def allowed : TaskState → List TaskState
  | created => [accepted, failed, timedOut, cancelled, rejected]
  | accepted => [running, failed, timedOut, cancelled, rejected]
  | running => [succeeded, failed, timedOut, cancelled, rejected]
  | _ => []

end TaskState

/-! ### Records -/

structure TaskRecord where
  taskId : String
  state : TaskState
  bindings : Option (Dict String String)
  createdAt : String
  updatedAt : String
  history : List Json
  encryptedResponse : Option Json
  acknowledgedAt : Option String
  responsePurgedAt : Option String

/-- The fields of the record in its file. -/
def TaskRecord.fields (record : TaskRecord) : List (String × Json) :=
  [("task_id", .str record.taskId), ("state", .str record.state.text),
    ("created_at", .str record.createdAt), ("updated_at", .str record.updatedAt),
    ("history", .arr record.history)] ++
  (record.bindings.map fun b =>
    ("bindings", Json.object (b.entries.map fun f => (f.1, .str f.2)))).toList ++
  (record.encryptedResponse.map fun r => ("encrypted_response", r)).toList ++
  (record.acknowledgedAt.map fun t => ("acknowledged_at", Json.str t)).toList ++
  (record.responsePurgedAt.map fun t => ("response_purged_at", Json.str t)).toList

def TaskRecord.json (record : TaskRecord) : Json := .object record.fields

/-- A character in the text of a string, with `ensure_ascii`. -/
def charSize (c : Char) : Nat :=
  if c = '"' ∨ c = '\\' ∨ c = '\n' ∨ c = '\r' ∨ c = '\t' ∨ c.val = 8 ∨ c.val = 12 then 2
  else if ' ' ≤ c ∧ c ≤ '~' then 1
  else if c.val ≤ 0xffff then 6
  else 12

def stringSize (text : String) : Nat := 2 + (text.toList.map charSize).sum

mutual

/-- The bytes of `json.dumps(value, indent=2)` at an indentation. -/
def dumpsSize (indent : Nat) : Json → Nat
  | .null => 4
  | .bool b => if b then 4 else 5
  | .int n => Json.intSize n
  | .float _ text => text.utf8ByteSize
  | .str s => stringSize s
  | .arr [] => 2
  | .arr (first :: rest) => itemsSize (indent + 2) (first :: rest) + indent + 2
  | .obj [] => 2
  | .obj (first :: rest) => fieldsSize (indent + 2) (first :: rest) + indent + 2
termination_by structural v => v

/-- Each item on a line of its own, with a bracket or a comma before the line. -/
def itemsSize (indent : Nat) : List Json → Nat
  | [] => 0
  | item :: rest => 2 + indent + dumpsSize indent item + itemsSize indent rest
termination_by structural items => items

def fieldsSize (indent : Nat) : List (String × Json) → Nat
  | [] => 0
  | field :: rest => 2 + indent + fieldSize indent field + fieldsSize indent rest
termination_by structural fields => fields

def fieldSize (indent : Nat) : String × Json → Nat
  | (key, value) => stringSize key + 2 + dumpsSize indent value
termination_by structural field => field

end

/-- What the store uses of its libraries; times are in microseconds. -/
structure Platform where
  /-- `_parse_time`, none where it raises. -/
  parseTime : String → Option Int
  /-- What it raises is an `OverflowError`, which the purge does not catch. -/
  overflows : String → Bool
  /-- `str`. -/
  str : Json → String
  parseTime_empty : parseTime "" = none
  str_str : ∀ s, str (.str s) = s

/-- A clock reading with its `isoformat`, which parses. -/
structure Reading (p : Platform) where
  time : Int
  iso : String
  parses : p.parseTime iso = some time

/-- What a call meets: the clock, and the error of writing a record if there is one. -/
structure Env (p : Platform) where
  now : Reading p
  refuses : String → Option String

def maxRecordBytes : Nat := 16 * 1024 * 1024

def maxRecords : Nat := 10000

/-- `UNACKNOWLEDGED_SUCCESS_GRACE`. -/
def grace : Int := 7 * 24 * 60 * 60 * 1000000

abbrev Store := Dict String TaskRecord

/-- `_path`. -/
def validId (taskId : String) : Bool :=
  taskId ≠ "" && taskId.length ≤ 128 &&
    taskId.toList.all fun c =>
      ('a' ≤ c && c ≤ 'z') || ('A' ≤ c && c ≤ 'Z') || ('0' ≤ c && c ≤ '9') || c = '-' || c = '_'

/-- `{**event, **metadata}`. -/
def overlay (event : Json) (metadata : Dict String Json) : Json :=
  metadata.entries.foldl (fun e f => e.withField f.1 f.2) event

/-- The first item and the newest ones stay. -/
def trimmed (history : List Json) : List Json :=
  match history with
  | [] => []
  | first :: rest =>
      if 64 < (first :: rest).length then
        first :: (first :: rest).drop ((first :: rest).length - 63)
      else first :: rest

/-- `item.get(key)` holds something. -/
def tells (item : Json) (key : String) : Bool := ((item.get? key).getD .null).truthy

/-- The newest item that tells of the success itself. -/
def completedAt (record : TaskRecord) : Option Json :=
  (record.history.reverse.find? fun item =>
    item.get? "state" = some (.str "succeeded") && tells item "at" && !tells item "checkpoint").bind
      fun item => item.get? "at"

variable (p : Platform)

/-- `_awaiting_archive`. -/
def awaitingArchive (record : TaskRecord) (now : Int) : Bool :=
  if record.state ≠ .succeeded then false
  else if (record.acknowledgedAt.getD "") ≠ "" then false
  else if !(record.encryptedResponse.getD .null).truthy then false
  else
    match completedAt record with
    | none => false
    | some value =>
        match p.parseTime (p.str value) with
        | none => false
        | some completed => now - completed < grace

/-- The newest expiry in the history. -/
def responseExpiresAt (record : TaskRecord) : Option Json :=
  (record.history.reverse.find? fun item => tells item "response_expires_at").bind
    fun item => item.get? "response_expires_at"

/-- The expiry of the response has passed or cannot be read. -/
def due (record : TaskRecord) (now : Int) : Bool :=
  match responseExpiresAt record with
  | none => false
  | some value =>
      match p.parseTime (p.str value) with
      | none => true
      | some expires => expires ≤ now

/-- `_awaiting_archive` reads the time of the success, and it is out of range. -/
def archiveRaises (record : TaskRecord) : Bool :=
  record.state = .succeeded && record.acknowledgedAt.getD "" = "" &&
    (record.encryptedResponse.getD .null).truthy &&
      (completedAt record).any fun value => p.overflows (p.str value)

/-- The expiry of the response is out of range. -/
def expiryRaises (record : TaskRecord) : Bool :=
  (responseExpiresAt record).any fun value => p.overflows (p.str value)

variable {p} (env : Env p) (store : Store)

/-- `_read`. -/
def get (taskId : String) : Except String (Option TaskRecord) := do
  require "invalid task id" (validId taskId)
  pure (store.get? taskId)

/-- `_write`. -/
def write (record : TaskRecord) : Except String Store := do
  require "invalid task id" (validId record.taskId)
  let value := { record with history := trimmed record.history }
  require "task record size limit exceeded" (dumpsSize 0 value.json ≤ maxRecordBytes)
  match env.refuses record.taskId with
  | some failure => .error failure
  | none => pure (store.set record.taskId value)

/-- Dictionaries are equal whatever the order of their keys. -/
def SameBindings (a b : Dict String String) : Prop :=
  (∀ k ∈ a.keys, a.get? k = b.get? k) ∧ ∀ k ∈ b.keys, a.get? k = b.get? k

instance (a b : Dict String String) : Decidable (SameBindings a b) :=
  inferInstanceAs (Decidable (_ ∧ _))

/-- The record of a task that is claimed for the first time. -/
def claimed (taskId : String) (bindings : Dict String String) : TaskRecord :=
  { taskId, state := .created, bindings := some bindings, createdAt := env.now.iso
    updatedAt := env.now.iso
    history := [.object [("state", .str "created"), ("at", .str env.now.iso)]]
    encryptedResponse := none, acknowledgedAt := none, responsePurgedAt := none }

/-- What `claim` does under the lock. -/
def claimRecord (taskId : String) (bindings : Dict String String) :
    Option TaskRecord → Except String ((TaskRecord × Bool) × Store)
  | some existing => do
      require "task idempotency conflict"
        (SameBindings (existing.bindings.getD .empty) bindings)
      pure ((existing, false), store)
  | none => do
      require "task_record_limit_reached" (store.entries.length < maxRecords)
      let store' ← write env store (claimed env taskId bindings)
      pure ((claimed env taskId bindings, true), store')

def claim (taskId : String) (bindings : Dict String String) :
    Except String ((TaskRecord × Bool) × Store) := do
  require "task bindings must be non-empty strings"
    (bindings.entries ≠ [] ∧ ∀ value ∈ bindings.values, value ≠ "")
  require "task binding exceeds limit" (∀ value ∈ bindings.values, value.length ≤ 4096)
  let existing ← get store taskId
  claimRecord env store taskId bindings existing

def forbidden : List String :=
  ["prompt", "response", "text", "messages", "context", "api_key", "model_path"]

/-- The event that a transition adds. -/
def transitionEvent (state : TaskState) (metadata : Dict String Json) (recovery : Bool) : Json :=
  let event := overlay
    (.object [("state", .str state.text), ("at", .str env.now.iso)]) metadata
  if recovery then event.withField "recovered_after_reconnect" (.bool true) else event

/-- The record after a transition. -/
def moved (record : TaskRecord) (state : TaskState) (event : Json) (response : Option Json) :
    TaskRecord :=
  { record with
    state, updatedAt := env.now.iso, history := record.history ++ [event]
    encryptedResponse := response.or record.encryptedResponse }

/-- The record that a transition creates, without bindings. -/
def started (taskId : String) (metadata : Dict String Json) : TaskRecord :=
  { taskId, state := .created, bindings := none, createdAt := env.now.iso
    updatedAt := env.now.iso
    history := [overlay (.object [("state", .str "created"), ("at", .str env.now.iso)]) metadata]
    encryptedResponse := none, acknowledgedAt := none, responsePurgedAt := none }

/-- A failed or timed-out task may recover. -/
def recovers (record : TaskRecord) (state : TaskState) (allowRecovery : Bool) : Bool :=
  allowRecovery && [TaskState.failed, .timedOut].contains record.state && state = .succeeded

/-- What `transition` does under the lock. -/
def transitionRecord (taskId : String) (state : TaskState) (metadata : Dict String Json)
    (response : Option Json) (allowRecovery : Bool) :
    Option TaskRecord → Except String (TaskRecord × Store)
  | none => do
      require "task must be created before transitioning" (state = .created)
      let store' ← write env store (started env taskId metadata)
      pure (started env taskId metadata, store')
  | some record =>
      if TaskState.terminal.contains record.state && !recovers record state allowRecovery then
        pure (record, store)
      else if state = record.state then pure (record, store)
      else do
        require ("invalid task transition: " ++ record.state.text ++ " -> " ++ state.text)
          (recovers record state allowRecovery ∨ state ∈ record.state.allowed)
        let event := transitionEvent env state metadata (recovers record state allowRecovery)
        require "task metadata contains a forbidden body/secret field"
          (∀ key ∈ event.keys, key ∉ forbidden)
        let store' ← write env store (moved env record state event response)
        pure (moved env record state event response, store')

def transition (taskId : String) (state : String) (metadata : Dict String Json)
    (response : Option Json) (allowRecovery : Bool) : Except String (TaskRecord × Store) := do
  let state ← demand "invalid task state" (TaskState.ofText state)
  let record ← get store taskId
  transitionRecord env store taskId state metadata response allowRecovery record

/-- The event that a checkpoint adds. -/
def checkpointEvent (record : TaskRecord) (metadata : Dict String Json) : Json :=
  overlay
    (.object [("state", .str record.state.text), ("at", .str env.now.iso),
      ("checkpoint", .bool true)]) metadata

/-- The record after a checkpoint. -/
def checked (record : TaskRecord) (event : Json) (response : Option Json) : TaskRecord :=
  { record with
    updatedAt := env.now.iso, history := record.history ++ [event]
    encryptedResponse := response.or record.encryptedResponse }

def checkpoint (taskId : String) (metadata : Dict String Json) (response : Option Json) :
    Except String (TaskRecord × Store) := do
  let found ← get store taskId
  let record ← demand "task must exist before checkpointing" found
  let event := checkpointEvent env record metadata
  require "task metadata contains a forbidden body/secret field"
    (∀ key ∈ event.keys, key ∉ forbidden)
  let store' ← write env store (checked env record event response)
  pure (checked env record event response, store')

def markAcknowledged (taskId : String) : Except String (Bool × Store) := do
  let found ← get store taskId
  match found with
  | none => pure (false, store)
  | some record =>
      (write env store { record with acknowledgedAt := some env.now.iso }).map fun s => (true, s)

/-- The record without its response. -/
def purged (record : TaskRecord) : TaskRecord :=
  { record with encryptedResponse := none, responsePurgedAt := some env.now.iso }

def purgeEncryptedResponse (taskId : String) : Except String (Bool × Store) := do
  let found ← get store taskId
  match found with
  | none => pure (false, store)
  | some record =>
      if record.encryptedResponse.isNone then pure (false, store)
      else (write env store (purged env record)).map fun s => (true, s)

/-- One file of `purge_expired_responses`. -/
def purgeOne (taskId : String) : Except String (Bool × Store) := do
  let found ← get store taskId
  match found with
  | none => pure (false, store)
  | some record => do
      require "OverflowError" (archiveRaises p record = false)
      if awaitingArchive p record env.now.time then pure (false, store)
      else do
        require "OverflowError" (expiryRaises p record = false)
        if due p record env.now.time then purgeEncryptedResponse env store record.taskId
        else pure (false, store)

/-- The files one after the other; an error ends the loop. -/
def purgeFrom : List String → Nat → Store → Except String Nat × Store
  | [], count, store => (.ok count, store)
  | taskId :: rest, count, store =>
      match purgeOne env store taskId with
      | .error failure => (.error failure, store)
      | .ok (done, store') => purgeFrom rest (count + done.toNat) store'

/-- `sorted(self.root.glob("*.json"))`. -/
def files : List String := store.keys.insertionSort fun a b => a ++ ".json" ≤ b ++ ".json"

def purgeExpiredResponses : Except String Nat × Store := purgeFrom env (files store) 0 store

/-! ### Calls -/

inductive Call
  | claim (taskId : String) (bindings : Dict String String)
  | transition (taskId state : String) (metadata : Dict String Json) (response : Option Json)
      (allowRecovery : Bool)
  | checkpoint (taskId : String) (metadata : Dict String Json) (response : Option Json)
  | markAcknowledged (taskId : String)
  | purgeExpiredResponses
  | get (taskId : String)

/-- What a call returns. -/
inductive Outcome
  | claimed (record : TaskRecord) (fresh : Bool)
  | record (record : TaskRecord)
  | done (flag : Bool)
  | count (purged : Nat)
  | found (record : Option TaskRecord)

/-- A refused call leaves the store as it was. -/
def commit {α : Type} (value : α → Outcome) :
    Except String (α × Store) → Except String Outcome × Store
  | .ok (a, store') => (.ok (value a), store')
  | .error failure => (.error failure, store)

def call : Call → Except String Outcome × Store
  | .claim taskId bindings =>
      commit store (fun c => .claimed c.1 c.2) (claim env store taskId bindings)
  | .transition taskId state metadata response allowRecovery =>
      commit store .record (transition env store taskId state metadata response allowRecovery)
  | .checkpoint taskId metadata response =>
      commit store .record (checkpoint env store taskId metadata response)
  | .markAcknowledged taskId => commit store .done (markAcknowledged env store taskId)
  | .purgeExpiredResponses =>
      ((purgeExpiredResponses env store).1.map .count, (purgeExpiredResponses env store).2)
  | .get taskId => commit store .found ((get store taskId).map fun r => (r, store))

end TaskOrders
