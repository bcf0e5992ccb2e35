import Rynmesh.CausalRecords
import Rynmesh.CheckedComputation
import Rynmesh.InsertionDict

/-!
# The conversations of a node

`ask_ryn/store.py` and `device_sync/conversations.py`: one encrypted file holds
the conversations, the tombstones of deleted ones, the runs of the assistant
and, once devices are synced, a causal record of every conversation.

* `Conversation.clean` is the check of `clean_conversation`;
* `SyncState` is `ConversationState`, its `capture` part of every write;
* `History.save`, `remove` and `syncReceive` are the calls of the owner and of
  other devices, each of them one transaction on the file.

The fields of a record are typed, so the type checks of the source are left out, and
so are fields that no call reads.  Times, fingerprints and sizes belong to `Platform`.
-/

namespace Ask

open Checked Records

inductive Role
  | user
  | assistant
  deriving DecidableEq

inductive MessageStatus
  | complete
  | failed
  | cancelled
  | queued
  | running
  | cancelRequested
  | interrupted
  deriving DecidableEq

/-- `_FINAL`. -/
def MessageStatus.final : MessageStatus → Bool
  | .complete | .failed | .cancelled | .interrupted => true
  | .queued | .running | .cancelRequested => false

structure Message where
  id : String
  role : Role
  content : String
  createdAt : String
  status : MessageStatus
  taskId : Option String
  inputTokens : Option Rat
  outputTokens : Option Rat
  cost : Option Rat
  contextIds : Option (List String)
  contextBytes : Option (List Nat)
  promptSha256 : Option String
  deriving DecidableEq

structure Conversation where
  id : String
  title : String
  serviceKey : String
  serviceName : String
  providerPeerId : String
  networkId : String
  createdAt : String
  updatedAt : String
  messages : List Message
  revision : Nat
  draft : Option String
  contextIds : Option (List String)
  deriving DecidableEq

inductive RunState
  | queued
  | dispatching
  | running
  | succeeded
  | failed
  | cancelled
  | timedOut
  | interrupted
  deriving DecidableEq

/-- `TERMINAL`. -/
def RunState.terminal : RunState → Bool
  | .queued | .dispatching | .running => false
  | .succeeded | .failed | .cancelled | .timedOut | .interrupted => true

/-- The request that `submit` takes. -/
structure Body where
  taskId : String
  providerPeerId : String
  serviceId : String
  networkId : String
  prompt : String
  promptFormat : String
  aiPermission : Option String
  maxTokens : Nat
  deriving DecidableEq

structure RunRecord where
  taskId : String
  conversationId : String
  fingerprint : String
  state : RunState
  cancelRequested : Bool
  body : Option Body
  errorCode : Option String
  cancelErrorCode : Option String
  cancelDelivered : Bool
  deriving DecidableEq

structure Tombstone where
  revision : Nat
  privacyErased : Bool

/-- The text that was not sent yet, outside of any conversation. -/
structure Draft where
  text : String
  revision : Nat

structure Entity where
  record : Record Conversation
  projected : Record Conversation
  visible : Option Conversation
  localDraft : Option Conversation
  deferred : Bool

structure Restore where
  source : String
  choiceId : String
  revision : String
  replaces : Option String

structure SyncState where
  actor : String
  entities : Dict String Entity
  restores : Dict String Restore

structure Receipt where
  reviewToken : String
  identities : Nat

/-- What the file holds; the records of synced devices from version 2 on. -/
structure History where
  conversations : Dict String Conversation
  tombstones : Dict String Tombstone
  /-- The digests of imported conversations. -/
  migrations : Dict String String
  runs : Dict String RunRecord
  draft : Draft
  sync : Option SyncState
  privacyErasure : Option Receipt

namespace History

def empty : History := ⟨.empty, .empty, .empty, .empty, ⟨"", 0⟩, none, none⟩

end History

structure Platform where
  /-- A text that `datetime.fromisoformat` reads as a time with a zone. -/
  isTimestamp : String → Bool
  /-- `str.strip`. -/
  strip : String → String
  /-- The SHA-256 of the canonical text of an intent. -/
  fingerprint : List (Option String) → String
  valueFingerprint : Option Conversation → String
  recordFingerprint : Record Conversation → String
  /-- `len(_json(..))`. -/
  size : Conversation → Nat
  recordSize : Record Conversation → Nat
  historySize : History → Nat

variable (p : Platform)

/-! ### Cleaning -/

def isHex (text : String) : Bool :=
  text.toList.all fun c => c ∈ "0123456789abcdef".toList

/-- `_identity`. -/
def isIdentity (text : String) : Bool :=
  0 < text.length && text.length ≤ 128 &&
    text.toList.all fun c => c.isAlphanum || c = '_' || c = '-'

/-- `import:imp_` and 32 or 64 hexadecimal digits. -/
def isContextId (text : String) : Bool :=
  "import:imp_".toList.isPrefixOf text.toList && isHex (String.ofList (text.toList.drop 11)) &&
    (text.length = 43 || text.length = 75)

def isTaskId (text : String) : Bool :=
  "task_".toList.isPrefixOf text.toList && isHex (String.ofList (text.toList.drop 5)) &&
    text.length = 37

/-- A text field of a conversation. -/
def isText (limit : Nat) (text : String) : Bool :=
  p.strip text ≠ "" && text.length ≤ limit && text.toList.all fun c => 32 ≤ c.toNat

def checkTimestamp (text : String) : Except String Unit :=
  require "ask_invalid_conversation" (text.length ≤ 64 ∧ p.isTimestamp text = true)

def isAmount : Option Rat → Bool
  | none => true
  | some amount => 0 ≤ amount

def Message.clean (message : Message) : Except String Unit := do
  require "ask_history_limit" (message.content.utf8ByteSize ≤ 256 * 1024)
  checkTimestamp p message.createdAt
  require "ask_invalid_conversation" (message.taskId.all isIdentity = true)
  require "ask_invalid_conversation" (isAmount message.inputTokens = true ∧
    isAmount message.outputTokens = true ∧ isAmount message.cost = true)
  require "ask_context_unavailable" (∀ ids, message.contextIds = some ids →
    ids.length ≤ 3 ∧ ids.all isContextId = true ∧
      (message.contextBytes.getD []).length = ids.length ∧
      (message.contextBytes.getD []).all (fun size => size ≤ 1024 * 1024) = true)
  require "ask_invalid_conversation"
    (message.promptSha256.all (fun hash => hash.length = 64 && isHex hash) = true)

/-- The loop of `clean_conversation` over the messages; `seen` are the ids before. -/
def cleanMessages : List String → List Message → Except String Unit
  | _, [] => .ok ()
  | seen, message :: rest => do
      require "ask_invalid_conversation" (isIdentity message.id = true ∧ message.id ∉ seen)
      message.clean p
      cleanMessages (message.id :: seen) rest

/-- `clean_conversation`: what it returns is the value without its revision. -/
def Conversation.clean (value : Conversation) : Except String Unit := do
  require "ask_invalid_conversation" (isIdentity value.id = true)
  require "ask_invalid_conversation" (isText p 512 value.title = true ∧
    isText p 2048 value.serviceKey = true ∧ isText p 512 value.serviceName = true ∧
    isText p 1024 value.providerPeerId = true ∧ isText p 256 value.networkId = true)
  require "ask_service_binding_mismatch"
    ((value.providerPeerId ++ "::").toList.isPrefixOf value.serviceKey.toList = true ∧
      value.serviceKey ≠ value.providerPeerId ++ "::")
  checkTimestamp p value.createdAt
  checkTimestamp p value.updatedAt
  require "ask_history_limit" (value.messages.length ≤ 2000)
  cleanMessages p [] value.messages
  require "ask_history_limit"
    (value.draft.all (fun text => text.utf8ByteSize ≤ 64 * 1024) = true)
  require "ask_context_unavailable" (∀ ids, value.contextIds = some ids →
    ids.length ≤ 3 ∧ ids.all isContextId = true ∧ ids.Nodup)
  require "ask_history_limit" (p.size { value with revision := 0 } ≤ 1024 * 1024)

/-- The fields that a conversation keeps. -/
def Conversation.binding (value : Conversation) : String × String × String × String :=
  (value.serviceKey, value.providerPeerId, value.networkId, value.createdAt)

/-! ### Values for other devices -/

/-- The tasks of messages that are not final. -/
def unfinished (messages : List Message) : List String :=
  messages.filterMap fun message =>
    if message.status.final then none else message.taskId.filter fun task => task ≠ ""

def finished (messages : List Message) : List Message :=
  messages.filter fun message =>
    message.status.final && message.taskId.all fun task => task ∉ unfinished messages

/-- A title that does not show a request in flight. -/
def sharedTitle (messages : List Message) : String :=
  let first := ((messages.find? fun message => message.role = .user).map
    Message.content).getD "Conversation"
  let title := String.ofList ((first.toList.map fun c => if 32 ≤ c.toNat then c else ' ').take 512)
  if title = "" then "Conversation" else title

/-- What `clean_value` makes of a conversation. -/
def Conversation.shared (value : Conversation) : Conversation :=
  if (finished value.messages).length = value.messages.length then
    { value with revision := 0, draft := none }
  else
    { value with
      revision := 0
      draft := none
      messages := finished value.messages
      title := sharedTitle (finished value.messages)
      updatedAt := ((finished value.messages).getLast?.map Message.createdAt).getD value.createdAt }

/-- The scope of conversations. -/
def scope : Scope Conversation where
  isConversations := true
  clean identifier value :=
    match value.clean p with
    | .ok _ =>
        if value.id = identifier then .ok value.shared else .error "sync_entity_invalid"
    | .error _ => .error "sync_conversation_invalid"
  binding := Conversation.binding
  fingerprint := p.valueFingerprint
  size := p.recordSize

/-! ### Runs of a conversation -/

/-- `active`. -/
def active (runs : Dict String RunRecord) (identifier : String) : Bool :=
  runs.values.any fun run => run.conversationId = identifier && !run.state.terminal

/-- What `cancel_runs` makes of one run. -/
def RunRecord.cancelFor (identifier : String) (run : RunRecord) : RunRecord :=
  if run.conversationId = identifier then
    { run with body := none, cancelRequested := run.cancelRequested || !run.state.terminal }
  else run

/-- What `remove` makes of one run: queued ones end. -/
def RunRecord.removeFor (identifier : String) (run : RunRecord) : RunRecord :=
  if run.conversationId = identifier then
    { run with
      body := none
      cancelRequested := run.cancelRequested || !run.state.terminal
      state := if run.state = .queued then .cancelled else run.state }
  else run

/-! ### Records of synced devices -/

def maxEntities : Nat := 10000

namespace SyncState

variable (state : SyncState)

/-- `_entity`. -/
def entity (identifier : String) : Except String Entity :=
  match state.entities.get? identifier with
  | some entity => .ok entity
  | none => do
      require "sync_capacity_exhausted" (state.entities.entries.length < maxEntities)
      return ⟨Records.empty, Records.empty, none, none, false⟩

def put (identifier : String) (entity : Entity) : SyncState :=
  { state with entities := state.entities.set identifier entity }

end SyncState

/-- The record that a local write starts from: what the branch shown here had seen. -/
def Entity.base (entity : Entity) (actor : String) (erase : Bool) : Record Conversation :=
  if erase then entity.record
  else if entity.projected.clockAt actor < entity.record.clockAt actor then
    ⟨entity.projected.clock.set actor (entity.record.clockAt actor),
      entity.projected.heads.filter fun head => head.actor ≠ actor, entity.projected.erased⟩
  else entity.projected

def Entity.wrote (entity : Entity) (record updated : Record Conversation)
    (value : Option Conversation) (erase : Bool) : Entity where
  record := record
  projected := updated
  visible := value
  localDraft := if erase then none else entity.localDraft
  deferred := entity.deferred

namespace SyncState

/-- `_write`. -/
def write (state : SyncState) (identifier : String) (value : Option Conversation)
    (erase : Bool) : Except String SyncState := do
  let entity ← state.entity identifier
  let updated ← Records.write (scope p) identifier (entity.base state.actor erase) state.actor
    value erase
  let record ← Records.merge (scope p) identifier entity.record updated
  return state.put identifier (entity.wrote record updated value erase)

/-- The record of a conversation follows its value. -/
def follow (state : SyncState) (identifier : String) (value : Option Conversation) :
    Except String SyncState :=
  match state.entities.get? identifier with
  | some entity =>
      if p.valueFingerprint entity.visible = p.valueFingerprint value then .ok state
      else state.write p identifier value false
  | none => state.write p identifier value false

/-- One conversation of `capture`. -/
def captureOne (runs : Dict String RunRecord) (seed : Bool)
    (current : SyncState × Dict String Conversation) (item : String × Conversation) :
    Except String (SyncState × Dict String Conversation) :=
  if active runs item.1 && !seed then .ok current
  else do
    let value ← cleanValue (scope p) item.1 (some item.2)
    let state ← current.1.follow p item.1 value
    let entity ← state.entity item.1
    let shown ← view (scope p) item.1 entity.record
    if active runs item.1 then return (state, current.2)
    else if shown.deleted then
      return (state.put item.1 { entity with deferred := false, visible := none },
        current.2.erase item.1)
    else return (state.put item.1 { entity with deferred := false }, current.2)

/-- One tombstone of `capture`. -/
def captureTombstone (conversations : Dict String Conversation) (state : SyncState)
    (item : String × Tombstone) : Except String SyncState :=
  if (conversations.get? item.1).isSome then .ok state
  else if item.2.privacyErased then
    match state.entities.get? item.1 with
    | some entity =>
        if entity.record.erased then .ok state else state.write p item.1 none true
    | none => state.write p item.1 none true
  else
    match state.entities.get? item.1 with
    | some entity =>
        if entity.visible = none then .ok state else state.write p item.1 none false
    | none => state.write p item.1 none false

end SyncState

namespace History

/-- `capture`. -/
def capture (data : History) (seed : Bool) (state : SyncState) : Except String History := do
  let captured ← data.conversations.entries.foldlM (SyncState.captureOne p data.runs seed)
    (state, data.conversations)
  let state ← data.tombstones.entries.foldlM (SyncState.captureTombstone p captured.2) captured.1
  return { data with conversations := captured.2, sync := some state }

def limit (data : History) : Nat :=
  if data.sync.isSome then 64 * 1024 * 1024 else 11 * 1024 * 1024

/-- The history with its records, where devices are synced. -/
def recorded (data : History) (captureSync : Bool) : Except String History :=
  match data.sync with
  | some state => if captureSync then data.capture p false state else .ok data
  | none => .ok data

/-- `_write`, up to the bytes that reach the disk. -/
def write (data : History) (captureSync : Bool) : Except String History := do
  let captured ← data.recorded p captureSync
  require "ask_history_limit" (p.historySize captured ≤ captured.limit)
  return captured

/-- `enable_sync`. -/
def enableSync (data : History) (actor : String) : Except String History :=
  match data.sync with
  | some _ => .ok data
  | none => do
      let captured ← data.capture p true ⟨actor, .empty, .empty⟩
      captured.write p false

end History

/-! ### Calls of the owner -/

/-- `{**old, **row}`: what a row of a save does not name stays. -/
def Message.over (row old : Message) : Message :=
  { row with
    taskId := row.taskId <|> old.taskId
    inputTokens := row.inputTokens <|> old.inputTokens
    outputTokens := row.outputTokens <|> old.outputTokens
    cost := row.cost <|> old.cost
    contextIds := row.contextIds <|> old.contextIds
    contextBytes := row.contextBytes <|> old.contextBytes
    promptSha256 := row.promptSha256 <|> old.promptSha256 }

/-- The messages of a save over those with the same ids before. -/
def overMessages (old rows : List Message) : List Message :=
  rows.map fun row =>
    match old.find? fun message => message.id = row.id with
    | some message => row.over message
    | none => row

/-- What a save makes of a conversation. -/
def Conversation.saved (value : Conversation) (prior : Option Conversation) (revision : Nat) :
    Conversation :=
  { value with
    messages := overMessages ((prior.map Conversation.messages).getD []) value.messages
    draft := value.draft <|> prior.bind Conversation.draft
    contextIds := value.contextIds <|> prior.bind Conversation.contextIds
    revision }

namespace History

variable (data : History)

def put (identifier : String) (conversation : Conversation) : History :=
  { data with conversations := data.conversations.set identifier conversation }

def drop (identifier : String) : History :=
  { data with conversations := data.conversations.erase identifier }

/-- The checks of a save over a conversation that exists. -/
def checkPrior (value : Conversation) : Option Conversation → Except String Unit
  | none => .ok ()
  | some prior => do
      require "ask_service_binding_mismatch" (prior.binding = value.binding)
      prior.clean p

def checkSave (value : Conversation) (expectedRevision : Nat) : Except String Unit := do
  require "ask_revision_conflict"
    (((data.conversations.get? value.id).map Conversation.revision).getD 0 = expectedRevision)
  require "ask_run_busy" (∀ prior, data.conversations.get? value.id = some prior →
    active data.runs value.id = true → value.messages = prior.messages)
  require "ask_history_limit" (data.conversations.get? value.id = none →
    data.conversations.entries.length < 1000)

/-- `save`; a value like the stored one is a write after a lost response. -/
def save (value : Conversation) (expectedRevision : Nat) : Except String History := do
  value.clean p
  require "ask_conversation_deleted" (data.tombstones.get? value.id = none)
  checkPrior p value (data.conversations.get? value.id)
  if data.conversations.get? value.id |>.any fun prior =>
      ({ prior with revision := 0 } : Conversation) = { value with revision := 0 } then
    return data
  else do
    data.checkSave value expectedRevision
    (data.put value.id (value.saved (data.conversations.get? value.id)
      (expectedRevision + 1))).write p true

/-- The history without a conversation. -/
def removed (identifier : String) (revision : Nat) : History :=
  { data with
    conversations := data.conversations.erase identifier
    tombstones := data.tombstones.set identifier ⟨revision, false⟩
    runs := data.runs.mapValues (RunRecord.removeFor identifier) }

/-- `remove`. -/
def remove (identifier : String) (expectedRevision : Nat) : Except String History := do
  require "ask_invalid_conversation" (isIdentity identifier = true)
  require "ask_revision_required" (1 ≤ expectedRevision)
  match data.conversations.get? identifier with
  | none => do
      require "ask_conversation_not_found" (data.tombstones.get? identifier ≠ none)
      return data
  | some prior => do
      require "ask_revision_conflict" (prior.revision = expectedRevision)
      require "ask_history_limit" (data.tombstones.entries.length < 10000)
      (data.removed identifier (expectedRevision + 1)).write p true

/-! ### Rows of other devices -/

/-- The history in which another device deleted a conversation. -/
def deletedElsewhere (identifier : String) : History :=
  { data with
    tombstones := match data.tombstones.get? identifier with
      | some _ => data.tombstones
      | none => data.tombstones.set identifier
          ⟨((data.conversations.get? identifier).map Conversation.revision).getD 0 + 1, false⟩
    runs := data.runs.mapValues (RunRecord.cancelFor identifier) }

/-- A conversation hidden from the owner's reads moves its revision. -/
def bump (identifier : String) : History :=
  match data.conversations.get? identifier with
  | some prior => data.put identifier { prior with revision := prior.revision + 1 }
  | none => data

/-- The draft of a conversation that is deleted elsewhere stays here. -/
def keptDraft (identifier : String) (entity : Entity) (erased : Bool) :
    Except String (Option Conversation) :=
  if erased then .ok none
  else match data.conversations.get? identifier with
    | none => .ok entity.localDraft
    | some prior =>
        if prior.draft.all fun text => text = "" then .ok entity.localDraft
        else do
          let value ← cleanValue (scope p) identifier (some prior)
          return value.map fun value => { value with draft := prior.draft }

/-- `project` of a record that is deleted. -/
def projectDeleted (state : SyncState) (identifier : String) (entity : Entity) (erased : Bool) :
    Except String (SyncState × History) := do
  let localDraft ← data.keptDraft p identifier entity erased
  if active data.runs identifier && (data.conversations.get? identifier).isSome && !erased then
    return (state.put identifier { entity with localDraft, deferred := true },
      (data.deletedElsewhere identifier).bump identifier)
  else
    return (state.put identifier
        { entity with localDraft, visible := none, projected := entity.record, deferred := false },
      (data.deletedElsewhere identifier).drop identifier)

/-- The incoming branch, its messages over those here. -/
def incoming (identifier : String) (value : Conversation) : Conversation :=
  { value with
    messages := overMessages
      (((data.conversations.get? identifier).map Conversation.messages).getD []) value.messages }

/-- The incoming branch over the conversation here. -/
def received (identifier : String) (value : Conversation) : Conversation :=
  value.saved (data.conversations.get? identifier)
    (((data.conversations.get? identifier).map Conversation.revision).getD 0 + 1)

/-- `project`. -/
def project (state : SyncState) (identifier : String) : Except String (SyncState × History) := do
  let entity ← state.entity identifier
  let shown ← view (scope p) identifier entity.record
  if shown.deleted then data.projectDeleted p state identifier entity shown.erased
  else if shown.conflict || active data.runs identifier then
    return (state.put identifier { entity with deferred := active data.runs identifier },
      data.bump identifier)
  else match shown.branches with
    | [] => return (state, data)
    | value :: _ => do
        require "sync_conversation_deleted" (data.tombstones.get? identifier = none)
        require "sync_service_binding_mismatch" (∀ prior,
          data.conversations.get? identifier = some prior → prior.binding = value.binding)
        let visible ← cleanValue (scope p) identifier (some (data.incoming identifier value))
        return (state.put identifier
            { entity with projected := entity.record, visible, deferred := false },
          data.put identifier (data.received identifier value))

/-- One row of `merge`. -/
def mergeRow (current : SyncState × History) (row : String × Record Conversation) :
    Except String (SyncState × History) := do
  require "ask_invalid_conversation" (isIdentity row.1 = true)
  let entity ← current.1.entity row.1
  let record ← Records.merge (scope p) row.1 entity.record row.2
  if p.recordFingerprint record = p.recordFingerprint entity.record then
    return (current.1.put row.1 { entity with record }, current.2)
  else current.2.project p (current.1.put row.1 { entity with record }) row.1

/-- `sync_receive`: rows of one batch, each conversation once. -/
def syncReceive (rows : List (String × Record Conversation)) : Except String History :=
  match data.sync with
  | none => .error "sync_not_enabled"
  | some state => do
      require "sync_batch_invalid" (rows.map Prod.fst).Nodup
      let merged ← rows.foldlM (mergeRow p) (state, data)
      require "ask_history_limit" (merged.2.conversations.entries.length ≤ 1000 ∧
        merged.2.tombstones.entries.length ≤ 10000)
      ({ merged.2 with sync := some merged.1 }).write p false

end History

end Ask
