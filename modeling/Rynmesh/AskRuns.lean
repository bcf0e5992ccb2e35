import Rynmesh.AskHistory

/-!
# Runs of the assistant

`ask_ryn/runs.py`: a question is stored together with the run that answers it,
and a worker submits the run to the order service, checks it and archives its
outcome.

* `History.begin`, `cancel`, `mark` and `finish` are the transactions;
* `Stage` is where the worker stands in `run_once`;
* `Step` interleaves the owner, other devices and the worker, which may be
  stopped between any two of its steps.

The order service and the preview of a prompt answer anything.  Which pending run is
checked first depends on times in memory only and is left open.
-/

namespace Ask

open Checked

variable (p : Platform)

/-- What `begin` is asked for. -/
structure Intent where
  conversationId : String
  expectedRevision : Nat
  question : String
  promptSha256 : String
  aiPermission : Option String

/-- What the preview of a question shows. -/
structure Preview where
  promptSha256 : String
  aiPermission : Option String
  /-- The library ids of the sources, with the bytes included of each. -/
  sources : List (String × Nat)
  providerPeerId : String
  serviceId : String
  prompt : String
  promptFormat : String
  maxOutputTokens : Nat

def Intent.fingerprint (intent : Intent) : String :=
  p.fingerprint [some intent.conversationId, some (toString intent.expectedRevision),
    some intent.question, some intent.promptSha256, intent.aiPermission]

/-- What the order service tells about a task; the state is none where it is not one of a run. -/
structure Outcome where
  state : Option RunState
  resultPending : Bool
  output : Option String
  errorCode : Option String
  inputTokens : Option Rat
  outputTokens : Option Rat
  amount : Option Rat

/-- An outcome without a word of the service. -/
def Outcome.only (state : RunState) : Outcome := ⟨some state, false, none, none, none, none, none⟩

/-! ### Messages -/

def questionId (taskId : String) : String := "question_" ++ taskId

def answerId (taskId : String) : String := "answer_" ++ taskId

def question (taskId text now : String) : Message where
  id := questionId taskId
  role := .user
  content := text
  createdAt := now
  status := .complete
  taskId := some taskId
  inputTokens := none
  outputTokens := none
  cost := none
  contextIds := none
  contextBytes := none
  promptSha256 := none

def answer (taskId : String) (preview : Preview) (now : String) : Message where
  id := answerId taskId
  role := .assistant
  content := "Queued on this node. You can leave this page and return later."
  createdAt := now
  status := .queued
  taskId := some taskId
  inputTokens := none
  outputTokens := none
  cost := none
  contextIds := some (preview.sources.map Prod.fst)
  contextBytes := some (preview.sources.map Prod.snd)
  promptSha256 := some preview.promptSha256

/-- The title of a conversation whose first question this is. -/
def firstTitle (row : Conversation) (text : String) : String :=
  let title := String.ofList
    (((p.strip text).toList.map fun c => if c = '\n' ∨ c = '\r' then ' ' else c).take 80)
  String.ofList ((if title = "" then row.title else title).toList.filter fun c => 32 ≤ c.toNat)

/-- A conversation with a question that waits for its answer. -/
def Conversation.asked (row : Conversation) (taskId : String) (intent : Intent)
    (preview : Preview) (now : String) : Conversation :=
  { row with
    messages := row.messages ++ [question taskId intent.question now, answer taskId preview now]
    draft := some ""
    updatedAt := now
    title := if row.messages = [] then firstTitle p row intent.question else row.title }

/-- An answer with the state and the text of its run. -/
def Message.shown (message : Message) (status : MessageStatus) (content : String)
    (result : Option Outcome) : Message :=
  { message with
    status
    content
    inputTokens := result.bind Outcome.inputTokens <|> message.inputTokens
    outputTokens := result.bind Outcome.outputTokens <|> message.outputTokens
    cost := result.bind Outcome.amount <|> message.cost }

/-- The first answer of a task replaced. -/
def showFirst (taskId : String) (f : Message → Message) : List Message → List Message
  | [] => []
  | message :: rest =>
      if message.id = answerId taskId then f message :: rest
      else message :: showFirst taskId f rest

/-- A conversation whose answer to a run is shown anew. -/
def Conversation.answered (row : Conversation) (run : RunRecord) (f : Message → Message)
    (now : String) : Conversation :=
  { row with
    messages := showFirst run.taskId f row.messages
    updatedAt := now
    revision := row.revision + 1 }

/-! ### Transactions -/

/-- The run of an intent. -/
def RunRecord.begun (taskId : String) (intent : Intent) (preview : Preview)
    (networkId fingerprint : String) : RunRecord where
  taskId := taskId
  conversationId := intent.conversationId
  fingerprint := fingerprint
  state := .queued
  cancelRequested := false
  body := some ⟨taskId, preview.providerPeerId, preview.serviceId, networkId, preview.prompt,
    preview.promptFormat, intent.aiPermission, preview.maxOutputTokens⟩
  errorCode := none
  cancelErrorCode := none
  cancelDelivered := false

namespace History

variable (data : History)

def putRun (taskId : String) (run : RunRecord) : History :=
  { data with runs := data.runs.set taskId run }

/-- The checks of `begin` on a task that is new; what the preview shows is an argument. -/
def checkBegin (row : Conversation) (intent : Intent) (preview : Preview) : Except String Unit := do
  require "ask_revision_conflict" (row.revision = intent.expectedRevision)
  require "ask_run_busy" (active data.runs intent.conversationId = false)
  require "ask_history_limit" (data.runs.entries.length < 10000 ∧
    (data.runs.values.filter fun run => !run.state.terminal).length < 64)
  require "ask_preview_changed" (preview.promptSha256 = intent.promptSha256)
  require "ask_preview_changed" (preview.aiPermission = intent.aiPermission)

/-- `begin`, on a task that is new. -/
def beginNew (taskId : String) (intent : Intent) (preview : Preview) (now : String) :
    Except String History := do
  let row ← demand "ask_conversation_not_found" (data.conversations.get? intent.conversationId)
  require "ask_conversation_not_found" (data.tombstones.get? intent.conversationId = none)
  data.checkBegin row intent preview
  (row.asked p taskId intent preview now).clean p
  (((data.put intent.conversationId
    { row.asked p taskId intent preview now with revision := row.revision + 1 }).putRun taskId
      (.begun taskId intent preview row.networkId (intent.fingerprint p))).write p true)

/-- `begin`; a task that is known is answered as it stands. -/
def begin (taskId : String) (intent : Intent) (preview : Preview) (now : String) :
    Except String History := do
  require "ask_invalid_request" (isTaskId taskId = true)
  match data.runs.get? taskId with
  | some run => do
      require "ask_run_identity_conflict" (run.fingerprint = intent.fingerprint p)
      return data
  | none => data.beginNew p taskId intent preview now

/-- `_message`: what it shows of a run, where the conversation and the answer are still there;
and whether that changed something. -/
def message (run : RunRecord) (status : MessageStatus) (content : String)
    (result : Option Outcome) (now : String) : Except String (Bool × History) :=
  match data.conversations.get? run.conversationId with
  | none => .ok (false, data)
  | some row =>
      match row.messages.find? fun message => message.id = answerId run.taskId with
      | none => .ok (false, data)
      | some message =>
          if message.shown status content result = message then .ok (false, data)
          else do
            (row.answered run (fun old => old.shown status content result) now).clean p
            return (true, data.put run.conversationId
              (row.answered run (fun old => old.shown status content result) now))

/-- `cancel`. -/
def cancel (taskId : String) (now : String) : Except String History := do
  let run ← demand "ask_run_not_found" (data.runs.get? taskId)
  if run.state.terminal then return data
  else do
    let shown ← (data.putRun taskId { run with cancelRequested := true }).message p run
      .cancelRequested ("Cancellation requested. The provider may still be computing; " ++
        "the node is checking the original task.") none now
    shown.2.write p true

/-- `_mark`, on a run that has not ended. -/
def mark (taskId : String) (f : RunRecord → RunRecord) : Except String History :=
  match data.runs.get? taskId with
  | none => .ok data
  | some run =>
      if run.state.terminal then .ok data else (data.putRun taskId (f run)).write p true

end History

/-- The code of an outcome that a receipt may show. -/
def isCode (code : String) : Bool :=
  match code.toList with
  | [] => false
  | c :: rest => c.isLower && rest.length ≤ 95 &&
      rest.all fun c => c.isLower || c.isDigit || c = '_'

/-- The text for the owner where there is no answer. -/
def stateText : RunState → String
  | .cancelled => "Cancellation was recorded. This does not confirm that the provider stopped " ++
      "computation immediately."
  | .timedOut => "The original task timed out. No new request was submitted."
  | .interrupted => "The node could not confirm dispatch of the original task after " ++
      "interruption. It has not been submitted again."
  | _ => "The original request failed. No new request was submitted."

/-- The text for the owner of an error code. -/
def codeText : String → Option String
  | "runtime_busy" => some "The provider is busy. Wait or choose another service."
  | "model_not_ready" => some ("The model is not ready. Check the provider's model setup or " ++
      "choose another service.")
  | "model_not_found" => some ("The selected model is unavailable. Check the provider's model " ++
      "configuration or choose another service.")
  | "runtime_unavailable" => some ("The model runtime is unavailable. Check the provider's " ++
      "runtime or choose another service.")
  | "runtime_connection_failed" => some ("The provider could not reach its model runtime. " ++
      "Check its local AI settings or choose another service.")
  | "service_unhealthy" => some ("The AI service is not ready. Check the provider's model " ++
      "setup or choose another service.")
  | "provider_unavailable" => some ("The provider is unavailable. Check its connection or " ++
      "choose another service.")
  | "direct_transport_failed" => some ("The direct connection failed. Check the provider's " ++
      "connection, then check the original task before retrying.")
  | "p2p_transport_failed" => some ("The peer connection failed. Check the connection, then " ++
      "check the original task before retrying.")
  | "encrypted_relay_failed" => some ("The relay connection failed. Check the connection, then " ++
      "check the original task before retrying.")
  | "ai_permission_denied" => some ("This friend has not granted access to this AI service, or " ++
      "has revoked it. Ask them to review your permission; no other provider was used.")
  | "capacity_exhausted" => some "The provider is busy. Wait or choose another service."
  | "p2p_capacity_exhausted" => some ("No connection session is available. Wait for the active " ++
      "session to close.")
  | "insufficient_balance" => some "There are not enough credits for this request."
  | "consumer_restarted_before_completion" => some ("The node restarted before the task " ++
      "completed. Its original order was recovered as failed; it has not been submitted again.")
  | "provider_restarted_before_completion" => some ("The provider restarted before completing " ++
      "the original task. It was recorded as failed and has not been submitted again; this does " ++
      "not confirm that computation stopped immediately.")
  | _ => none

/-- The state in which a run ends: an answer that is missing interrupts it. -/
def Outcome.final (result : Outcome) : RunState :=
  match result.state.getD .failed with
  | .succeeded => if result.output.isSome then .succeeded else .interrupted
  | state => state

/-- The text that a run ends with. -/
def Outcome.content (result : Outcome) : String :=
  let content :=
    match result.state.getD .failed with
    | .succeeded => result.output.getD ("The original task succeeded, but its retained answer " ++
        "is unavailable. It has not been submitted again.")
    | _ => ""
  if content ≠ "" then content
  else ((result.errorCode.bind codeText).getD (stateText result.final))

def RunState.shownAs : RunState → MessageStatus
  | .succeeded => .complete
  | .cancelled => .cancelled
  | .interrupted => .interrupted
  | _ => .failed

def RunRecord.ended (run : RunRecord) (result : Outcome) : RunRecord :=
  { run with
    state := result.final
    errorCode := (result.errorCode.filter fun code => isCode code) <|> run.errorCode
    body := none }

namespace History

variable (data : History)

/-- `_finish`. -/
def finish (taskId : String) (result : Outcome) (now : String) : Except String History := do
  let run ← demand "KeyError" (data.runs.get? taskId)
  if run.state.terminal then return data
  else do
    let shown ← (data.putRun taskId (run.ended result)).message p run result.final.shownAs
      result.content (some result) now
    shown.2.write p true

/-- What `run_once` makes of the run it picks. -/
def claimed (run : RunRecord) : RunRecord :=
  { run with
    state := if run.state = .queued then .dispatching else run.state
    cancelRequested := run.cancelRequested ||
      (data.conversations.get? run.conversationId).isNone }

/-- The first transaction of `run_once`; it writes only what changed. -/
def claim (taskId : String) (run : RunRecord) : Except String History :=
  if run.state = .queued ∨ (data.claimed run).cancelRequested ≠ run.cancelRequested then
    (data.putRun taskId (data.claimed run)).write p true
  else .ok data

/-- The last transaction of `run_once`, on a task that goes on; it writes only what changed. -/
def wait (taskId : String) (now : String) : Except String History := do
  let run ← demand "KeyError" (data.runs.get? taskId)
  if run.state.terminal then return data
  else do
    let shown ← (data.putRun taskId { run with state := .running }).message p run
      (if run.cancelRequested then .cancelRequested else .running)
      (if run.cancelRequested then "Cancellation requested; checking the original task."
        else "The node is waiting for the original task. You can leave this page.") none now
    if run.state = .running ∧ shown.1 = false then return data
    else shown.2.write p true

end History

/-! ### The worker and the others -/

/-- Where the worker stands in `run_once`; it holds the run as it was when it was claimed. -/
inductive Stage
  | idle
  | submitting (run : RunRecord)
  | cancelling (run : RunRecord)
  /-- The order service took the cancellation. -/
  | delivered (run : RunRecord)
  | checking (run : RunRecord) (cancelError : Option String)
  | noting (taskId : String) (code : String) (result : Outcome)
  | archiving (taskId : String) (result : Outcome)
  | acknowledging (taskId : String)
  /-- A task that was never submitted ends, or one that the order service does not know. -/
  | closing (taskId : String) (state : RunState)
  | waiting (taskId : String)

inductive Event
  /-- A question and its answer joined the messages of a conversation. -/
  | began (taskId conversationId : String)
  /-- The dispatching state of a run was stored. -/
  | dispatching (taskId : String)
  /-- `commands.submit` is called. -/
  | submitted (taskId : String) (body : Body)
  /-- The outcome of a task was stored: the file before and after. -/
  | archived (taskId : String) (result : Outcome) (before after : History)
  /-- `commands.acknowledge` is called. -/
  | acknowledged (taskId : String)

structure World where
  /-- What the file holds. -/
  disk : History
  worker : Stage
  history : List Event

namespace World

def initial : World := ⟨.empty, .idle, []⟩

variable (w : World)

def store (disk : History) : World := { w with disk }

def work (worker : Stage) : World := { w with worker }

def logs (events : List Event) : World := { w with history := events ++ w.history }

def log (event : Event) : World := { w with history := event :: w.history }

end World

/-- Where the worker goes once it claimed a run. -/
def Stage.claimed (run : RunRecord) (dispatch : Bool) : Stage :=
  if dispatch && run.cancelRequested then .closing run.taskId .cancelled
  else if dispatch then .submitting run
  else .cancelling run

/-- Where the worker goes with what the order service told about a task. -/
def Stage.judged (taskId : String) (result : Outcome) : Stage :=
  if result.state.any RunState.terminal && !result.resultPending then .archiving taskId result
  else .waiting taskId

/-- The code of a cancellation that was refused. -/
def cancelCode (detail : Option String) : String :=
  match detail with
  | some code => if isCode code then code else "cancel_rejected"
  | none => "cancel_rejected"

inductive Step (w : World) : World → Prop
  | begin (taskId : String) (intent : Intent) (preview : Preview) (now : String) {disk : History}
      (h : w.disk.begin p taskId intent preview now = .ok disk)
      (hnew : w.disk.runs.get? taskId = none) :
      Step w ((w.store disk).log (.began taskId intent.conversationId))
  | again (taskId : String) (intent : Intent) (preview : Preview) (now : String) {disk : History}
      (h : w.disk.begin p taskId intent preview now = .ok disk)
      (hknown : w.disk.runs.get? taskId ≠ none) : Step w (w.store disk)
  | cancel (taskId now : String) {disk : History} (h : w.disk.cancel p taskId now = .ok disk) :
      Step w (w.store disk)
  | save (value : Conversation) (expectedRevision : Nat) {disk : History}
      (h : w.disk.save p value expectedRevision = .ok disk) : Step w (w.store disk)
  | remove (identifier : String) (expectedRevision : Nat) {disk : History}
      (h : w.disk.remove p identifier expectedRevision = .ok disk) : Step w (w.store disk)
  | enableSync (actor : String) {disk : History} (h : w.disk.enableSync p actor = .ok disk) :
      Step w (w.store disk)
  | syncReceive (rows : List (String × Records.Record Conversation)) {disk : History}
      (h : w.disk.syncReceive p rows = .ok disk) : Step w (w.store disk)
  /-- The process stops, or a call of the worker raises. -/
  | stop : Step w (w.work .idle)
  | claim (taskId : String) {run : RunRecord} {disk : History} (hworker : w.worker = .idle)
      (hrun : w.disk.runs.get? taskId = some run) (hpending : run.state.terminal = false)
      (h : w.disk.claim p taskId run = .ok disk) :
      Step w (((w.store disk).work
        (Stage.claimed (w.disk.claimed run) (run.state = .queued))).logs
          (if run.state = .queued then [.dispatching taskId] else []))
  /-- The body is there: a run loses it only when it ends or its cancellation is requested. -/
  | submit {run : RunRecord} {body : Body} (hworker : w.worker = .submitting run)
      (hbody : run.body = some body) (next : Stage)
      (hnext : next = .cancelling run ∨ next = .closing run.taskId .interrupted ∨ next = .idle) :
      Step w ((w.work next).log (.submitted run.taskId body))
  | cancelOrder {run : RunRecord} (hworker : w.worker = .cancelling run)
      (hcancel : run.cancelRequested = true ∧ run.cancelDelivered = false) (next : Stage)
      (hnext : next = .delivered run ∨
        ∃ detail, next = .checking run (some (cancelCode detail))) : Step w (w.work next)
  | noCancel {run : RunRecord} (hworker : w.worker = .cancelling run)
      (hcancel : ¬ (run.cancelRequested = true ∧ run.cancelDelivered = false)) :
      Step w (w.work (.checking run none))
  | deliver {run : RunRecord} {disk : History} (hworker : w.worker = .delivered run)
      (h : w.disk.mark p run.taskId (fun run =>
        { run with cancelDelivered := true, cancelErrorCode := none }) = .ok disk) :
      Step w ((w.store disk).work (.checking run none))
  | check {run : RunRecord} {cancelError : Option String}
      (hworker : w.worker = .checking run cancelError) (result : Outcome) :
      Step w (w.work (match cancelError with
        | some code => .noting run.taskId code result
        | none => .judged run.taskId result))
  /-- The order service does not know the task. -/
  | unknown {run : RunRecord} {cancelError : Option String}
      (hworker : w.worker = .checking run cancelError) :
      Step w (w.work (.closing run.taskId .interrupted))
  | note {taskId code : String} {result : Outcome} {disk : History}
      (hworker : w.worker = .noting taskId code result)
      (h : w.disk.mark p taskId (fun run => { run with cancelErrorCode := some code }) =
        .ok disk) : Step w ((w.store disk).work (.judged taskId result))
  | archive {taskId : String} {result : Outcome} (now : String) {disk : History}
      (hworker : w.worker = .archiving taskId result)
      (h : w.disk.finish p taskId result now = .ok disk) :
      Step w (((w.store disk).work (.acknowledging taskId)).log
        (.archived taskId result w.disk disk))
  | acknowledge {taskId : String} (hworker : w.worker = .acknowledging taskId) :
      Step w ((w.work .idle).log (.acknowledged taskId))
  | close {taskId : String} {state : RunState} (now : String) {disk : History}
      (hworker : w.worker = .closing taskId state)
      (h : w.disk.finish p taskId (.only state) now = .ok disk) :
      Step w ((w.store disk).work .idle)
  | wait {taskId : String} (now : String) {disk : History} (hworker : w.worker = .waiting taskId)
      (h : w.disk.wait p taskId now = .ok disk) : Step w ((w.store disk).work .idle)

inductive Run (w : World) : World → Prop
  | refl : Run w w
  | step {w' w'' : World} (h : Run w w') (hstep : Step p w' w'') : Run w w''

end Ask
