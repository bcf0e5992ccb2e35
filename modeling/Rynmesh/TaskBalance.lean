import Rynmesh.CheckedComputation
import Rynmesh.InsertionDict
import Rynmesh.DoubleRounding

/-!
# The task balance and its transitions

`TaskBalanceLedger` of `task_balance.py`: a balance that tasks freeze parts of,
settle or release, and the earnings of served tasks.  `Arithmetic` is what the
code computes with amounts, each result rounded to eight digits; the exact
decimals and the doubles of the code are its two instances.  The list of recent
events is left out: nothing but its own display reads it.

* `applyHold`, `applySettle`, `applyRelease` and `applyEarning` are the
  transitions, shared by the live calls and by replay;
* `Transition` says once what a successful one does;
* `TaskBalance.execute` is a live call, with the failures of the file and of
  the credit ledger as inputs.
-/

namespace TaskBalance

/-! ### Amounts -/

/-- What a call raises: a `TaskBalanceError`, or an error of the file or of the
credit ledger. -/
inductive Failure
  | taskBalance (message : String)
  | storage
  deriving DecidableEq

/-- A Python float, by its exact value. -/
inductive Number
  | nan
  | infinite (negative : Bool)
  | finite (value : ℚ)

/-- Amounts, and what the code computes with them: none where `_amount` raises. -/
class Arithmetic (α : Type) [Zero α] [LE α] where
  /-- `_amount` of a finite float. -/
  amount : ℚ → Option α
  /-- `_amount(a + b)`. -/
  plus : α → α → Option α
  /-- `_amount(a - b)`. -/
  minus : α → α → Option α
  amount_nonneg : ∀ {q a}, amount q = some a → 0 ≤ a
  zero_plus : ∀ {a}, 0 ≤ a → plus 0 a = some a

export Arithmetic (plus minus)

variable {α : Type}

def amountError : String := "amount must be a finite non-negative number"

/-- `_amount` of an argument. -/
def amountOf [Zero α] [LE α] [Arithmetic α] : Number → Except Failure α
  | .finite value => Checked.demand (.taskBalance amountError) (Arithmetic.amount value)
  | _ => .error (.taskBalance amountError)

theorem amountOf_nonneg [Zero α] [LE α] [Arithmetic α] {number : Number} {a : α}
    (h : amountOf number = .ok a) : 0 ≤ a := by
  cases number with
  | finite value => exact Arithmetic.amount_nonneg (Checked.demand_ok.mp h)
  | nan | infinite => cases h

/-! ### The stored state -/

/-- What a hold is bound to. -/
structure Bindings where
  serviceId : String
  providerPeerId : String
  idempotencyKey : String
  requestFingerprint : String
  deriving DecidableEq

/-- What serving a task took. -/
structure Usage where
  inputTokens : Int
  outputTokens : Int
  durationMs : Int
  deriving DecidableEq

structure Settlement (α : Type) where
  settledAmount : α
  refund : α
  usage : Usage
  settledAt : String
  deriving DecidableEq

/-- The state of a hold, with the fields a record has in that state. -/
inductive HoldState (α : Type)
  | held
  | settled (settlement : Settlement α)
  | released (reason releasedAt : String)
  deriving DecidableEq

structure Hold (α : Type) where
  taskId : String
  amount : α
  state : HoldState α
  bindings : Bindings
  createdAt : String
  retriedAt : Option String
  reholdCount : Nat
  deriving DecidableEq

structure Earning (α : Type) where
  taskId : String
  serviceId : String
  consumerPeerId : String
  usage : Usage
  amount : α
  createdAt : String
  deriving DecidableEq

/-- The balances, the holds by task id, and the earnings. -/
structure State (α : Type) where
  available : α
  held : α
  earned : α
  holds : Dict String (Hold α)
  earnings : Dict String (Earning α)

/-- What a transition is recorded with: the metadata of its signed event.  The
balance earned of an opening is none where `_amount` raises. -/
inductive Detail (α : Type)
  | opening (earned : Option α)
  | hold (bindings : Bindings)
  | settle (serviceId providerPeerId : String) (usage : Usage)
  | release (reason : String)
  | earning (serviceId consumerPeerId : String) (usage : Usage)
  deriving DecidableEq

/-- The arguments of `_append_credit`. -/
structure Entry (α : Type) where
  taskId : String
  amount : α
  dedupeKey : String
  detail : Detail α
  deriving DecidableEq

/-- A signed credit event of the task balance category. -/
structure CreditEvent (α : Type) extends Entry α where
  createdAt : String
  deriving DecidableEq

/-! ### Transitions -/

/-- A `TaskBalanceError` of a transition, and the state as the transition left it. -/
structure Raised (α : Type) where
  message : String
  state : State α

def require (state : State α) (p : Prop) [Decidable p] (message : String) :
    Except (Raised α) Unit :=
  Checked.require ⟨message, state⟩ p

@[simp] theorem require_ok {state : State α} {p : Prop} [Decidable p] {message : String}
    {u : Unit} : require state p message = .ok u ↔ p :=
  Checked.require_ok

/-- An amount that the code computed in a state. -/
def checked (state : State α) (amount : Option α) : Except (Raised α) α :=
  Checked.demand ⟨amountError, state⟩ amount

@[simp] theorem checked_ok {state : State α} {amount : Option α} {a : α} :
    checked state amount = .ok a ↔ amount = some a :=
  Checked.demand_ok

@[simp] theorem checked_some {state : State α} {a : α} : checked state (some a) = .ok a := rfl

/-- `str(reason)[:120]`. -/
def clip (reason : String) : String := String.ofList (reason.toList.take 120)

def holdKey (taskId : String) (count : Nat) : String :=
  if count = 0 then "hold:" ++ taskId else "hold:" ++ taskId ++ ":" ++ toString count

def releaseKey (taskId : String) (count : Nat) : String :=
  "release:" ++ taskId ++ ":" ++ toString count

def earningKey (taskId : String) : String := "earning:" ++ taskId

/-- A new record, as `_apply_hold` makes it. -/
def Hold.new (taskId : String) (amount : α) (bindings : Bindings) (stamp : String) : Hold α :=
  { taskId, amount, state := .held, bindings, createdAt := stamp, retriedAt := none,
    reholdCount := 0 }

/-- A released record that is held again. -/
def Hold.retry (hold : Hold α) (stamp : String) : Hold α :=
  { hold with state := .held, retriedAt := some stamp, reholdCount := hold.reholdCount + 1 }

def Hold.settle (hold : Hold α) (amount refund : α) (usage : Usage) (stamp : String) : Hold α :=
  { hold with state := .settled { settledAmount := amount, refund, usage, settledAt := stamp } }

def Hold.release (hold : Hold α) (reason stamp : String) : Hold α :=
  { hold with state := .released reason stamp }

/-- The balances and the record of a task, written together. -/
def State.put (state : State α) (available held : α) (taskId : String) (record : Hold α) :
    State α :=
  { state with available, held, holds := state.holds.set taskId record }

def State.earn (state : State α) (earned : α) (earning : Earning α) : State α :=
  { state with earned, earnings := state.earnings.set (earningKey earning.taskId) earning }

variable [Zero α] [LE α] [DecidableLE α] [DecidableEq α] [Arithmetic α]

/-- The end of `_apply_hold`, for a new hold and for a released one. -/
def freeze (state : State α) (record : Hold α) (entry : Entry α) :
    Except (Raised α) (State α × Hold α × Option (Entry α)) := do
  require state (entry.amount ≤ state.available) "insufficient development Task Balance"
  let available ← checked state (minus state.available entry.amount)
  let held ← checked { state with available } (plus state.held entry.amount)
  pure (state.put available held entry.taskId record, record, some entry)

/-- `_apply_hold`: the new state, the record it returns, and what to record.  A stored
amount is its own `_amount`. -/
def applyHold (state : State α) (taskId : String) (amount : α) (bindings : Bindings)
    (stamp : String) : Except (Raised α) (State α × Hold α × Option (Entry α)) :=
  match state.holds.get? taskId with
  | some previous => do
      require state (previous.bindings = bindings ∧ previous.amount = amount)
        "task idempotency conflict"
      match previous.state with
      | .released _ _ =>
          let record := previous.retry stamp
          freeze state record ⟨taskId, amount, holdKey taskId record.reholdCount, .hold bindings⟩
      | _ => pure (state, previous, none)
  | none =>
      let record := Hold.new taskId amount bindings stamp
      freeze state record ⟨taskId, amount, holdKey taskId 0, .hold bindings⟩

/-- `_apply_settle`. -/
def applySettle (state : State α) (taskId : String) (amount : α) (usage : Usage)
    (serviceId providerPeerId stamp : String) :
    Except (Raised α) (State α × Hold α × Option (Entry α)) := do
  let hold ← Checked.demand ⟨"task hold not found", state⟩ (state.holds.get? taskId)
  match hold.state with
  | .settled _ => pure (state, hold, none)
  | .released _ _ => .error ⟨"released task cannot be settled", state⟩
  | .held => do
      require state (amount ≤ hold.amount) "settlement exceeds frozen amount"
      let refund ← checked state (minus hold.amount amount)
      let held ← checked state (minus state.held hold.amount)
      let available ← checked { state with held } (plus state.available refund)
      let record := hold.settle amount refund usage stamp
      pure (state.put available held taskId record, record,
        some ⟨taskId, amount, "settle:" ++ taskId, .settle serviceId providerPeerId usage⟩)

/-- `_apply_release`. -/
def applyRelease (state : State α) (taskId reason stamp : String) :
    Except (Raised α) (State α × Hold α × Option (Entry α)) := do
  let hold ← Checked.demand ⟨"task hold not found", state⟩ (state.holds.get? taskId)
  match hold.state with
  | .held => do
      let held ← checked state (minus state.held hold.amount)
      let available ← checked { state with held } (plus state.available hold.amount)
      let record := hold.release (clip reason) stamp
      pure (state.put available held taskId record, record,
        some ⟨taskId, hold.amount, releaseKey taskId hold.reholdCount, .release (clip reason)⟩)
  | _ => pure (state, hold, none)

/-- `_apply_earning`. -/
def applyEarning (state : State α) (taskId : String) (amount : α) (usage : Usage)
    (serviceId consumerPeerId stamp : String) :
    Except (Raised α) (State α × Earning α × Option (Entry α)) :=
  match state.earnings.get? (earningKey taskId) with
  | some earning => pure (state, earning, none)
  | none => do
      let earned ← checked state (plus state.earned amount)
      let earning : Earning α :=
        { taskId, serviceId, consumerPeerId, usage, amount, createdAt := stamp }
      pure (state.earn earned earning, earning,
        some ⟨taskId, amount, earningKey taskId, .earning serviceId consumerPeerId usage⟩)

/-! ### Live calls -/

/-- What is outside a call: the clock when the record is stamped and when its
event is signed, and which of the file and the credit ledger fail. -/
structure Environment where
  now : String
  signedAt : String
  readFails : Bool
  recordFails : Bool
  writeFails : Bool

inductive Call
  | hold (taskId : String) (amount : Number) (bindings : Bindings)
  | settle (taskId : String) (amount : Number) (usage : Usage) (serviceId providerPeerId : String)
  | release (taskId reason : String)
  | earn (taskId : String) (amount : Number) (usage : Usage) (serviceId consumerPeerId : String)

inductive Answer (α : Type)
  | hold (record : Hold α)
  | earning (event : Earning α)
  deriving DecidableEq

end TaskBalance

/-- A `TaskBalanceLedger`: the snapshot file with the number of events it says
it has folded, the signed events when it is ledger-backed, and the count it
keeps in memory. -/
structure TaskBalance (α : Type) where
  snapshot : TaskBalance.State α
  foldedEvents : Nat
  events : Option (List (TaskBalance.CreditEvent α))
  folded : Nat

namespace TaskBalance

/-- `idempotency_key or task_id`. -/
def Bindings.keyed (bindings : Bindings) (taskId : String) : Bindings :=
  { bindings with
    idempotencyKey := if bindings.idempotencyKey = "" then taskId else bindings.idempotencyKey }

variable {α : Type} [Zero α] [LE α] [DecidableLE α] [DecidableEq α] [Arithmetic α]

/-- `_read`. -/
def read (balance : TaskBalance α) (env : Environment) : Except Failure (State α) :=
  if env.readFails then .error .storage else .ok balance.snapshot

/-- What a live call makes of a transition: where it raises, its state is dropped. -/
def answering {β : Type} (wrap : β → Answer α) :
    Except (Raised α) (State α × β × Option (Entry α)) →
      Except Failure (State α × Answer α × Option (Entry α))
  | .error raised => .error (.taskBalance raised.message)
  | .ok (state, answer, entry) => .ok (state, wrap answer, entry)

/-- A call up to its first write. -/
def stage (balance : TaskBalance α) (env : Environment) :
    Call → Except Failure (State α × Answer α × Option (Entry α))
  | .hold taskId amount bindings => do
      let value ← amountOf amount
      Checked.require (Failure.taskBalance "task_id is required") (taskId ≠ "")
      let state ← balance.read env
      answering .hold (applyHold state taskId value (bindings.keyed taskId) env.now)
  | .settle taskId amount usage serviceId providerPeerId => do
      let state ← balance.read env
      let value ← amountOf amount
      answering .hold (applySettle state taskId value usage serviceId providerPeerId env.now)
  | .release taskId reason => do
      let state ← balance.read env
      answering .hold (applyRelease state taskId reason env.now)
  | .earn taskId amount usage serviceId consumerPeerId => do
      let state ← balance.read env
      let value ← amountOf amount
      answering .earning (applyEarning state taskId value usage serviceId consumerPeerId env.now)

/-- `record` of the credit ledger: the event's file is named by its contents. -/
def recordEvent (events : List (CreditEvent α)) (event : CreditEvent α) : List (CreditEvent α) :=
  if event ∈ events then events else events ++ [event]

/-- `_append_credit`; standalone, it does nothing. -/
def appendCredit (balance : TaskBalance α) (env : Environment) (entry : Entry α) :
    Except Failure (TaskBalance α) :=
  match balance.events with
  | none => pure balance
  | some events =>
      if env.recordFails then .error .storage
      else pure { balance with
        events := some (recordEvent events { entry with createdAt := env.signedAt })
        folded := balance.folded + 1 }

/-- `_write`. -/
def write (balance : TaskBalance α) (env : Environment) (state : State α) (answer : Answer α) :
    Except Failure (Answer α) × TaskBalance α :=
  if env.writeFails then (.error .storage, balance)
  else (.ok answer, { balance with snapshot := state, foldedEvents := balance.folded })

/-- A live call: what it answers or raises, and what it leaves behind. -/
def execute (balance : TaskBalance α) (env : Environment) (call : Call) :
    Except Failure (Answer α) × TaskBalance α :=
  match balance.stage env call with
  | .error e => (.error e, balance)
  | .ok (state, answer, none) => balance.write env state answer
  | .ok (state, answer, some entry) =>
      match balance.appendCredit env entry with
      | .error e => (.error e, balance)
      | .ok balance => balance.write env state answer

/-- What calls in turn leave behind, raising or not. -/
def after (balance : TaskBalance α) (calls : List (Environment × Call)) : TaskBalance α :=
  calls.foldl (fun balance call => (balance.execute call.1 call.2).2) balance

/-! ### Replay and opening -/

def State.fresh (available : α) : State α :=
  { available, held := 0, earned := 0, holds := .empty, earnings := .empty }

/-- The order of `events.sort`: by time stamp, then by dedupe key. -/
def CreditEvent.before (a b : CreditEvent α) : Bool :=
  a.createdAt < b.createdAt || a.createdAt = b.createdAt && a.dedupeKey ≤ b.dedupeKey

/-- `_category_events`: what `list_events` lists, sorted. -/
def categoryEvents (listed : List (CreditEvent α)) : List (CreditEvent α) :=
  listed.mergeSort CreditEvent.before

/-- One event of `_replay`. -/
def applyEvent (state : State α) (event : CreditEvent α) : Except (Raised α) (State α) :=
  match event.detail with
  | .opening earned => do
      let available ← checked state (plus state.available event.amount)
      let earned ← checked { state with available } earned
      pure { state with available, earned }
  | .hold bindings =>
      Prod.fst <$>
        applyHold state event.taskId event.amount (bindings.keyed event.taskId) event.createdAt
  | .settle serviceId providerPeerId usage =>
      Prod.fst <$>
        applySettle state event.taskId event.amount usage serviceId providerPeerId event.createdAt
  | .release reason => Prod.fst <$> applyRelease state event.taskId reason event.createdAt
  | .earning serviceId consumerPeerId usage =>
      Prod.fst <$>
        applyEarning state event.taskId event.amount usage serviceId consumerPeerId event.createdAt

/-- An event that cannot be applied is skipped, with what it changed before it raised. -/
def replayEvent (state : State α) (event : CreditEvent α) : State α :=
  match applyEvent state event with
  | .ok state => state
  | .error raised => raised.state

/-- `_replay`. -/
def replay (listed : List (CreditEvent α)) : State α :=
  (categoryEvents listed).foldl replayEvent (.fresh 0)

def openingEvent (initial : α) (signedAt : String) : CreditEvent α :=
  { taskId := "", amount := initial, dedupeKey := "opening:initial", detail := .opening (some 0),
    createdAt := signedAt }

/-- `__init__` without a credit ledger; a file that exists is kept. -/
def openStandalone (initial : α) (existing : Option (State α)) : TaskBalance α :=
  { snapshot := existing.getD (.fresh initial), foldedEvents := 0, events := none, folded := 0 }

/-- A balance replayed from the signed events. -/
def openReplayed (listed : List (CreditEvent α)) : TaskBalance α :=
  { snapshot := replay listed, foldedEvents := listed.length, events := some listed,
    folded := listed.length }

/-- `_initialize_ledger_backed`: a snapshot that has folded every event is kept,
any other is replaced by a replay, and without events there is the grant. -/
def openLedgerBacked (initial : α) (signedAt : String) (existing : Option (State α × Nat))
    (listed : List (CreditEvent α)) : TaskBalance α :=
  match existing with
  | some (state, foldedEvents) =>
      if foldedEvents = listed.length then
        { snapshot := state, foldedEvents, events := some listed, folded := listed.length }
      else openReplayed listed
  | none =>
      if listed = [] then
        { snapshot := .fresh initial, foldedEvents := 1,
          events := some [openingEvent initial signedAt], folded := 1 }
      else openReplayed listed

omit [Zero α] [LE α] [DecidableLE α] [DecidableEq α] [Arithmetic α] in
theorem before_iff {a b : CreditEvent α} :
    a.before b ↔ a.createdAt < b.createdAt ∨
      a.createdAt = b.createdAt ∧ a.dedupeKey ≤ b.dedupeKey := by
  simp [CreditEvent.before]

omit [Zero α] [LE α] [DecidableLE α] [DecidableEq α] [Arithmetic α] in
theorem categoryEvents_sorted (listed : List (CreditEvent α)) :
    (categoryEvents listed).Pairwise fun a b => a.before b := by
  refine List.pairwise_mergeSort (fun a b c hab hbc => ?_) (fun a b => ?_) listed
  · rw [before_iff] at hab hbc ⊢
    grind
  · rw [Bool.or_eq_true, before_iff, before_iff]
    grind

/-- Events that are listed in their order are replayed as listed. -/
theorem replay_of_sorted {listed : List (CreditEvent α)}
    (h : listed.Pairwise fun a b => a.before b) :
    replay listed = listed.foldl replayEvent (.fresh 0) := by
  rw [replay, categoryEvents, List.mergeSort_of_pairwise h]

/-! ### What a transition does -/

/-- A transition leaves the state alone, or does one of five things. -/
inductive Transition (s : State α) : State α → Option (Entry α) → Prop
  | kept : Transition s s none
  | hold {taskId stamp : String} {amount available held : α} {bindings : Bindings}
      (keyed : bindings.keyed taskId = bindings) (fresh : s.holds.get? taskId = none)
      (amount_nonneg : 0 ≤ amount) (fits : amount ≤ s.available)
      (available_eq : minus s.available amount = some available)
      (held_eq : plus s.held amount = some held) :
      Transition s (s.put available held taskId (.new taskId amount bindings stamp))
        (some ⟨taskId, amount, holdKey taskId 0, .hold bindings⟩)
  | rehold {taskId stamp reason releasedAt : String} {previous : Hold α} {available held : α}
      (keyed : previous.bindings.keyed taskId = previous.bindings)
      (found : s.holds.get? taskId = some previous)
      (released : previous.state = .released reason releasedAt)
      (fits : previous.amount ≤ s.available)
      (available_eq : minus s.available previous.amount = some available)
      (held_eq : plus s.held previous.amount = some held) :
      Transition s (s.put available held taskId (previous.retry stamp))
        (some ⟨taskId, previous.amount, holdKey taskId (previous.reholdCount + 1),
          .hold previous.bindings⟩)
  | settle {taskId serviceId providerPeerId stamp : String} {previous : Hold α}
      {amount refund available held : α} {usage : Usage}
      (found : s.holds.get? taskId = some previous) (state : previous.state = .held)
      (amount_nonneg : 0 ≤ amount) (fits : amount ≤ previous.amount)
      (refund_eq : minus previous.amount amount = some refund)
      (held_eq : minus s.held previous.amount = some held)
      (available_eq : plus s.available refund = some available) :
      Transition s (s.put available held taskId (previous.settle amount refund usage stamp))
        (some ⟨taskId, amount, "settle:" ++ taskId, .settle serviceId providerPeerId usage⟩)
  | release {taskId reason stamp : String} {previous : Hold α} {available held : α}
      (found : s.holds.get? taskId = some previous) (state : previous.state = .held)
      (held_eq : minus s.held previous.amount = some held)
      (available_eq : plus s.available previous.amount = some available) :
      Transition s (s.put available held taskId (previous.release (clip reason) stamp))
        (some ⟨taskId, previous.amount, releaseKey taskId previous.reholdCount,
          .release (clip reason)⟩)
  | earning {taskId serviceId consumerPeerId stamp : String} {amount earned : α} {usage : Usage}
      (fresh : s.earnings.get? (earningKey taskId) = none) (amount_nonneg : 0 ≤ amount)
      (earned_eq : plus s.earned amount = some earned) :
      Transition s
        (s.earn earned
          { taskId, serviceId, consumerPeerId, usage, amount, createdAt := stamp })
        (some ⟨taskId, amount, earningKey taskId, .earning serviceId consumerPeerId usage⟩)

variable {s s' : State α} {entry : Option (Entry α)} {taskId stamp : String} {amount : α}

omit [Zero α] [LE α] [DecidableLE α] [DecidableEq α] [Arithmetic α] in
@[simp] theorem Bindings.keyed_keyed (bindings : Bindings) (taskId : String) :
    (bindings.keyed taskId).keyed taskId = bindings.keyed taskId := by
  by_cases hkey : bindings.idempotencyKey = "" <;> simp [Bindings.keyed, hkey]

omit [DecidableEq α] in
theorem freeze_ok {record answer : Hold α} {e : Entry α} :
    freeze s record e = .ok (s', answer, entry) ↔ e.amount ≤ s.available ∧
      ∃ available held, minus s.available e.amount = some available ∧
        plus s.held e.amount = some held ∧ s' = s.put available held e.taskId record ∧
        answer = record ∧ entry = some e := by
  simp only [freeze, Checked.bind_ok, require_ok, checked_ok, Checked.pure_ok, Prod.mk.injEq]
  grind

theorem applyHold_transition {bindings : Bindings} {record : Hold α} (hamount : 0 ≤ amount)
    (hkeyed : bindings.keyed taskId = bindings)
    (h : applyHold s taskId amount bindings stamp = .ok (s', record, entry)) :
    Transition s s' entry := by
  unfold applyHold at h
  split at h
  · next previous found =>
    simp only [Checked.bind_ok, require_ok] at h
    obtain ⟨-, ⟨rfl, rfl⟩, h⟩ := h
    split at h
    · next released =>
      obtain ⟨fits, available, held, havailable, hheld, rfl, -, rfl⟩ := freeze_ok.mp h
      exact .rehold hkeyed found released fits havailable hheld
    · cases h
      exact .kept
  · next fresh =>
    obtain ⟨fits, available, held, havailable, hheld, rfl, -, rfl⟩ := freeze_ok.mp h
    exact .hold hkeyed fresh hamount fits havailable hheld

omit [DecidableEq α] in
theorem applySettle_transition {serviceId providerPeerId : String} {usage : Usage}
    {record : Hold α} (hamount : 0 ≤ amount)
    (h : applySettle s taskId amount usage serviceId providerPeerId stamp =
      .ok (s', record, entry)) : Transition s s' entry := by
  simp only [applySettle, Checked.bind_ok, Checked.demand_ok] at h
  obtain ⟨hold, found, h⟩ := h
  split at h
  · cases h
    exact .kept
  · cases h
  · next state =>
    simp only [Checked.bind_ok, require_ok, checked_ok, Checked.pure_ok] at h
    obtain ⟨-, fits, refund, hrefund, held, hheld, available, havailable, h⟩ := h
    cases h
    exact .settle found state hamount fits hrefund hheld havailable

omit [DecidableLE α] [DecidableEq α] in
theorem applyRelease_transition {reason : String} {record : Hold α}
    (h : applyRelease s taskId reason stamp = .ok (s', record, entry)) : Transition s s' entry := by
  simp only [applyRelease, Checked.bind_ok, Checked.demand_ok] at h
  obtain ⟨hold, found, h⟩ := h
  split at h
  · next state =>
    simp only [Checked.bind_ok, checked_ok, Checked.pure_ok] at h
    obtain ⟨held, hheld, available, havailable, h⟩ := h
    cases h
    exact .release found state hheld havailable
  · cases h
    exact .kept

omit [DecidableLE α] [DecidableEq α] in
theorem applyEarning_transition {serviceId consumerPeerId : String} {usage : Usage}
    {event : Earning α} (hamount : 0 ≤ amount)
    (h : applyEarning s taskId amount usage serviceId consumerPeerId stamp =
      .ok (s', event, entry)) : Transition s s' entry := by
  unfold applyEarning at h
  split at h
  · cases h
    exact .kept
  · next fresh =>
    simp only [Checked.bind_ok, checked_ok, Checked.pure_ok] at h
    obtain ⟨earned, hearned, h⟩ := h
    cases h
    exact .earning fresh hamount hearned

section Applied

variable {available held refund : α} {bindings : Bindings} {previous : Hold α} {usage : Usage}
  {serviceId providerPeerId reason : String}

theorem applyHold_new (hget : s.holds.get? taskId = none) (hfits : amount ≤ s.available)
    (havailable : minus s.available amount = some available)
    (hheld : plus s.held amount = some held) :
    applyHold s taskId amount bindings stamp =
      .ok (s.put available held taskId (.new taskId amount bindings stamp),
        .new taskId amount bindings stamp,
        some ⟨taskId, amount, holdKey taskId 0, .hold bindings⟩) := by
  simp only [applyHold, hget]
  exact freeze_ok.mpr ⟨hfits, available, held, havailable, hheld, rfl, rfl, rfl⟩

theorem applyHold_retry {releasedAt : String} (hget : s.holds.get? taskId = some previous)
    (hstate : previous.state = .released reason releasedAt) (hfits : previous.amount ≤ s.available)
    (havailable : minus s.available previous.amount = some available)
    (hheld : plus s.held previous.amount = some held) :
    applyHold s taskId previous.amount previous.bindings stamp =
      .ok (s.put available held taskId (previous.retry stamp), previous.retry stamp,
        some ⟨taskId, previous.amount, holdKey taskId (previous.reholdCount + 1),
          .hold previous.bindings⟩) := by
  simp only [applyHold, hget, require, Checked.require, hstate, and_self, if_true]
  exact freeze_ok.mpr ⟨hfits, available, held, havailable, hheld, rfl, rfl, rfl⟩

omit [DecidableEq α] in
theorem applySettle_held (hget : s.holds.get? taskId = some previous)
    (hstate : previous.state = .held) (hfits : amount ≤ previous.amount)
    (hrefund : minus previous.amount amount = some refund)
    (hheld : minus s.held previous.amount = some held)
    (havailable : plus s.available refund = some available) :
    applySettle s taskId amount usage serviceId providerPeerId stamp =
      .ok (s.put available held taskId (previous.settle amount refund usage stamp),
        previous.settle amount refund usage stamp,
        some ⟨taskId, amount, "settle:" ++ taskId, .settle serviceId providerPeerId usage⟩) := by
  simp only [applySettle, hget, Checked.demand_some, Checked.ok_bind, hstate, require,
    Checked.require_of hfits, hrefund, hheld, havailable, checked_some]
  rfl

omit [DecidableLE α] [DecidableEq α] in
theorem applyRelease_held (hget : s.holds.get? taskId = some previous)
    (hstate : previous.state = .held) (hheld : minus s.held previous.amount = some held)
    (havailable : plus s.available previous.amount = some available) :
    applyRelease s taskId reason stamp =
      .ok (s.put available held taskId (previous.release (clip reason) stamp),
        previous.release (clip reason) stamp,
        some ⟨taskId, previous.amount, releaseKey taskId previous.reholdCount,
          .release (clip reason)⟩) := by
  simp only [applyRelease, hget, Checked.demand_some, Checked.ok_bind, hstate, hheld, havailable,
    checked_some]
  rfl

omit [DecidableLE α] [DecidableEq α] in
theorem applyEarning_new {consumerPeerId : String} {earned : α}
    (hget : s.earnings.get? (earningKey taskId) = none)
    (hearned : plus s.earned amount = some earned) :
    applyEarning s taskId amount usage serviceId consumerPeerId stamp =
      .ok (s.earn earned ⟨taskId, serviceId, consumerPeerId, usage, amount, stamp⟩,
        ⟨taskId, serviceId, consumerPeerId, usage, amount, stamp⟩,
        some ⟨taskId, amount, earningKey taskId, .earning serviceId consumerPeerId usage⟩) := by
  simp only [applyEarning, hget, hearned, checked_some]
  rfl

end Applied

omit [Zero α] [LE α] [DecidableLE α] [DecidableEq α] [Arithmetic α] in
theorem answering_ok {β : Type} {wrap : β → Answer α}
    {x : Except (Raised α) (State α × β × Option (Entry α))} {answer : Answer α} :
    answering wrap x = .ok (s', answer, entry) ↔
      ∃ b, x = .ok (s', b, entry) ∧ wrap b = answer := by
  cases x with
  | error raised => simp [answering]
  | ok result =>
    simp only [answering, Except.ok.injEq, Prod.mk.injEq]
    grind

omit [Zero α] [LE α] [DecidableLE α] [DecidableEq α] [Arithmetic α] in
theorem read_ok {balance : TaskBalance α} {env : Environment} {state : State α} :
    balance.read env = .ok state ↔ env.readFails = false ∧ balance.snapshot = state := by
  cases hread : env.readFails <;> simp [read, hread]

/-- **What a staged call does.** -/
theorem stage_transition {balance : TaskBalance α} {env : Environment} {call : Call}
    {answer : Answer α} (h : balance.stage env call = .ok (s', answer, entry)) :
    Transition balance.snapshot s' entry := by
  cases call with
  | hold taskId amount bindings =>
    simp only [stage, Checked.bind_ok, Checked.require_ok, read_ok, answering_ok] at h
    obtain ⟨value, hvalue, -, -, s, ⟨-, rfl⟩, record, happly, -⟩ := h
    exact applyHold_transition (amountOf_nonneg hvalue) (bindings.keyed_keyed taskId) happly
  | settle taskId amount usage serviceId providerPeerId =>
    simp only [stage, Checked.bind_ok, read_ok, answering_ok] at h
    obtain ⟨s, ⟨-, rfl⟩, value, hvalue, record, happly, -⟩ := h
    exact applySettle_transition (amountOf_nonneg hvalue) happly
  | release taskId reason =>
    simp only [stage, Checked.bind_ok, read_ok, answering_ok] at h
    obtain ⟨s, ⟨-, rfl⟩, record, happly, -⟩ := h
    exact applyRelease_transition happly
  | earn taskId amount usage serviceId consumerPeerId =>
    simp only [stage, Checked.bind_ok, read_ok, answering_ok] at h
    obtain ⟨s, ⟨-, rfl⟩, value, hvalue, event, happly, -⟩ := h
    exact applyEarning_transition (amountOf_nonneg hvalue) happly

/-- What a call leaves: itself where it raises before the first write, a transition where
it answers, and its event alone where the snapshot cannot be written. -/
theorem execute_cases (balance : TaskBalance α) (env : Environment) (call : Call) :
    (∃ e, balance.execute env call = (.error e, balance)) ∨
    (∃ state answer entry, balance.stage env call = .ok (state, answer, entry) ∧
      (balance.execute env call).1 = .ok answer ∧
      (balance.execute env call).2.snapshot = state) ∨
    ∃ state answer entry events, balance.stage env call = .ok (state, answer, some entry) ∧
      balance.events = some events ∧ env.recordFails = false ∧ env.writeFails = true ∧
      balance.execute env call = (.error .storage, { balance with
        events := some (recordEvent events { entry with createdAt := env.signedAt })
        folded := balance.folded + 1 }) := by
  unfold execute
  cases hstage : balance.stage env call with
  | error e => exact .inl ⟨e, rfl⟩
  | ok staged =>
    obtain ⟨state, answer, _ | entry⟩ := staged
    · cases hwrite : env.writeFails with
      | true => exact .inl ⟨.storage, by simp [write, hwrite]⟩
      | false => exact .inr (.inl ⟨state, answer, none, by simp [write, hwrite]⟩)
    cases hevents : balance.events with
    | none =>
      cases hwrite : env.writeFails with
      | true =>
        exact .inl ⟨.storage, by simp [appendCredit, hevents, write, hwrite, pure, Except.pure]⟩
      | false =>
        exact .inr (.inl ⟨state, answer, some entry, by
          simp [appendCredit, hevents, write, hwrite, pure, Except.pure]⟩)
    | some events =>
      cases hrecord : env.recordFails with
      | true => exact .inl ⟨.storage, by simp [appendCredit, hevents, hrecord]⟩
      | false =>
        cases hwrite : env.writeFails with
        | true =>
          exact .inr (.inr ⟨state, answer, entry, events, rfl, rfl, rfl, rfl, by
            simp [appendCredit, hevents, hrecord, write, hwrite, pure, Except.pure]⟩)
        | false =>
          exact .inr (.inl ⟨state, answer, some entry, by
            simp [appendCredit, hevents, hrecord, write, hwrite, pure, Except.pure]⟩)

/-- **What a live call does to the snapshot.**  Nothing when it raises, and one
transition when it answers. -/
theorem execute_snapshot (balance : TaskBalance α) (env : Environment) (call : Call) :
    (∃ e, (balance.execute env call).1 = .error e ∧
      (balance.execute env call).2.snapshot = balance.snapshot) ∨
    ∃ answer entry, (balance.execute env call).1 = .ok answer ∧
      Transition balance.snapshot (balance.execute env call).2.snapshot entry := by
  rcases execute_cases balance env call with ⟨e, hsame⟩ |
      ⟨state, answer, entry, hstage, hanswer, hstate⟩ | ⟨_, _, _, _, _, _, _, _, hraised⟩
  · exact .inl ⟨e, by rw [hsame], by rw [hsame]⟩
  · exact .inr ⟨answer, entry, hanswer, hstate ▸ stage_transition hstage⟩
  · exact .inl ⟨.storage, by rw [hraised], by rw [hraised]⟩

/-! ### Runs of live calls -/

theorem after_append (balance : TaskBalance α) (calls more : List (Environment × Call)) :
    balance.after (calls ++ more) = (balance.after calls).after more :=
  List.foldl_append

/-- **A property that every transition keeps holds after every run.** -/
theorem after_induction {P : State α → Prop}
    (hstep : ∀ s s' entry, Transition s s' entry → P s → P s') {balance : TaskBalance α}
    (h : P balance.snapshot) (calls : List (Environment × Call)) :
    P (balance.after calls).snapshot := by
  induction calls generalizing balance with
  | nil => exact h
  | cons call rest ih =>
    refine ih ?_
    rcases execute_snapshot balance call.1 call.2 with ⟨_, -, hsame⟩ | ⟨_, entry, -, htransition⟩
    · rw [hsame]
      exact h
    · exact hstep _ _ entry htransition h

end TaskBalance
