import Rynmesh.ExchangeFreshness
import Rynmesh.ExchangeProcess

/-!
# One node and its submissions

`action` and `resume` of `service.py`.  A node signs a command, stores it as an
intent and has it certified; between the two it synchronizes, and what it
commits then may come from anyone.  One call is in progress at a time, commits
happen at any moment, and a crash loses the call and keeps the tables.

Sealing the private parts of a value uses encryption from outside the
repository: the prepared value is an input.
-/

namespace Exchange

open Checked

variable (C : Codec)

/-! ### Calls -/

/-- The arguments of `action`. -/
structure Request where
  action : Json
  value : Json
  operation : String
  expectedActor : Option String
  expectedNetwork : Option String

/-- `actor`: the account the owner of a key acts for. -/
def Database.actor (db : Database) (key : String) : String := db.actingFor.getD key

def fingerprint (actor : String) (request : Request) : String :=
  C.sha256 (.object [("actor", .str actor), ("action", request.action),
    ("value", request.value)])

/-- The operations on record. -/
def RulesState.operations : RulesState → Dict String String
  | current state | legacy state => state.operations

/-- Open a call: the intent stored under its operation id, if any. -/
def openAction (key : String) (ledger : Ledger) (request : Request) :
    Except Failure (Option Intent) := do
  let chain ← writable ledger
  require (request.expectedActor.all (· = ledger.db.actor key)) "exchange_account_changed"
  require (request.expectedNetwork.all (· = chain.network)) "exchange_review_network_changed"
  let id ← identifier (.str request.operation)
  pure (ledger.db.intents.get? id)

/-- After the first synchronization, a call for a stored intent: it is answered
when the operation id is on record, and else its command is submitted again. -/
def resubmit (actor : String) (ledger : Ledger) (request : Request) (prior : Intent) :
    Except Failure (Option Json) := do
  require (prior.status ≠ .superseded) "exchange_operation_superseded"
  require (prior.fingerprint = fingerprint C actor request) "exchange_operation_changed"
  let chain ← ready ledger
  pure (if request.operation ∈ chain.state.operations.keys then none else some prior.command)

/-- After the first synchronization, a call for a new operation signs its
command. -/
def signCommand (key actor : String) (size : Int) (ledger : Ledger) (request : Request)
    (prepared : Json) : Except Failure Json := do
  require (∀ intent ∈ ledger.db.intents.values, intent.status ≠ .pending)
    "exchange_pending_required"
  let chain ← ready ledger
  let state ← Checked.demand (.python "AttributeError") chain.state.current?
  admitStorage size state request.action
  pure (signPayload C key (.object [("version", .str VERSION), ("network", .str chain.network),
    ("id", .str request.operation), ("actor", .str actor),
    ("nonce", .int ((state.account actor).nonce + 1)), ("action", request.action),
    ("value", prepared)]))

/-- Validate the signed command, and store it as a pending intent. -/
def storeIntent (actor : String) (now : Int) (ledger : Ledger) (request : Request)
    (command : Json) : Except Failure Database := do
  let chain ← ready ledger
  let state ← Checked.demand (.python "AttributeError") chain.state.current?
  let _ ← apply C state command chain.config (max now state.time)
  Checked.require (.python "IntegrityError") (request.operation ∉ ledger.db.intents.keys)
  pure { ledger.db with
    intents := ledger.db.intents.set request.operation
      { fingerprint := fingerprint C actor request, command, status := .pending } }

/-- The test of `resume` on a pending command: its nonce is spent, or the order
it reviewed has changed. -/
def stale (state : State Order) (command : Json) : Except Failure Bool := do
  let payload ← need (command.get? "payload")
  let owner ← Checked.demand (.python "TypeError") ((payload.get? "actor").bind Json.asStr?)
  let nonce ← Checked.demand (.python "TypeError") ((payload.get? "nonce").bind Json.asInt?)
  let value ← need (payload.get? "value")
  let action ← readAction (← need (payload.get? "action"))
  let order ← find state.orders (value.get? "order_id")
  let changed : Bool :=
    match action, order with
    | .order _, some (_, order) =>
        value.get? "reviewed_order" ≠ some (.str (orderCommitment C order))
    | _, _ => false
  pure (decide (nonce ≤ (state.account owner).nonce) || changed)

/-! ### Steps -/

/-- What a node is doing under its submission lock. -/
inductive Call
  | idle
  | opened (actor : String) (request : Request) (prior : Option Intent)
  | submitting (actor : String) (request : Request) (command : Json) (round : Nat)
  | superseding (id : String)

/-- An answer of `action` that its operation is committed. -/
structure Answer where
  operation : String
  fingerprint : String

/-- A node: its ledger, the call in progress, and what it has done so far: the
commands it signed, the calls it answered as committed, and the intents it
marked superseded on resuming. -/
structure Node where
  process : Process
  call : Call
  signed : List Json
  answers : List Answer
  superseded : List String

/-- A call is lost with the memory. -/
def Process.keeps : Process → Call → Call
  | .running _, call => call
  | .stopped _, _ => .idle

/-- What a step of a node is about. -/
inductive Event
  | ledger (label : Label)
  | call
  | signed (command : Json)

/-- What can happen to the node of a key. -/
inductive NodeStep (key : String) : Node → Event → Node → Prop
  | ledger {node : Node} {label : Label} {q : Process}
      (next : ProcessStep C key node.process label q)
      (kept : (∀ message, label ≠ .deliver message) → q.db.intents = node.process.db.intents) :
      NodeStep key node (.ledger label) { node with process := q, call := q.keeps node.call }
  | opened {node : Node} {ledger : Ledger} {request : Request} {prior : Option Intent}
      (running : node.process = .running ledger) (idle : node.call = .idle)
      (done : openAction key ledger request = .ok prior) :
      NodeStep key node .call { node with call := .opened (ledger.db.actor key) request prior }
  | found {node : Node} {ledger : Ledger} {actor : String} {request : Request} {prior : Intent}
      (running : node.process = .running ledger)
      (call : node.call = .opened actor request (some prior))
      (done : resubmit C actor ledger request prior = .ok none) :
      NodeStep key node .call { node with
        call := .idle
        answers := node.answers ++ [⟨request.operation, fingerprint C actor request⟩] }
  | resubmitted {node : Node} {ledger : Ledger} {actor : String} {request : Request}
      {prior : Intent} {command : Json} (running : node.process = .running ledger)
      (call : node.call = .opened actor request (some prior))
      (done : resubmit C actor ledger request prior = .ok (some command)) :
      NodeStep key node .call { node with call := .submitting actor request command 0 }
  | stored {node : Node} {ledger : Ledger} {actor : String} {request : Request}
      {prepared command : Json} {now size : Int} {db : Database}
      (running : node.process = .running ledger) (call : node.call = .opened actor request none)
      (signed : signCommand C key actor size ledger request prepared = .ok command)
      (stored : storeIntent C actor now ledger request command = .ok db) :
      NodeStep key node (.signed command) { node with
        process := .running { ledger with db }
        call := .submitting actor request command 0
        signed := node.signed ++ [command] }
  | refused {node : Node} {ledger : Ledger} {actor : String} {request : Request}
      {prepared command : Json} {now size : Int} {e : Failure}
      (running : node.process = .running ledger) (call : node.call = .opened actor request none)
      (signed : signCommand C key actor size ledger request prepared = .ok command)
      (refused : storeIntent C actor now ledger request command = .error e) :
      NodeStep key node (.signed command) { node with
        call := .idle, signed := node.signed ++ [command] }
  | interrupted {node : Node} {ledger : Ledger} {actor : String} {request : Request}
      {prepared command : Json} {size : Int}
      (running : node.process = .running ledger) (call : node.call = .opened actor request none)
      (signed : signCommand C key actor size ledger request prepared = .ok command) :
      NodeStep key node (.signed command) { node with
        process := .stopped ledger.db, call := .idle, signed := node.signed ++ [command] }
  | answered {node : Node} {ledger : Ledger} {chain : Chain} {actor : String}
      {request : Request} {command : Json} {round : Nat}
      (running : node.process = .running ledger)
      (call : node.call = .submitting actor request command round)
      (open_ : ready ledger = .ok chain)
      (known : request.operation ∈ chain.state.operations.keys) :
      NodeStep key node .call { node with
        call := .idle
        answers := node.answers ++ [⟨request.operation, fingerprint C actor request⟩] }
  | retried {node : Node} {actor : String} {request : Request} {command : Json} {round : Nat}
      (call : node.call = .submitting actor request command round) (left : round + 1 < 3) :
      NodeStep key node .call { node with call := .submitting actor request command (round + 1) }
  | outdated {node : Node} {ledger : Ledger} {actor : String} {request : Request}
      {command : Json} {round : Nat} (running : node.process = .running ledger)
      (call : node.call = .submitting actor request command round) :
      NodeStep key node .call { node with
        process := .running { ledger with db := { ledger.db with
          intents := setStatus .superseded ledger.db.intents request.operation } }
        call := .idle }
  | superseding {node : Node} {ledger : Ledger} {chain : Chain} {state : State Order}
      {id : String} {intent : Intent} (running : node.process = .running ledger)
      (idle : node.call = .idle) (open_ : writable ledger = .ok chain)
      (current : chain.state = .current state)
      (found : ledger.db.intents.get? id = some intent) (pending : intent.status = .pending)
      (old : stale C state intent.command = .ok true) :
      NodeStep key node .call { node with call := .superseding id }
  | superseded {node : Node} {ledger : Ledger} {id : String}
      (running : node.process = .running ledger) (call : node.call = .superseding id) :
      NodeStep key node .call { node with
        process := .running { ledger with db := { ledger.db with
          intents := setStatus .superseded ledger.db.intents id } }
        call := .idle
        superseded := node.superseded ++ [id] }
  | returned {node : Node} : NodeStep key node .call { node with call := .idle }

/-- A node that has just been set up. -/
def Node.new : Node :=
  { process := .stopped .new, call := .idle, signed := [], answers := [], superseded := [] }

/-- Runs of a node whose steps all meet a condition. -/
inductive NodeRun (key : String) (P : Node → Event → Prop) : Node → Prop
  | new : NodeRun key P Node.new
  | step {node node' : Node} {event : Event} (before : NodeRun key P node) (met : P node event)
      (next : NodeStep C key node event node') : NodeRun key P node'

variable {C}

/-! ### Statuses -/

theorem get?_setStatus (status : IntentStatus) (intents : Dict String Intent) (id k : String) :
    (setStatus status intents id).get? k =
      (intents.get? k).map fun intent => if k = id then { intent with status } else intent := by
  unfold setStatus
  cases hget : intents.get? id with
  | none =>
    by_cases hk : k = id
    · simp [hk, hget]
    · simp [hk]
  | some intent =>
    by_cases hk : k = id
    · simp [hk, hget]
    · simp [hk]

/-- An updated row, and the row it was. -/
theorem of_get?_setStatus {status : IntentStatus} {intents : Dict String Intent} {id k : String}
    {intent : Intent} (h : (setStatus status intents id).get? k = some intent) :
    ∃ old, intents.get? k = some old ∧ old.command = intent.command ∧
      old.fingerprint = intent.fingerprint ∧ (k ≠ id → old = intent) ∧
      (k = id → intent.status = status) := by
  rw [get?_setStatus, Option.map_eq_some_iff] at h
  obtain ⟨old, hold, rfl⟩ := h
  by_cases hk : k = id
  · exact ⟨old, hold, by simp [hk], by simp [hk], fun hne => absurd hk hne, fun _ => by simp [hk]⟩
  · exact ⟨old, hold, by simp [hk], by simp [hk], fun _ => by simp [hk], fun heq => absurd heq hk⟩

theorem get?_setStatus_of (status : IntentStatus) {intents : Dict String Intent} (id : String)
    {k : String} {intent : Intent} (h : intents.get? k = some intent) :
    ∃ new, (setStatus status intents id).get? k = some new ∧ new.command = intent.command ∧
      new.fingerprint = intent.fingerprint := by
  rw [get?_setStatus, h]
  by_cases hk : k = id
  · exact ⟨_, rfl, by simp [hk], by simp [hk]⟩
  · exact ⟨_, rfl, by simp [hk], by simp [hk]⟩

/-! ### The chain of a node -/

variable {chain : Chain}

theorem History.current {config : Config} {rows : List (Nat × Block)}
    (h : History C config rows chain) (hversion : config.version = VERSION) :
    ∃ state, chain.state = .current state := by
  induction h with
  | start => exact ⟨initialState config, by simp [Chain.start, RulesState.initial, hversion]⟩
  | block before replayed ih =>
    obtain ⟨state, hstate⟩ := ih
    obtain ⟨next, proposal, hverify, -, -, -, rfl⟩ := replayBlock_ok.mp replayed
    obtain ⟨_, hcertified⟩ := verify_ok hverify
    obtain ⟨_, _, hproposed⟩ := checkProposal_ok hcertified.checked
    have happlied := hproposed.applied
    simp only [hstate, RulesState.apply, map_ok] at happlied
    obtain ⟨state', -, rfl⟩ := happlied
    exact ⟨state', rfl⟩

/-- **What every node keeps.**  Its tables are recoverable, it is on the current
version, and it has no intent before it has a network. -/
structure Node.Sound (C : Codec) (node : Node) : Prop where
  recovers : node.process.Recovers C
  current : ∀ config : Config, config.Accepted →
    node.process.db.manifest = some config.raw → config.version = VERSION
  fresh : node.process.db.manifest = none → node.process.db.intents.entries = []

/-- The chain and state of a process, as its tables have them. -/
structure Process.At (C : Codec) (p : Process) (chain : Chain) (state : State Order) : Prop where
  follows : Follows C p.db chain
  state : chain.state = .current state

variable {p : Process}

theorem Process.At.reachable {state : State Order} (h : p.At C chain state) :
    Reachable C chain.config state :=
  h.follows.history.reachable h.state

theorem Process.At.unique {chain' : Chain} {state state' : State Order} (h : p.At C chain state)
    (h' : p.At C chain' state') : chain = chain' ∧ state = state' := by
  obtain rfl := h.follows.unique h'.follows
  exact ⟨rfl, RulesState.current.inj (h.state.symm.trans h'.state)⟩

variable {node : Node}

theorem Node.Sound.at_of_chain (h : node.Sound C) (hchain : node.process.chain? C = some chain) :
    ∃ state, node.process.At C chain state := by
  have hfollows := h.recovers.follows hchain
  obtain ⟨state, hstate⟩ := hfollows.history.current
    (h.current chain.config hfollows.accepted hfollows.manifest)
  exact ⟨state, hfollows, hstate⟩

/-! ### What a ledger step does to a node -/

/-- What a step of the ledger does to the intents and the state of a node:
nothing, or the network was configured, or a command was committed. -/
inductive Progress (C : Codec) (p : Process) (label : Label) (q : Process) (chain' : Chain)
    (state' : State Order) : Prop
  | same (chain : Chain) (follows : Follows C p.db chain) (state : chain.state = .current state')
      (config : chain'.config = chain.config) (intents : q.db.intents = p.db.intents)
  | configured (unset : p.db.manifest = none) (intents : q.db.intents = p.db.intents)
  | committed (chain : Chain) (state : State Order) (certificate proposal wire : Json)
      (timestamp : Int) (operation : String) (delivered : label = .deliver certificate)
      (follows : Follows C p.db chain) (current : chain.state = .current state)
      (config : chain'.config = chain.config)
      (carries : certificate.get? "proposal" = some proposal)
      (command : proposal.get? "command" = some wire)
      (named : proposalOperation proposal = some operation)
      (applied : apply C state wire chain.config timestamp = .ok state')
      (intents : q.db.intents = setStatus .committed p.db.intents operation)

variable {key : String}

theorem Effected.progress {q : Process} {label : Label} (h : Effected C key p label q)
    (kept : (∀ message, label ≠ .deliver message) → q.db.intents = p.db.intents) {chain' : Chain}
    {state' : State Order} (hfollows : Follows C q.db chain')
    (hstate : chain'.state = .current state') : Progress C p label q chain' state' := by
  cases h with
  | quiet blocks manifest votes uncast intents unsigned =>
    have hintents := Label.delivered_or intents kept
    rcases manifest with manifest | ⟨unset, -⟩
    · exact .same chain' (hfollows.congr manifest.symm blocks.symm) hstate rfl hintents
    · exact .configured unset hintents
  | voted blocks manifest =>
    exact .same chain' (hfollows.congr manifest.symm blocks.symm) hstate rfl (kept nofun)
  | @appended _ ledger certificate proposal before chain tables follows staged published =>
    obtain ⟨operation, hnamed, hintents⟩ := staged.intents
    obtain ⟨wire, timestamp, hproposed⟩ := checkProposal_ok staged.certified.checked
    have hconfig : chain'.config = before.config :=
      follows.config_unique hfollows (staged.others.1.trans (congrArg _ tables))
    obtain rfl := published.unique hfollows
    have happlied := hproposed.applied
    rw [hstate] at happlied
    cases hprior : before.state with
    | legacy prior => simp [RulesState.apply, hprior] at happlied
    | current prior =>
      simp only [hprior, RulesState.apply, map_ok, RulesState.current.injEq,
        exists_eq_right] at happlied
      exact .committed before prior certificate proposal wire timestamp operation rfl follows
        hprior hconfig staged.certified.carries hproposed.command_eq hnamed happlied
        (tables ▸ hintents)

/-! ### Steps keep a node sound -/

theorem Node.new_sound : Node.new.Sound C where
  recovers := by
    have hfresh : Database.new.Fresh := ⟨rfl, .inl rfl⟩
    exact hfresh.recovers
  current config _ h := by cases h
  fresh _ := rfl

theorem ProcessStep.manifest {q : Process} {label : Label} (h : p.Recovers C)
    (hstep : ProcessStep C key p label q) :
    q.db.manifest = p.db.manifest ∨ ∃ config : Config, config.Accepted ∧
      config.version = VERSION ∧ q.db.manifest = some config.raw := by
  have hconfigure :
    ∀ {ledger ledger' manifest}, Exchange.configure C ledger manifest = .ok ledger' →
      ∃ config : Config, config.Accepted ∧ config.version = VERSION ∧
        ledger'.db.manifest = some config.raw := by
    intro ledger ledger' manifest hdone
    simp only [Exchange.configure, bind_ok, require_ok] at hdone
    obtain ⟨config, hconfig, -, hversion, hdone⟩ := hdone
    refine ⟨config, Config.accepted_of_genesis hconfig, hversion, ?_⟩
    split at hdone
    · exact pure_ok.mp hdone ▸ rfl
    · simp only [bind_ok, pure_ok] at hdone
      obtain ⟨-, -, rfl⟩ := hdone
      rfl
  cases hstep with
  | configure done | configureCrash done => exact .inr (hconfigure done)
  | commit done =>
    simp only [Exchange.commit, bind_ok] at done
    obtain ⟨staged, hstaged, done⟩ := done
    cases staged with
    | none => exact .inl (pure_ok.mp done ▸ rfl)
    | some next =>
      obtain rfl := pure_ok.mp done
      obtain ⟨_, _, hstaged, -⟩ := stageCommit_ok hstaged
      exact .inl hstaged.others.1
  | commitCrash done =>
    obtain ⟨_, _, hstaged, -⟩ := stageCommit_ok done
    exact .inl hstaged.others.1
  | vote running first done | voteCrash running first done => exact .inl (vote_tables done).1
  | propose running done => exact .inl (leaderPropose_tables done).1
  | sign | write | crash => exact .inl rfl
  | @reopen db ledger done =>
    obtain ⟨ledger', hdb, hconsistent, -⟩ := h
    obtain rfl : ledger'.db = db := hdb
    rw [openLedger_consistent hconsistent] at done
    exact .inl (Except.ok.inj done ▸ rfl)

theorem setStatus_empty {status : IntentStatus} {intents : Dict String Intent} (id : String)
    (h : intents.entries = []) : (setStatus status intents id).entries = [] := by
  have hnone : intents.get? id = none := by
    rw [Dict.get?_eq_none_iff]
    simp [Dict.keys, h]
  simp [setStatus, hnone, h]

theorem Node.Sound.intents {node' : Node} {ledger : Ledger} (h : node.Sound C)
    (hrunning : node.process = .running ledger) {intents : Dict String Intent}
    (hprocess : node'.process = .running { ledger with db := { ledger.db with intents } })
    (hempty : ledger.db.manifest = none → intents.entries = []) : node'.Sound C := by
  obtain ⟨hrecovers, hcurrent, -⟩ := h
  rw [hrunning] at hrecovers hcurrent
  refine ⟨?_, fun config haccepted hmanifest => ?_, fun hmanifest => ?_⟩
  · rw [hprocess]
    have hconsistent : Consistent C { ledger with db := { ledger.db with intents } } :=
      hrecovers.running.congr rfl rfl
    exact hconsistent.recovers
  · rw [hprocess] at hmanifest
    exact hcurrent config haccepted hmanifest
  · rw [hprocess] at hmanifest ⊢
    exact hempty hmanifest

/-- What storing an intent leaves. -/
structure IntentStored (C : Codec) (actor : String) (ledger : Ledger) (request : Request)
    (command : Json) (db : Database) : Prop where
  tables : db = { ledger.db with
    intents := ledger.db.intents.set request.operation
      { fingerprint := fingerprint C actor request, command, status := .pending } }
  fresh : request.operation ∉ ledger.db.intents.keys
  accepted : ∃ chain state timestamp next, ledger.chain = some chain ∧
    chain.state = .current state ∧ apply C state command chain.config timestamp = .ok next

theorem storeIntent_ok {actor : String} {now : Int} {ledger : Ledger} {request : Request}
    {command : Json} {db : Database}
    (h : storeIntent C actor now ledger request command = .ok db) :
    IntentStored C actor ledger request command db := by
  simp only [storeIntent, ready, bind_ok, demand_ok, Checked.demand_ok, Checked.require_ok,
    pure_ok] at h
  obtain ⟨chain, hchain, state, hstate, next, happly, -, hfresh, rfl⟩ := h
  refine ⟨rfl, hfresh, chain, state, _, next, hchain, ?_, happly⟩
  cases hrules : chain.state with
  | current s => simpa [hrules, RulesState.current?] using hstate
  | legacy s => simp [hrules, RulesState.current?] at hstate

theorem NodeStep.sound (hinj : Function.Injective C.sha256) {node' : Node} {event : Event}
    (h : node.Sound C) (hstep : NodeStep C key node event node') : node'.Sound C := by
  cases hstep with
  | @ledger label q next kept =>
    refine ⟨next.recovers hinj h.recovers, fun config haccepted hmanifest => ?_, fun hnone => ?_⟩
    · rcases next.manifest h.recovers with hsame | ⟨config', haccepted', hversion, hset⟩
      · exact h.current config haccepted (hsame.symm.trans hmanifest)
      · have hraw : config.raw = config'.raw := by
          simpa using hmanifest.symm.trans hset
        have hconfig : genesis config.raw = .ok config := haccepted
        have hconfig' : genesis config'.raw = .ok config' := haccepted'
        rw [hraw, hconfig'] at hconfig
        rw [← Except.ok.inj hconfig, hversion]
    · have hmanifest : node.process.db.manifest = none := by
        rcases next.manifest h.recovers with hsame | ⟨config, -, -, hset⟩
        · exact hsame.symm.trans hnone
        · exact absurd (hset.symm.trans hnone) (by simp)
      have hempty := h.fresh hmanifest
      cases next.effect hinj h.recovers with
      | quiet blocks manifest votes uncast intents unsigned =>
        rw [Label.delivered_or intents kept, hempty]
      | voted => rw [kept nofun, hempty]
      | appended tables follows =>
        exact absurd (follows.manifest.symm.trans hmanifest) (by simp)
  | @stored ledger actor request prepared command now size db running call signed stored =>
    obtain ⟨rfl, -, chain, _, _, _, hchain, -, -⟩ := storeIntent_ok stored
    refine h.intents running rfl fun hnone => ?_
    have hrecovers := h.recovers
    rw [running] at hrecovers
    have hfollows := hrecovers.running.follows hchain
    exact absurd (hfollows.manifest.symm.trans hnone) (by simp)
  | interrupted running =>
    obtain ⟨hrecovers, hcurrent, hfresh⟩ := h
    rw [running] at hrecovers hcurrent hfresh
    exact ⟨hrecovers.running.recovers_stopped, hcurrent, hfresh⟩
  | outdated running | superseded running =>
    refine h.intents running rfl fun hnone => setStatus_empty _ ?_
    have hempty := h.fresh
    rw [running] at hempty
    exact hempty hnone
  | opened | found | resubmitted | refused | answered | retried | superseding | returned =>
    exact ⟨h.recovers, h.current, h.fresh⟩

theorem NodeRun.sound (hinj : Function.Injective C.sha256) {P : Node → Event → Prop}
    (h : NodeRun C key P node) : node.Sound C := by
  induction h with
  | new => exact Node.new_sound
  | step _ _ next ih => exact next.sound hinj ih

end Exchange
