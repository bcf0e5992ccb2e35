import Rynmesh.ExchangeLegacy
import Rynmesh.ExchangeProtocol

/-!
# The ledger

`ledger.py`: a fixed-roster approval log over SQLite tables.  A `Database` is
what survives a restart, a `Chain` what a running ledger keeps in memory.
Opening a ledger replays the stored certificates, committing one verifies it
against the chain and appends a block, and a validator signs at most one
approval a height.

The local clock and the size of the database file are inputs of the functions
that read them.
-/

namespace Exchange

open Checked

variable (C : Codec)

/-! ### Rules by version -/

/-- The state of the rules a manifest's version selects. -/
inductive RulesState
  | current (state : State Order)
  | legacy (state : State LegacyV1.Order)

/-- `rules().initial_state`. -/
def RulesState.initial (config : Config) : RulesState :=
  if config.version = VERSION then .current (initialState config)
  else .legacy (initialState config)

/-- `rules().apply`. -/
def RulesState.apply (state : RulesState) (commandWire : Json) (config : Config)
    (timestamp : Int) : Except Failure RulesState :=
  match state with
  | .current s => RulesState.current <$> Exchange.apply C s commandWire config timestamp
  | .legacy s => RulesState.legacy <$> LegacyV1.apply C s commandWire config timestamp

/-! ### Tables and memory -/

structure Block where
  hash : String
  certificate : Json

structure VoteRow where
  hash : String
  proposal : Json
  vote : Json

inductive IntentStatus
  | pending
  | committed
  | superseded
deriving DecidableEq

structure Intent where
  fingerprint : String
  command : Json
  status : IntentStatus

/-- The tables of `ledger.sqlite3` that outlive a block: settings, blocks,
votes, proposals and intents. -/
structure Database where
  manifest : Option Json
  actingFor : Option String
  blocks : Dict Nat Block
  votes : Dict Nat VoteRow
  proposals : Dict Nat Json
  intents : Dict String Intent

/-- A new database file. -/
def Database.new : Database :=
  { manifest := none, actingFor := none, blocks := .empty, votes := .empty, proposals := .empty,
    intents := .empty }

/-- The chain a running ledger holds in memory. -/
structure Chain where
  config : Config
  network : String
  state : RulesState
  height : Nat
  head : String

/-- The chain of a configured network without blocks. -/
def Chain.start (config : Config) : Chain :=
  { config, network := Exchange.network C config, state := .initial config, height := 0,
    head := Exchange.network C config }

theorem Chain.start_config (config : Config) : (Chain.start C config).config = config := rfl

theorem Chain.start_network (config : Config) :
    (Chain.start C config).network = Exchange.network C config := rfl

theorem Chain.start_state {config : Config} (h : config.version = VERSION) :
    (Chain.start C config).state = .current (initialState config) := by
  simp [Chain.start, RulesState.initial, h]

/-- An open ledger; without a chain until a network is configured. -/
structure Ledger where
  db : Database
  chain : Option Chain

def ready (ledger : Ledger) : Except Failure Chain :=
  demand ledger.chain "exchange_network_required"

def writable (ledger : Ledger) : Except Failure Chain := do
  let chain ← ready ledger
  require (chain.config.version = VERSION) "exchange_legacy_read_only"
  pure chain

/-! ### Checking proposals and certificates -/

/-- The validator whose turn a height is. -/
def leader (config : Config) (height : Nat) : Option String :=
  (config.validators[(height - 1) % config.validators.length]?).map (·.peerId)

/-- `_proposal`: the checks on a proposal for the next height, and the state
its command leads to. -/
def checkProposal (chain : Chain) (proposal : Json) : Except Failure RulesState := do
  require (proposal.HasKeys ["version", "network", "height", "parent", "timestamp", "command",
    "proposer"])
  require (proposal.get? "version" = some (.str chain.config.version) ∧
    proposal.get? "network" = some (.str chain.network))
  require (proposal.get? "height" = some (.int (chain.height + 1))) "exchange_height_changed"
  require (proposal.get? "parent" = some (.str chain.head)) "exchange_fork"
  let proposer ← signature C (← need (proposal.get? "proposer"))
  require (some proposer.publicKey = leader chain.config (chain.height + 1) ∧
    proposer.payload.pyEq (proposal.without "proposer") = true) "exchange_proposer_invalid"
  let timestamp ← demand ((proposal.get? "timestamp").bind Json.asInt?) "exchange_time_invalid"
  require (0 ≤ timestamp) "exchange_time_invalid"
  let command ← need (proposal.get? "command")
  chain.state.apply C command chain.config timestamp

/-- The payload of an approval. -/
def approval (version network : String) (height : Nat) (hash : String) : Json :=
  .object [("version", .str version), ("kind", .str "approval"), ("network", .str network),
    ("height", .int height), ("hash", .str hash)]

/-- Check one vote of a certificate and add its signer. -/
def checkVote (config : Config) (expected : Json) (signers : List String) (wire : Json) :
    Except Failure (List String) := do
  let vote ← signature C wire
  require (vote.publicKey ∈ config.validatorKeys ∧ vote.payload.pyEq expected = true)
  require (vote.publicKey ∉ signers) "exchange_duplicate_vote"
  pure (signers ++ [vote.publicKey])

/-- `_verify`: the state a certificate for the next height leads to. -/
def verify (chain : Chain) (certificate : Json) : Except Failure RulesState := do
  require (certificate.HasKeys ["proposal", "votes"])
  let proposal ← need (certificate.get? "proposal")
  let next ← checkProposal C chain proposal
  let expected := approval chain.config.version chain.network (chain.height + 1)
    (C.sha256 proposal)
  let votes ← demand ((certificate.get? "votes").bind Json.asArr?)
  require (votes.length ≤ 8)
  let signers ← votes.foldlM (checkVote C chain.config expected) []
  require (quorum chain.config ≤ signers.length) "exchange_quorum_unavailable"
  pure next

/-! ### Opening and configuring -/

/-- Replay one stored block. -/
def replayBlock (chain : Chain) (row : Nat × Block) : Except Failure Chain := do
  let replayed ← verify C chain row.2.certificate
  let proposal ← need (row.2.certificate.get? "proposal")
  require (row.1 = chain.height + 1 ∧ row.2.hash = C.sha256 proposal) "exchange_log_corrupt"
  pure { chain with state := replayed, height := row.1, head := row.2.hash }

/-- `SELECT .. FROM blocks ORDER BY height`. -/
def Database.ordered (db : Database) : List (Nat × Block) :=
  db.blocks.entries.insertionSort fun a b => a.1 ≤ b.1

/-- `Ledger(home, key)`: open a ledger over its tables.  No clock is read. -/
def openLedger (db : Database) : Except Failure Ledger :=
  match db.manifest with
  | none => pure { db, chain := none }
  | some manifest => do
      let config ← genesis manifest
      let chain ← db.ordered.foldlM (replayBlock C) (.start C config)
      pure { db, chain := some chain }

def configure (ledger : Ledger) (manifest : Json) : Except Failure Ledger := do
  let config ← genesis manifest
  require (config.version = VERSION) "exchange_legacy_read_only"
  match ledger.chain with
  | none =>
      pure { db := { ledger.db with manifest := some config.raw }, chain := some (.start C config) }
  | some chain =>
      require (chain.network = network C config) "exchange_network_changed"
      pure { db := { ledger.db with manifest := some config.raw },
             chain := some { chain with config, network := network C config } }

/-! ### Committing -/

/-- The row `SELECT .. WHERE height=?` finds for a bound parameter: numbers
compare by value, text by the integer it converts to, and containers cannot be
bound. -/
def storedAt (db : Database) (height : Option Json) : Except Failure (Option Block) :=
  match height with
  | none | some .null => pure none
  | some (.int n) =>
      if n < -(2 ^ 63) ∨ 2 ^ 63 ≤ n then .error (.python "OverflowError")
      else pure (if 0 ≤ n then db.blocks.get? n.toNat else none)
  | some (.bool b) => pure (db.blocks.get? b.toNat)
  | some (.float value _) =>
      pure (value.bind fun v => if v.den = 1 ∧ 0 ≤ v.num then db.blocks.get? v.num.toNat else none)
  | some (.str s) => pure ((C.affinity s).bind fun n => n.toNat?.bind db.blocks.get?)
  | some (.arr _) | some (.obj _) => .error (.python "ProgrammingError")

/-- `UPDATE intents SET status=.. WHERE id=?`. -/
def setStatus (status : IntentStatus) (intents : Dict String Intent) (id : String) :
    Dict String Intent :=
  match intents.get? id with
  | none => intents
  | some intent => intents.set id { intent with status }

/-- The operation id of the command a proposal carries. -/
def proposalOperation (proposal : Json) : Option String :=
  (((proposal.get? "command").bind (·.get? "payload")).bind (·.get? "id")).bind Json.asStr?

/-- The part of `commit` up to the end of its database transaction: the tables
with the block and the chain to publish, or nothing when the block is already
stored. -/
def stageCommit (ledger : Ledger) (certificate : Json) :
    Except Failure (Option (Database × Chain)) := do
  let chain ← ready ledger
  let proposal ← demand (certificate.get? "proposal")
  require (proposal.isObj = true)
  let digest := C.sha256 proposal
  match ← storedAt C ledger.db (proposal.get? "height") with
  | some prior => do
      require (prior.hash = digest) "exchange_fork"
      pure none
  | none => do
      let state ← verify C chain certificate
      Checked.require (.python "IntegrityError") (∀ b ∈ ledger.db.blocks.values, b.hash ≠ digest)
      let operation ← need (proposalOperation proposal)
      let db := { ledger.db with
        blocks := ledger.db.blocks.set (chain.height + 1) { hash := digest, certificate }
        intents := setStatus .committed ledger.db.intents operation }
      pure (some (db, { chain with state, height := chain.height + 1, head := digest }))

/-- `commit`: append a certified block; the ledger it leaves. -/
def commit (ledger : Ledger) (certificate : Json) : Except Failure Ledger := do
  match ← stageCommit C ledger certificate with
  | none => pure ledger
  | some (db, chain) => pure { db, chain := some chain }

/-! ### Voting and proposing -/

def MAX_DATABASE_BYTES : Int := 128 * 1024 * 1024
def ORDER_STORAGE_RESERVE : Int := 16 * 1024 * 1024
def ADMISSION_HEADROOM : Int := 16 * 1024 * 1024

/-- The state of the current rules, which a writable ledger has. -/
def RulesState.current? : RulesState → Option (State Order)
  | current state => some state
  | legacy _ => none

/-- An order action draws on the storage its order reserved. -/
def admitStorage (size : Int) (state : State Order) (action : Json) : Except Failure Unit := do
  match ← readAction action with
  | .order _ => pure ()
  | action =>
      let opened : Int := (openOrders state).length + (if action = .agree then 1 else 0)
      require (size + opened * ORDER_STORAGE_RESERVE + ADMISSION_HEADROOM < MAX_DATABASE_BYTES)
        "exchange_admission_exhausted"

/-- The first vote for a height: the local clock's checks, and the storage. -/
def admitVote (now size : Int) (chain : Chain) (proposal : Json) : Except Failure Unit := do
  let timestamp ← demand ((proposal.get? "timestamp").bind Json.asInt?) "exchange_time_invalid"
  require (|timestamp - now| ≤ CLOCK_SKEW) "exchange_time_invalid"
  let payload ← need ((proposal.get? "command").bind (·.get? "payload"))
  let state ← Checked.demand (.python "AttributeError") chain.state.current?
  voteDeadlines state payload now
  admitStorage size state (← need (payload.get? "action"))

/-- `vote`: approve a proposal for the next height; the tables it leaves and
the vote.  A stored vote is returned again without consulting the clock. -/
def vote (key : String) (now size : Int) (ledger : Ledger) (proposal : Json) :
    Except Failure (Database × Json) := do
  let chain ← writable ledger
  require (key ∈ chain.config.validatorKeys) "exchange_not_validator"
  let _ ← checkProposal C chain proposal
  let digest := C.sha256 proposal
  match ledger.db.votes.get? (chain.height + 1) with
  | some prior => do
      require (prior.hash = digest) "exchange_height_locked"
      pure (ledger.db, prior.vote)
  | none => do
      admitVote now size chain proposal
      let vote := signPayload C key (approval VERSION chain.network (chain.height + 1) digest)
      pure ({ ledger.db with
        votes := ledger.db.votes.set (chain.height + 1) { hash := digest, proposal, vote } }, vote)

/-- What the leader of the next height signs. -/
def proposalCore (chain : Chain) (timestamp : Int) (command : Json) : Json :=
  .object [("version", .str VERSION), ("network", .str chain.network),
    ("height", .int (chain.height + 1)), ("parent", .str chain.head),
    ("timestamp", .int timestamp), ("command", command)]

/-- `leader_propose`, after its refresh: the stored proposal for the next
height, or a new signed one. -/
def leaderPropose (key : String) (now size : Int) (ledger : Ledger) (command : Json) :
    Except Failure (Database × Json) := do
  let chain ← writable ledger
  require (leader chain.config (chain.height + 1) = some key) "exchange_not_proposer"
  match ledger.db.proposals.get? (chain.height + 1) with
  | some prior => pure (ledger.db, prior)
  | none => do
      let state ← Checked.demand (.python "AttributeError") chain.state.current?
      let core := proposalCore chain (max now state.time) command
      let proposal := core.withField "proposer" (signPayload C key core)
      let _ ← checkProposal C chain proposal
      let payload ← need (command.get? "payload")
      admitStorage size state (← need (payload.get? "action"))
      pure ({ ledger.db with
        proposals := ledger.db.proposals.set (chain.height + 1) proposal }, proposal)

/-! ### A first block for examples -/

/-- A profile command that an account signs first. -/
def sampleProfile (owner : Char) : Json :=
  sampleCommand C "operation-1" (sampleKey owner) 1 "profile"
    [("label", .str "owner"), ("encryption_key", .str (sampleKey owner))]

/-- The proposal of a command for the first height. -/
def sampleProposal (command : Json) : Json :=
  let core := proposalCore (.start C sampleConfig) 1000 command
  core.withField "proposer" (signPayload C (sampleKey 'A') core)

/-- A codec without collisions that has short digests for the sample network
and the profiles of two accounts. -/
def Codec.sample : Codec :=
  let named := Codec.table [sampleManifest]
  .table [sampleManifest, sampleProposal named (sampleProfile named 'Q'),
    sampleProposal named (sampleProfile named 'U')]

theorem Codec.sample_injective : Function.Injective Codec.sample.sha256 :=
  Codec.table_injective _

/-- A certificate for the profile of an account, with the votes of some
validators. -/
def sampleCertificate (owner : Char) (voters : List Char) : Json :=
  let proposal := sampleProposal .sample (sampleProfile .sample owner)
  .object [("proposal", proposal),
    ("votes", .arr (voters.map fun voter => signPayload .sample (sampleKey voter)
      (approval VERSION (network .sample sampleConfig) 1 (Codec.sample.sha256 proposal))))]

end Exchange
