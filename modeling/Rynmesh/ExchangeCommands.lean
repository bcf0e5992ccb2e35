import Rynmesh.ExchangeAccounts

/-!
# Signed commands and the actions both versions share

A command is read from its signed wire (`readCommand`), performed, and recorded
(`finish`): the actor's nonce advances, the operation id is bound to the hash
of the wire, and the supply and balance checks run.  Profiles, devices,
transfers, listings, proposals and work rewards are performed alike by both
protocol versions.
-/

namespace Exchange

open Checked

variable {ω : Type} (C : Codec)

/-- What `apply` has read from a command wire when it starts to perform it. -/
structure Command where
  id : String
  owner : String
  publicKey : String
  network : String
  action : Json
  value : Json

inductive OrderAction
  | deliver
  | accept
  | refund
  | dispute
  | evidence
  | rule
  | appeal
  | waive
  | finalize
  | timeout
deriving DecidableEq

/-- The actions of `apply`; `unknown` is any other hashable action value. -/
inductive Action
  | profile
  | device
  | transfer
  | listing
  | withdraw
  | propose
  | agree
  | reward
  | order (action : OrderAction)
  | unknown
deriving DecidableEq

/-- The action a command names.  A list or an object has no hash, so testing
it against the set of order actions raises. -/
def readAction : Json → Except Failure Action
  | .str s => pure
      (match s with
      | "profile" => .profile
      | "device" => .device
      | "transfer" => .transfer
      | "listing" => .listing
      | "withdraw" => .withdraw
      | "propose" => .propose
      | "agree" => .agree
      | "reward" => .reward
      | "deliver" => .order .deliver
      | "accept" => .order .accept
      | "refund" => .order .refund
      | "dispute" => .order .dispute
      | "evidence" => .order .evidence
      | "rule" => .order .rule
      | "appeal" => .order .appeal
      | "waive" => .order .waive
      | "finalize" => .order .finalize
      | "timeout" => .order .timeout
      | _ => .unknown)
  | .arr _ => .error (.python "TypeError")
  | .obj _ => .error (.python "TypeError")
  | _ => pure .unknown

/-- The payload of a command. -/
def commandPayload (version : String) (config : Config) (operation owner : String) (nonce : Int)
    (action value : Json) : Json :=
  .object [("version", .str version), ("network", .str (network C config)),
    ("id", .str operation), ("actor", .str owner), ("nonce", .int nonce), ("action", action),
    ("value", value)]

/-- A command for examples, signed by its actor. -/
def sampleCommand (operation owner : String) (nonce : Int) (action : String)
    (value : List (String × Json)) : Json :=
  signPayload C owner
    (commandPayload C VERSION sampleConfig operation owner nonce (.str action) (.object value))

/-- The checks that open `apply`: signature, network, identifiers, the actor's
authority over the account, a fresh operation id, the next nonce, and time. -/
def readCommand (version : String) (state : State ω) (commandWire : Json) (config : Config)
    (timestamp : Int) : Except Failure Command := do
  let signed ← signature C commandWire
  let cmd := signed.payload
  require (cmd.HasKeys ["version", "network", "id", "actor", "nonce", "action", "value"])
  require (cmd.get? "version" = some (.str version) ∧
    cmd.get? "network" = some (.str (network C config)))
  let opId ← identifier (← need (cmd.get? "id"))
  let owner ← key (← need (cmd.get? "actor"))
  let row := state.account owner
  require (signed.publicKey = owner ∨ signed.publicKey ∈ row.devices) "exchange_unauthorized"
  require (opId ∉ state.operations.keys) "exchange_operation_exists"
  let nonce ← integer (← need (cmd.get? "nonce"))
  require (nonce = row.nonce + 1) "exchange_nonce_changed"
  require (state.time ≤ timestamp)
  let action ← need (cmd.get? "action")
  let value ← need (cmd.get? "value")
  require (value.isObj = true)
  pure { id := opId, owner, publicKey := signed.publicKey, network := network C config,
         action, value }

/-- The state with the command on record: the actor's nonce spent, the
operation id bound to the wire, the time set. -/
def recorded (commandWire : Json) (cmd : Command) (timestamp : Int) (state : State ω) :
    State ω :=
  let result := state.update cmd.owner fun row => { row with nonce := row.nonce + 1 }
  { result with
    operations := result.operations.set cmd.id (C.sha256 commandWire), time := timestamp }

/-- The bookkeeping and the accounting checks that close `apply`. -/
def finish (commandWire : Json) (cmd : Command) (timestamp : Int) (state : State ω) :
    Except Failure (State ω) := do
  let result := recorded C commandWire cmd timestamp state
  guarded .supply (result.coins = result.issued) "exchange_supply_invariant"
  guarded .balance (∀ a ∈ result.accounts.values, 0 ≤ a.available ∧ 0 ≤ a.held)
    "exchange_balance_invariant"
  pure result

/-! ### Judges -/

/-- The fees of a panel. -/
def panelFee (panel : List Judge) : Int := (panel.map (·.fee)).sum

/-- The judges of one round: three of the eligible ones, in manifest order. -/
def panel (eligible : List Judge) (round : Nat) : List Judge :=
  (eligible.drop (3 * round)).take 3

/-- The reserves of buyer and provider for the judges of both rounds; an odd
fee is split to the buyer's cost. -/
def fees (judges : List Judge) : Int × Int :=
  let rounds := [panelFee (panel judges 0), panelFee (panel judges 1)]
  ((rounds.map fun fee => (fee + 1) / 2).sum, (rounds.map fun fee => fee / 2).sum)

/-- `judge_panel`, given the eligible judges: those the terms hold for an
order, those `eligibleJudges` keeps for a proposal. -/
def judgePanel (eligible : List Judge) (buyer provider : String) (round : Nat) :
    Except Failure (List Judge) := do
  require (round = 0 ∨ round = 1)
  require (6 ≤ eligible.length) "exchange_judges_unavailable"
  require (∀ j ∈ panel eligible round, j.peerId ∉ [buyer, provider]) "exchange_judge_conflict"
  pure (panel eligible round)

/-- The manifest's judges who are not a party. -/
def eligibleJudges (config : Config) (buyer provider : String) : List Judge :=
  config.judges.filter fun j => j.peerId ∉ [buyer, provider]

/-- The judges of both rounds of an order between two parties, none when the
manifest names no judge. -/
def seats (config : Config) (buyer provider : String) : Except Failure (List Judge) :=
  if config.judges = [] then pure []
  else do
    let first ← judgePanel (eligibleJudges config buyer provider) buyer provider 0
    let second ← judgePanel (eligibleJudges config buyer provider) buyer provider 1
    pure (first ++ second)

def workHash (config : Config) (jobId provider : String) : String :=
  C.sha256 (.object [("job_id", .str jobId), ("provider", .str provider),
    ("manifest", config.raw)])

/-! ### Accounts, transfers and listings -/

def profile (cmd : Command) (state : State ω) : Except Failure (State ω) := do
  require (cmd.value.HasKeys ["label", "encryption_key"])
  let label ← text (← need (cmd.value.get? "label")) 100
  let encryptionKey ← key (← need (cmd.value.get? "encryption_key"))
  let row := state.account cmd.owner
  require (row.encryptionKey = "" ∨ row.encryptionKey = encryptionKey)
    "exchange_encryption_key_changed"
  pure (state.update cmd.owner fun row => { row with label, encryptionKey })

def device (cmd : Command) (state : State ω) : Except Failure (State ω) := do
  require (cmd.value.HasKeys ["peer_id", "allowed"] ∧ cmd.publicKey = cmd.owner)
  let peer ← key (← need (cmd.value.get? "peer_id"))
  let allowed ← demand ((cmd.value.get? "allowed").bind Json.asBool?)
  require (allowed = true → (state.account cmd.owner).devices.length < 10) "exchange_capacity"
  pure (state.update cmd.owner fun row =>
    { row with devices :=
        if allowed then (if peer ∈ row.devices then row.devices else row.devices ++ [peer])
        else row.devices.erase peer })

def transfer (cmd : Command) (state : State ω) : Except Failure (State ω) := do
  require (cmd.value.HasKeys ["recipient", "amount"])
  let recipient ← key (← need (cmd.value.get? "recipient"))
  require (recipient ≠ cmd.owner ∧ (state.account recipient).encryptionKey ≠ "")
    "exchange_recipient_invalid"
  let paid ← integer (← need (cmd.value.get? "amount"))
  require (0 < paid ∧ paid ≤ (state.account cmd.owner).available) "exchange_insufficient_balance"
  earn (state.update cmd.owner fun row => { row with available := row.available - paid })
    recipient paid

def readKind : Option Json → Except Failure ListingKind
  | some (.str "offer") => pure .offer
  | some (.str "request") => pure .request
  | some (.arr _) | some (.obj _) => .error (.python "TypeError")
  | _ => .error (refusal "exchange_invalid")

def listing (cmd : Command) (timestamp : Int) (state : State ω) : Except Failure (State ω) := do
  require (cmd.value.HasKeys ["kind", "category", "title", "description", "price"])
  let kind ← readKind (cmd.value.get? "kind")
  require ((state.account cmd.owner).encryptionKey ≠ "") "exchange_profile_required"
  let category ← text (← need (cmd.value.get? "category")) 100
  let title ← text (← need (cmd.value.get? "title")) 200
  let description ← text (← need (cmd.value.get? "description")) 4000
  let price ← integer (← need (cmd.value.get? "price"))
  let row : Listing :=
    { id := cmd.id, owner := cmd.owner, kind, category, title, description, price,
      active := true, createdAt := timestamp }
  pure { state with listings := state.listings.set cmd.id row }

def propose (config : Config) (cmd : Command) (state : State ω) :
    Except Failure (State ω) := do
  require (cmd.value.HasKeys ["listing_id", "scope", "price"])
  let (_, listing) ← demand (← find state.listings (cmd.value.get? "listing_id"))
    "exchange_listing_unavailable"
  require (listing.active = true) "exchange_listing_unavailable"
  require ((state.account cmd.owner).encryptionKey ≠ "" ∧ listing.owner ≠ cmd.owner)
    "exchange_profile_required"
  let (buyer, provider) :=
    if listing.kind = .request then (listing.owner, cmd.owner) else (cmd.owner, listing.owner)
  let _ ← seats config buyer provider
  let scope ← text (← need (cmd.value.get? "scope")) 4000
  let price ← integer (← need (cmd.value.get? "price"))
  let row : Proposal :=
    { id := cmd.id, listingId := listing.id, buyer, provider, proposedBy := cmd.owner, scope,
      price, status := .offered }
  pure { state with proposals := state.proposals.set cmd.id row }

/-! ### Work rewards -/

/-- Check one receipt of a reward and add its signer to the witnesses. -/
def checkReceipt (version : String) (config : Config) (network jobId owner : String)
    (witnesses : List String) (wire : Json) : Except Failure (List String) := do
  let receipt ← signature C wire
  require (receipt.publicKey ∈ config.validatorKeys ∧ receipt.publicKey ≠ owner)
  require (receipt.payload.HasKeys ["version", "kind", "network", "job_id", "provider",
    "work_hash"])
  require (receipt.payload.pyEq (.object [
    ("version", .str version), ("kind", .str "registry-work"), ("network", .str network),
    ("job_id", .str jobId), ("provider", .str owner),
    ("work_hash", .str (workHash C config jobId owner))]) = true)
  pure (if receipt.publicKey ∈ witnesses then witnesses else witnesses ++ [receipt.publicKey])

def reward (version : String) (config : Config) (cmd : Command) (state : State ω) :
    Except Failure (State ω) := do
  require (cmd.value.HasKeys ["job_id", "receipts"])
  let jobId ← identifier (← need (cmd.value.get? "job_id"))
  require (jobId ∉ state.rewards.keys) "exchange_reward_duplicate"
  require (cmd.owner ∉ state.rewards.values) "exchange_registry_already_rewarded"
  let receipts ← demand ((cmd.value.get? "receipts").bind Json.asArr?)
  require (receipts.length ≤ 8)
  let witnesses ← receipts.foldlM
    (checkReceipt C version config cmd.network jobId cmd.owner) []
  require (quorum config ≤ witnesses.length) "exchange_work_unverified"
  require (state.issued + config.workReward ≤ config.issuanceLimit)
    "exchange_issuance_exhausted"
  let state ← earn state cmd.owner config.workReward
  pure { state with
    issued := state.issued + config.workReward, rewards := state.rewards.set jobId cmd.owner }

end Exchange
