import Rynmesh.ExchangeOrders

/-!
# The frozen rules of the first exchange version

`legacy_v1.py`, kept for replaying historical certificates only.  Profiles,
devices, transfers, listings, proposals and rewards are those of the current
rules; the order lifecycle is the older one, without deadlines, operation
reserves or reviewed records.
-/

namespace Exchange.LegacyV1

open Checked

variable (C : Codec)

structure Terms where
  proposalId : String
  buyer : String
  provider : String
  title : String
  category : String
  scope : String
  price : Int
  buyerDisputeReserve : Int
  providerDisputeReserve : Int
  covenant : Json
  appealWindow : Int
  judges : List Judge

def Terms.toJson (t : Terms) : Json :=
  .object [("proposal_id", .str t.proposalId), ("buyer", .str t.buyer),
    ("provider", .str t.provider), ("title", .str t.title), ("category", .str t.category),
    ("scope", .str t.scope), ("price", .int t.price),
    ("buyer_dispute_reserve", .int t.buyerDisputeReserve),
    ("provider_dispute_reserve", .int t.providerDisputeReserve), ("covenant", t.covenant),
    ("appeal_window_s", .int t.appealWindow), ("judges", .arr (t.judges.map Judge.toJson)),
    ("delivery", .str "encrypted digital text, at most 32 KiB"),
    ("platform_commission", .int 0)]

/-- An order of the first version; what a case or a settlement of it reads. -/
structure Order where
  id : String
  buyer : String
  provider : String
  terms : Terms
  price : Int
  buyerReserve : Int
  providerReserve : Int
  status : Status
  evidence : Dict String Evidence
  refundRequests : List String
  waivers : List String
  deliveryHash : Option String := none
  round : Option Nat := none
  rulingShare : Option Int := none
  appealUntil : Option Int := none

def Order.parties (order : Order) : List String := [order.buyer, order.provider]

def Order.judgePanel (order : Order) (round : Nat) : Except Failure (List Judge) :=
  Exchange.judgePanel order.terms.judges order.buyer order.provider round

def casePayload (config : Config) (order : Order) (round : Nat) : Json :=
  .object [("version", .str LEGACY_VERSION), ("kind", .str "case"), ("order_id", .str order.id),
    ("round", .int round), ("terms", order.terms.toJson),
    ("delivery_hash", .str (order.deliveryHash.getD "")),
    ("evidence", evidenceJson order.evidence), ("covenant", config.covenant)]

def close (state : State Order) (order : Order) (paid : Int) (status : Status) :
    Except Failure (State Order × Order) := do
  require (0 ≤ paid ∧ paid ≤ order.price)
  let state ← unhold state order.buyer (order.price + order.buyerReserve)
  let state ← unhold state order.provider order.providerReserve
  let state := state.update order.buyer fun row => { row with available := row.available - paid }
  let state ← earn state order.provider paid
  pure (state, { order with status, buyerReserve := 0, providerReserve := 0 })

/-! ### Listings and agreements -/

/-- Withdrawing again is accepted here. -/
def withdraw (cmd : Command) (state : State Order) : Except Failure (State Order) := do
  require (cmd.value.HasKeys ["listing_id"])
  let (id, listing) ← demand (← find state.listings (cmd.value.get? "listing_id"))
    "exchange_unauthorized"
  require (listing.owner = cmd.owner) "exchange_unauthorized"
  pure { state with listings := state.listings.set id { listing with active := false } }

def termsFor (config : Config) (proposal : Proposal) (listing : Listing) :
    Except Failure Terms := do
  let selected ← seats config proposal.buyer proposal.provider
  let (buyerFee, providerFee) := fees selected
  pure {
    proposalId := proposal.id, buyer := proposal.buyer, provider := proposal.provider,
    title := listing.title, category := listing.category, scope := proposal.scope,
    price := proposal.price, buyerDisputeReserve := buyerFee,
    providerDisputeReserve := providerFee, covenant := config.covenant,
    appealWindow := config.appealWindow, judges := selected }

def agree (config : Config) (cmd : Command) (state : State Order) :
    Except Failure (State Order) := do
  require (cmd.value.HasKeys ["proposal_id", "terms_hash"])
  let (id, proposal) ← demand (← find state.proposals (cmd.value.get? "proposal_id"))
    "exchange_proposal_unavailable"
  require (proposal.status = .offered) "exchange_proposal_unavailable"
  require (cmd.owner ∈ [proposal.buyer, proposal.provider] ∧ cmd.owner ≠ proposal.proposedBy)
    "exchange_unauthorized"
  let listing ← need (state.listings.get? proposal.listingId)
  require (listing.active = true) "exchange_listing_unavailable"
  let parties := [proposal.buyer, proposal.provider]
  require ((state.orders.values.filter fun o =>
    ¬ o.status.Terminal ∧ (o.buyer ∈ parties ∨ o.provider ∈ parties)).length < 100)
    "exchange_open_orders_limit"
  let terms ← termsFor config proposal listing
  require (cmd.value.get? "terms_hash" = some (.str (C.sha256 terms.toJson)))
    "exchange_terms_changed"
  let state ← hold state proposal.buyer (proposal.price + terms.buyerDisputeReserve)
  let state ← hold state proposal.provider terms.providerDisputeReserve
  let order : Order :=
    { id := cmd.id, buyer := proposal.buyer, provider := proposal.provider, terms,
      price := proposal.price, buyerReserve := terms.buyerDisputeReserve,
      providerReserve := terms.providerDisputeReserve, status := .working, evidence := .empty,
      refundRequests := [], waivers := [] }
  pure { state with
    proposals := state.proposals.set id { proposal with status := .accepted },
    orders := state.orders.set cmd.id order }

/-! ### The order actions -/

section Actions

variable (config : Config) (network owner : String) (value : Json) (timestamp : Int)

def deliver (order : Order) : Except Failure Order := do
  require (value.HasKeys ["order_id", "hash", "sealed"])
  require (owner = order.provider ∧ (order.status = .working ∨ order.status = .delivered))
    "exchange_unauthorized"
  let deliveryHash ← digestText (← need (value.get? "hash"))
  sealedText (← need (value.get? "sealed"))
  pure { order with status := .delivered, deliveryHash := some deliveryHash }

def accept (state : State Order) (order : Order) : Except Failure (State Order × Order) := do
  require (value.HasKeys ["order_id", "delivery_hash"] ∧ owner = order.buyer ∧
    order.status = .delivered) "exchange_unauthorized"
  let deliveryHash ← need order.deliveryHash
  require (value.get? "delivery_hash" = some (.str deliveryHash)) "exchange_delivery_changed"
  close state order order.price .accepted

/-- Append a name that is not there yet. -/
def addOnce (names : List String) (name : String) : List String :=
  if name ∈ names then names else names ++ [name]

def refund (state : State Order) (order : Order) : Except Failure (State Order × Order) := do
  require (value.HasKeys ["order_id"])
  let order := { order with refundRequests := addOnce order.refundRequests owner }
  if order.refundRequests.length = 2 then close state order 0 .refunded
  else pure (state, order)

/-- A dispute of any open order starts the case over: the defect the current
rules remove. -/
def dispute (order : Order) : Except Failure Order := do
  require (value.HasKeys ["order_id"])
  let _ ← order.judgePanel 0
  let _ ← order.judgePanel 1
  pure { order with status := .disputed, round := some 0, evidence := .empty, waivers := [] }

def evidence (order : Order) : Except Failure Order := do
  require (value.HasKeys ["order_id", "commitment", "sealed"])
  require (order.status = .disputed)
  let commitment ← digestText (← need (value.get? "commitment"))
  let round ← need order.round
  let judges ← order.judgePanel round
  let sealed ← need (value.get? "sealed")
  require (sealed.HasKeys (judges.map (·.peerId)))
  (sealed.keys.filterMap sealed.get?).forM envelope
  pure { order with evidence := order.evidence.set owner { commitment, sealed } }

def rule (state : State Order) (order : Order) : Except Failure (State Order × Order) := do
  require (value.HasKeys ["order_id", "rulings"] ∧ order.status = .disputed)
  require ((∀ k ∈ order.evidence.keys, k ∈ order.parties) ∧
    ∀ k ∈ order.parties, k ∈ order.evidence.keys) "exchange_evidence_incomplete"
  let round ← need order.round
  let judges ← order.judgePanel round
  let caseHash := C.sha256 (casePayload config order round)
  let rulings ← demand ((value.get? "rulings").bind Json.asArr?)
  require (rulings.length = 3)
  let (_, shares) ← rulings.foldlM (checkRuling C LEGACY_VERSION network judges caseHash) ([], [])
  require (spread shares ≤ 1000) "exchange_models_disagree"
  let paidFee := panelFee judges
  let buyerFee := (paidFee + 1) / 2
  let providerFee := paidFee / 2
  guarded .reserve (buyerFee ≤ order.buyerReserve ∧ providerFee ≤ order.providerReserve)
  let state := state.update order.buyer fun row => { row with held := row.held - buyerFee }
  let state := state.update order.provider fun row =>
    { row with held := row.held - providerFee }
  let state ← payJudges state judges
  pure (state, { order with
    buyerReserve := order.buyerReserve - buyerFee,
    providerReserve := order.providerReserve - providerFee, status := .rulingReady,
    rulingShare := some (middle shares),
    appealUntil := some (timestamp + config.appealWindow), waivers := [] })

def appeal (order : Order) : Except Failure Order := do
  require (value.HasKeys ["order_id"] ∧ order.status = .rulingReady)
  let round ← need order.round
  require (round = 0)
  let appealUntil ← need order.appealUntil
  require (timestamp < appealUntil) "exchange_appeal_expired"
  pure { order with status := .disputed, round := some 1, evidence := .empty, waivers := [] }

def waive (order : Order) : Except Failure Order := do
  require (value.HasKeys ["order_id"] ∧ order.status = .rulingReady)
  pure { order with waivers := addOnce order.waivers owner }

def finalize (state : State Order) (order : Order) : Except Failure (State Order × Order) := do
  require (value.HasKeys ["order_id"] ∧ order.status = .rulingReady)
  let appealUntil ← need order.appealUntil
  require (appealUntil ≤ timestamp ∨ order.waivers.length = 2) "exchange_appeal_open"
  let share ← need order.rulingShare
  close state order (order.price * share / 10000) .resolved

/-- Perform an order action; the first version has no timeout. -/
def orderAction (state : State Order) (order : Order) :
    OrderAction → Except Failure (State Order × Order)
  | .deliver => do pure (state, ← deliver owner value order)
  | .accept => accept owner value state order
  | .refund => refund owner value state order
  | .dispute => do pure (state, ← dispute value order)
  | .evidence => do pure (state, ← evidence owner value order)
  | .rule => rule C config network value timestamp state order
  | .appeal => do pure (state, ← appeal value timestamp order)
  | .waive => do pure (state, ← waive owner value order)
  | .finalize => finalize value timestamp state order
  | .timeout => .error (refusal "exchange_action_invalid")

end Actions

def orderCommand (config : Config) (cmd : Command) (action : Option OrderAction)
    (timestamp : Int) (state : State Order) : Except Failure (State Order) := do
  let (id, order) ← demand (← find state.orders (cmd.value.get? "order_id"))
    "exchange_order_unavailable"
  require (cmd.owner ∈ order.parties) "exchange_order_unavailable"
  require (¬ order.status.Terminal) "exchange_order_closed"
  let action ← demand action "exchange_action_invalid"
  let (state, order) ←
    orderAction C config cmd.network cmd.owner cmd.value timestamp state order action
  pure { state with orders := state.orders.set id order }

def perform (config : Config) (cmd : Command) (timestamp : Int) (state : State Order) :
    Action → Except Failure (State Order)
  | .profile => profile cmd state
  | .device => device cmd state
  | .transfer => transfer cmd state
  | .listing => listing cmd timestamp state
  | .withdraw => withdraw cmd state
  | .propose => propose config cmd state
  | .agree => agree C config cmd state
  | .reward => reward C LEGACY_VERSION config cmd state
  | .order action => orderCommand C config cmd (some action) timestamp state
  | .unknown => orderCommand C config cmd none timestamp state

/-- The action a command names; here a list or an object is no error but an
unknown action. -/
def readAction (action : Json) : Action :=
  match Exchange.readAction action with
  | .ok action => action
  | .error _ => .unknown

/-- The transition function of the first version. -/
def apply (state : State Order) (commandWire : Json) (config : Config) (timestamp : Int) :
    Except Failure (State Order) := do
  let cmd ← readCommand C LEGACY_VERSION state commandWire config timestamp
  let state := state.touch cmd.owner
  require (state.operations.keys.length < 10000) "exchange_capacity"
  let state ← perform C config cmd timestamp state (readAction cmd.action)
  finish C commandWire cmd timestamp state

end Exchange.LegacyV1
