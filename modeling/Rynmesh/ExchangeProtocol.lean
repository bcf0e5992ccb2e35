import Rynmesh.ExchangeOrders

/-!
# The transition function of the exchange rules, version 2

`apply` of `protocol.py`: read a signed command, admit it, perform it and
record it.  Order actions draw on the operation reserve their order set aside
at agreement; every other action is admitted against the capacity the open
orders leave.
-/

namespace Exchange

open Checked

variable (C : Codec)

/-! ### Admission -/

/-- The operations the open orders have set aside. -/
def reserved (state : State Order) : Int :=
  state.orders.sumBy fun o => if o.status.Terminal then 0 else o.remainingOps

/-- Admit a command.  An order action draws on what its order has set aside. -/
def admission (cmd : Command) (state : State Order) : Action → Except Failure (State Order)
  | .order _ => pure state
  | action => do
      let needed := 1 + (if action = .agree then ORDER_OPERATION_RESERVE else 0)
      require (state.operations.keys.length + reserved state + needed ≤ MAX_OPERATIONS)
        "exchange_admission_exhausted"
      require ((state.account cmd.owner).admissions < MAX_ACCOUNT_ADMISSIONS)
        "exchange_account_quota"
      pure (state.update cmd.owner fun row => { row with admissions := row.admissions + 1 })

/-! ### Withdrawing a listing and agreeing on a proposal -/

def withdraw (cmd : Command) (state : State Order) : Except Failure (State Order) := do
  require (cmd.value.HasKeys ["listing_id"])
  let (id, listing) ← demand (← find state.listings (cmd.value.get? "listing_id"))
    "exchange_unauthorized"
  require (listing.owner = cmd.owner) "exchange_unauthorized"
  require (listing.active = true) "exchange_listing_closed"
  pure { state with listings := state.listings.set id { listing with active := false } }

/-- The terms an order on a proposal would have. -/
def termsFor (config : Config) (proposal : Proposal) (listing : Listing) :
    Except Failure Terms := do
  let selected ← seats config proposal.buyer proposal.provider
  let (buyerFee, providerFee) := fees selected
  pure {
    proposalId := proposal.id, buyer := proposal.buyer, provider := proposal.provider,
    title := listing.title, category := listing.category, scope := proposal.scope,
    price := proposal.price, buyerDisputeReserve := buyerFee,
    providerDisputeReserve := providerFee, covenant := config.covenant,
    appealWindow := config.appealWindow, judges := selected,
    deliveryWindow := DELIVERY_WINDOW, reviewWindow := REVIEW_WINDOW,
    caseWindow := CASE_WINDOW, disputeTimeoutShare := 5000 }

/-- The open orders. -/
def openOrders (state : State Order) : List Order :=
  state.orders.values.filter fun o => ¬ o.status.Terminal

/-- The order an agreement creates. -/
def agreedOrder (id : String) (proposal : Proposal) (terms : Terms) (timestamp : Int) : Order :=
  { id, proposalId := proposal.id, buyer := proposal.buyer, provider := proposal.provider,
    terms, price := proposal.price, buyerReserve := terms.buyerDisputeReserve,
    providerReserve := terms.providerDisputeReserve, status := .working, evidence := .empty,
    refundRequests := [], waivers := [], createdAt := timestamp,
    deliveryUntil := timestamp + terms.deliveryWindow, remainingOps := ORDER_OPERATION_RESERVE,
    deliveryRevisions := 0 }

def agree (config : Config) (cmd : Command) (timestamp : Int) (state : State Order) :
    Except Failure (State Order) := do
  require (cmd.value.HasKeys ["proposal_id", "terms_hash"])
  let (id, proposal) ← demand (← find state.proposals (cmd.value.get? "proposal_id"))
    "exchange_proposal_unavailable"
  require (proposal.status = .offered) "exchange_proposal_unavailable"
  require (cmd.owner ∈ [proposal.buyer, proposal.provider] ∧ cmd.owner ≠ proposal.proposedBy)
    "exchange_unauthorized"
  let listing ← need (state.listings.get? proposal.listingId)
  require (listing.active = true) "exchange_listing_unavailable"
  let parties := [proposal.buyer, proposal.provider]
  require (((openOrders state).filter fun o => o.buyer ∈ parties ∨ o.provider ∈ parties).length <
    100) "exchange_open_orders_limit"
  let terms ← termsFor config proposal listing
  require (cmd.value.get? "terms_hash" = some (.str (C.sha256 terms.toJson)))
    "exchange_terms_changed"
  require ((openOrders state).length < MAX_OPEN_ORDERS) "exchange_open_orders_limit"
  let state ← hold state proposal.buyer (proposal.price + terms.buyerDisputeReserve)
  let state ← hold state proposal.provider terms.providerDisputeReserve
  pure { state with
    proposals := state.proposals.set id { proposal with status := .accepted },
    orders := state.orders.set cmd.id (agreedOrder cmd.id proposal terms timestamp) }

/-! ### Order actions -/

/-- The order a command of one of its parties is about, under its key. -/
def openOrder (cmd : Command) (state : State Order) : Except Failure (String × Order) := do
  let (id, order) ← demand (← find state.orders (cmd.value.get? "order_id"))
    "exchange_order_unavailable"
  require (cmd.owner ∈ order.parties) "exchange_order_unavailable"
  require (cmd.value.get? "reviewed_order" = some (.str (orderCommitment C order)))
    "exchange_order_changed"
  require (¬ order.status.Terminal) "exchange_order_closed"
  pure (id, order)

/-- Perform an order action. -/
def orderAction (config : Config) (network owner : String) (value : Json) (timestamp : Int)
    (state : State Order) (order : Order) : OrderAction → Except Failure (State Order × Order)
  | .deliver => do
      let order ← deliver owner value timestamp order
      pure (state, order)
  | .accept => accept owner value state order
  | .refund => refund owner value state order
  | .dispute => do
      let order ← dispute value timestamp order
      pure (state, order)
  | .evidence => do
      let order ← evidence owner value timestamp order
      pure (state, order)
  | .rule => rule C config network value timestamp state order
  | .appeal => do
      let order ← appeal owner value timestamp order
      pure (state, order)
  | .waive => do
      let order ← waive C owner value order
      pure (state, order)
  | .finalize => finalize C value timestamp state order
  | .timeout => timeout C value timestamp state order

/-- The order branch of `apply`.  An action that is no order action gets here
too when it is unknown, and is refused. -/
def orderCommand (config : Config) (cmd : Command) (action : Option OrderAction)
    (timestamp : Int) (state : State Order) : Except Failure (State Order) := do
  let (id, order) ← openOrder C cmd state
  let action ← demand action "exchange_action_invalid"
  require (0 < order.remainingOps) "exchange_order_capacity"
  let (state, order) ← orderAction C config cmd.network cmd.owner
    (cmd.value.without "reviewed_order") timestamp state
    { order with remainingOps := order.remainingOps - 1 } action
  pure { state with orders := state.orders.set id order }

/-- Perform a command that was admitted. -/
def perform (config : Config) (cmd : Command) (timestamp : Int) (state : State Order) :
    Action → Except Failure (State Order)
  | .profile => profile cmd state
  | .device => device cmd state
  | .transfer => transfer cmd state
  | .listing => listing cmd timestamp state
  | .withdraw => withdraw cmd state
  | .propose => propose config cmd state
  | .agree => agree C config cmd timestamp state
  | .reward => reward C VERSION config cmd state
  | .order action => orderCommand C config cmd (some action) timestamp state
  | .unknown => orderCommand C config cmd none timestamp state

/-- The transition function: validators and consumers run exactly these
rules. -/
def apply (state : State Order) (commandWire : Json) (config : Config) (timestamp : Int) :
    Except Failure (State Order) := do
  let cmd ← readCommand C VERSION state commandWire config timestamp
  let state := state.touch cmd.owner
  let action ← readAction cmd.action
  let state ← admission cmd state action
  let state ← perform C config cmd timestamp state action
  finish C commandWire cmd timestamp state

/-! ### First votes -/

/-- The actions a phase's deadline ends. -/
def OrderAction.endsAtDeadline (action : OrderAction) : Prop :=
  action = .appeal ∨ action = .dispute ∨ action = .evidence ∨ action = .rule ∨
    action = .deliver

instance (action : OrderAction) : Decidable action.endsAtDeadline :=
  inferInstanceAs (Decidable (_ ∨ _ ∨ _ ∨ _ ∨ _))

/-- The actions a phase's deadline opens: a timeout, and a settlement that the
parties have not both waived to appeal. -/
def opensAtDeadline (order : Order) (action : OrderAction) : Prop :=
  action = .timeout ∨ action = .finalize ∧ order.waivers.length ≠ 2

instance (order : Order) (action : OrderAction) : Decidable (opensAtDeadline order action) :=
  inferInstanceAs (Decidable (_ ∨ _ ∧ _))

/-- The local clock's checks on one order action. -/
def clockGuard (order : Order) (now : Int) (action : OrderAction) : Except Failure Unit := do
  whenever action.endsAtDeadline (do
    let ends ← order.deadline
    require (now < ends) "exchange_deadline_expired")
  whenever (action = .deliver) (require (now < order.deliveryUntil) "exchange_deadline_expired")
  whenever (opensAtDeadline order action) (do
    let ends ← order.deadline
    require (ends ≤ now) "exchange_timeout_open")

/-- Local clock guards for first votes only; historical replay has no wall
clock. -/
def voteDeadlines (state : State Order) (command : Json) (now : Int) : Except Failure Unit := do
  let action ← need (command.get? "action")
  let value ← need (command.get? "value")
  match ← find state.orders (value.get? "order_id") with
  | none => pure ()
  | some (_, order) =>
      if order.status.Terminal then pure ()
      else
        match ← readAction action with
        | .order action => clockGuard order now action
        | _ => pure ()

end Exchange
