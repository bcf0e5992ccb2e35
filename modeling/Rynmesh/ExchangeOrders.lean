import Rynmesh.ExchangeCommands

/-!
# Orders of the exchange rules, version 2

The order record of `protocol.py`, its commitments, its deadline and the ten
order actions.  An order action takes the order as the state holds it, with
its operation reserve already charged, and returns the state with moved
balances together with the new order; `apply` stores it.

Fields that the source adds to a record only later (`review_until`, `round`,
..) are options here, and `Order.toJson` writes the ones that are there.
-/

namespace Exchange

open Checked

inductive Status
  | working
  | delivered
  | disputed
  | rulingReady
  | accepted
  | refunded
  | resolved
deriving DecidableEq

namespace Status

def name : Status → String
  | working => "working"
  | delivered => "delivered"
  | disputed => "disputed"
  | rulingReady => "ruling_ready"
  | accepted => "accepted"
  | refunded => "refunded"
  | resolved => "resolved"

/-- `status in TERMINAL`. -/
def Terminal (status : Status) : Prop :=
  status = accepted ∨ status = refunded ∨ status = resolved

instance (status : Status) : Decidable status.Terminal :=
  inferInstanceAs (Decidable (_ ∨ _ ∨ _))

@[simp] theorem not_terminal_working : ¬ working.Terminal := by decide
@[simp] theorem not_terminal_delivered : ¬ delivered.Terminal := by decide
@[simp] theorem not_terminal_disputed : ¬ disputed.Terminal := by decide
@[simp] theorem not_terminal_rulingReady : ¬ rulingReady.Terminal := by decide
@[simp] theorem terminal_accepted : accepted.Terminal := by decide
@[simp] theorem terminal_refunded : refunded.Terminal := by decide
@[simp] theorem terminal_resolved : resolved.Terminal := by decide

end Status

structure Terms where
  proposalId : String
  buyer : String
  provider : String
  title : String
  category : String
  scope : String
  price : Int
  buyerDisputeReserve : Int
  providerDisputeReserve : Int
  covenant : Json
  appealWindow : Int
  judges : List Judge
  deliveryWindow : Int
  reviewWindow : Int
  caseWindow : Int
  disputeTimeoutShare : Int
deriving DecidableEq

def Terms.toJson (t : Terms) : Json :=
  .object [("proposal_id", .str t.proposalId), ("buyer", .str t.buyer),
    ("provider", .str t.provider), ("title", .str t.title), ("category", .str t.category),
    ("scope", .str t.scope), ("price", .int t.price),
    ("buyer_dispute_reserve", .int t.buyerDisputeReserve),
    ("provider_dispute_reserve", .int t.providerDisputeReserve), ("covenant", t.covenant),
    ("appeal_window_s", .int t.appealWindow), ("judges", .arr (t.judges.map Judge.toJson)),
    ("delivery", .str "encrypted digital text, at most 32 KiB"),
    ("platform_commission", .int 0), ("delivery_window_s", .int t.deliveryWindow),
    ("review_window_s", .int t.reviewWindow), ("case_window_s", .int t.caseWindow),
    ("dispute_timeout_share_bps", .int t.disputeTimeoutShare),
    ("appeal_timeout", .str "retain first ruling"),
    ("evidence_policy", .str "one immutable statement per party per round"),
    ("delivery_revisions", .int 3)]

/-- One party's statement in a dispute round. -/
structure Evidence where
  commitment : String
  sealed : Json
deriving DecidableEq

def Evidence.toJson (e : Evidence) : Json :=
  .object [("commitment", .str e.commitment), ("sealed", e.sealed)]

def evidenceJson (evidence : Dict String Evidence) : Json :=
  .object (evidence.entries.map fun e => (e.1, e.2.toJson))

structure Order where
  id : String
  proposalId : String
  buyer : String
  provider : String
  terms : Terms
  price : Int
  buyerReserve : Int
  providerReserve : Int
  status : Status
  evidence : Dict String Evidence
  refundRequests : List String
  waivers : List String
  createdAt : Int
  deliveryUntil : Int
  remainingOps : Int
  deliveryRevisions : Int
  reviewUntil : Option Int := none
  deliveryHash : Option String := none
  delivery : Option Json := none
  round : Option Nat := none
  caseUntil : Option Int := none
  rulingShare : Option Int := none
  rulings : Option (List Json) := none
  appealUntil : Option Int := none
  paid : Option Int := none

namespace Order

variable (order : Order)

/-- The two parties. -/
def parties : List String := [order.buyer, order.provider]

def toJson : Json :=
  .object ([("id", .str order.id), ("proposal_id", .str order.proposalId),
    ("buyer", .str order.buyer), ("provider", .str order.provider),
    ("terms", order.terms.toJson), ("price", .int order.price),
    ("buyer_reserve", .int order.buyerReserve),
    ("provider_reserve", .int order.providerReserve), ("status", .str order.status.name),
    ("evidence", evidenceJson order.evidence),
    ("refund_requests", .arr (order.refundRequests.map .str)),
    ("waivers", .arr (order.waivers.map .str)), ("created_at", .int order.createdAt),
    ("delivery_until", .int order.deliveryUntil), ("remaining_ops", .int order.remainingOps),
    ("delivery_revisions", .int order.deliveryRevisions)] ++
    [("review_until", order.reviewUntil.map .int),
      ("delivery_hash", order.deliveryHash.map .str), ("delivery", order.delivery),
      ("round", order.round.map fun r => .int r), ("case_until", order.caseUntil.map .int),
      ("ruling_share", order.rulingShare.map .int), ("rulings", order.rulings.map .arr),
      ("appeal_until", order.appealUntil.map .int),
      ("paid", order.paid.map .int)].filterMap fun (k, v) => v.map fun v => (k, v))

/-- The end of the phase the order is in. -/
def deadline : Except Failure Int :=
  match order.status with
  | .working => pure order.deliveryUntil
  | .delivered => need order.reviewUntil
  | .disputed => need order.caseUntil
  | .rulingReady => need order.appealUntil
  | _ => .error (.python "KeyError")

/-- The panel of a round, from the judges the terms fixed. -/
def judgePanel (round : Nat) : Except Failure (List Judge) :=
  Exchange.judgePanel order.terms.judges order.buyer order.provider round

end Order

variable (C : Codec)

/-- Includes the decreasing operation reserve: an old context cannot recur. -/
def orderCommitment (order : Order) : String := C.sha256 order.toJson

/-- What both parties see of a settlement before they confirm it. -/
def settlement (order : Order) : Json :=
  .object [("id", .str order.id), ("status", .str order.status.name),
    ("round", (order.round.map fun r => Json.int r).getD .null), ("price", .int order.price),
    ("terms", order.terms.toJson), ("delivery_hash", (order.deliveryHash.map .str).getD .null),
    ("delivery_until", .int order.deliveryUntil),
    ("review_until", (order.reviewUntil.map .int).getD .null),
    ("case_until", (order.caseUntil.map .int).getD .null),
    ("appeal_until", (order.appealUntil.map .int).getD .null),
    ("ruling_share", (order.rulingShare.map .int).getD .null),
    ("rulings", (order.rulings.map .arr).getD .null)]

def settlementCommitment (order : Order) : String := C.sha256 (settlement order)

/-- What the judges of a round are asked to rule on. -/
def casePayload (config : Config) (order : Order) (round : Nat) : Except Failure Json := do
  let caseUntil ← need order.caseUntil
  pure (.object [("version", .str VERSION), ("kind", .str "case"), ("order_id", .str order.id),
    ("round", .int round), ("terms", order.terms.toJson),
    ("delivery_hash", .str (order.deliveryHash.getD "")), ("deadline", .int caseUntil),
    ("previous_ruling_share",
      if round = 1 then (order.rulingShare.map .int).getD .null else .null),
    ("evidence", evidenceJson order.evidence), ("covenant", config.covenant)])

/-- Settle an order: release both holds, pay the provider and end the order. -/
def close (state : State Order) (order : Order) (paid : Int) (status : Status) :
    Except Failure (State Order × Order) := do
  require (0 ≤ paid ∧ paid ≤ order.price)
  let state ← unhold state order.buyer (order.price + order.buyerReserve)
  let state ← unhold state order.provider order.providerReserve
  let state := state.update order.buyer fun row => { row with available := row.available - paid }
  let state ← earn state order.provider paid
  pure (state, { order with status, paid := some paid, buyerReserve := 0,
                            providerReserve := 0, remainingOps := 0 })

/-! ### The order actions

`value` is the command's value without the reviewed commitment. -/

section Actions

variable (config : Config) (network owner : String) (value : Json) (timestamp : Int)

/-- `isinstance(sealed, dict) and set(sealed) == {"nonce", "ciphertext"}`, and
the texts in it. -/
def sealedText (sealed : Json) : Except Failure Unit := do
  require (sealed.HasKeys ["nonce", "ciphertext"])
  let _ ← text (← need (sealed.get? "nonce")) 100
  let _ ← text (← need (sealed.get? "ciphertext")) (64 * 1024)
  pure ()

/-- The review deadline a delivery sets, or keeps when it is a revision. -/
def reviewDeadline (order : Order) : Except Failure Int :=
  if order.status = .working then pure (timestamp + order.terms.reviewWindow)
  else need order.reviewUntil

def deliver (order : Order) : Except Failure Order := do
  require (value.HasKeys ["order_id", "hash", "sealed"])
  require (owner = order.provider ∧ (order.status = .working ∨ order.status = .delivered))
    "exchange_unauthorized"
  require (timestamp < order.deliveryUntil) "exchange_delivery_expired"
  require (order.deliveryRevisions < 3) "exchange_delivery_revision_limit"
  let reviewUntil ← reviewDeadline timestamp order
  require (timestamp < reviewUntil) "exchange_review_expired"
  let deliveryHash ← digestText (← need (value.get? "hash"))
  let sealed ← need (value.get? "sealed")
  sealedText sealed
  pure { order with
    deliveryRevisions := order.deliveryRevisions + 1, reviewUntil := some reviewUntil,
    status := .delivered, deliveryHash := some deliveryHash, delivery := some sealed }

def accept (state : State Order) (order : Order) : Except Failure (State Order × Order) := do
  require (value.HasKeys ["order_id", "delivery_hash"] ∧ owner = order.buyer ∧
    order.status = .delivered) "exchange_unauthorized"
  let deliveryHash ← need order.deliveryHash
  require (value.get? "delivery_hash" = some (.str deliveryHash)) "exchange_delivery_changed"
  close state order order.price .accepted

def refund (state : State Order) (order : Order) : Except Failure (State Order × Order) := do
  require (value.HasKeys ["order_id"])
  require (owner ∉ order.refundRequests) "exchange_refund_already_requested"
  let order := { order with refundRequests := order.refundRequests ++ [owner] }
  if order.refundRequests.length = 2 then close state order 0 .refunded
  else pure (state, order)

def dispute (order : Order) : Except Failure Order := do
  require (value.HasKeys ["order_id"] ∧ (order.status = .working ∨ order.status = .delivered))
    "exchange_dispute_state"
  let ends ← order.deadline
  require (timestamp < ends) "exchange_case_expired"
  let _ ← order.judgePanel 0
  let _ ← order.judgePanel 1
  pure { order with
    status := .disputed, round := some 0, evidence := .empty, waivers := [],
    caseUntil := some (timestamp + order.terms.caseWindow) }

/-- One sealed copy of a statement.  Only an object passes; what the source
raises on anything else depends on how `set` and the reads treat it. -/
def envelope : Json → Except Failure Unit
  | .obj fields => sealedText (.obj fields)
  | .str _ => .error (refusal "exchange_invalid")
  | .arr items =>
      if (items.any fun i => i.isObj || i.asArr?.isSome) = true ∨
          ((∀ i ∈ items, i = .str "nonce" ∨ i = .str "ciphertext") ∧
            Json.str "nonce" ∈ items ∧ Json.str "ciphertext" ∈ items) then
        .error (.python "TypeError")
      else .error (refusal "exchange_invalid")
  | _ => .error (.python "TypeError")

def evidence (order : Order) : Except Failure Order := do
  require (value.HasKeys ["order_id", "commitment", "sealed"])
  require (order.status = .disputed)
  let caseUntil ← need order.caseUntil
  require (timestamp < caseUntil) "exchange_case_expired"
  require (owner ∉ order.evidence.keys) "exchange_evidence_locked"
  let commitment ← digestText (← need (value.get? "commitment"))
  let round ← need order.round
  let judges ← order.judgePanel round
  let sealed ← need (value.get? "sealed")
  require (sealed.HasKeys (judges.map (·.peerId)))
  (sealed.keys.filterMap sealed.get?).forM envelope
  pure { order with evidence := order.evidence.set owner { commitment, sealed } }

/-- Check one ruling of a panel; the judges seen and the shares they gave. -/
def checkRuling (version network : String) (judges : List Judge) (caseHash : String)
    (acc : List String × List Int) (wire : Json) : Except Failure (List String × List Int) := do
  let receipt ← signature C wire
  let ruling := receipt.payload
  let judge ← demand (judges.find? fun j => j.peerId = receipt.publicKey)
  require (receipt.publicKey ∉ acc.1)
  require (ruling.HasKeys ["version", "kind", "network", "case_hash", "model", "share_bps",
    "reason_code"])
  require (ruling.get? "version" = some (.str version) ∧
    ruling.get? "kind" = some (.str "ruling") ∧ ruling.get? "network" = some (.str network))
  require (ruling.get? "case_hash" = some (.str caseHash) ∧
    ruling.get? "model" = some (.str judge.model))
  oneOf (ruling.get? "reason_code")
    ["delivery_matches", "delivery_missing", "partial_delivery", "terms_not_met"]
  let share ← integer (← need (ruling.get? "share_bps")) 10000
  pure (acc.1 ++ [receipt.publicKey], acc.2 ++ [share])

/-- `max(shares) - min(shares)`. -/
def spread (shares : List Int) : Int := shares.max?.getD 0 - shares.min?.getD 0

/-- `sorted(shares)[1]`. -/
def middle (shares : List Int) : Int := (shares.insertionSort (· ≤ ·)).getD 1 0

/-- Pay every judge of a panel the fee the terms promise. -/
def payJudges {ω : Type} (state : State ω) (judges : List Judge) : Except Failure (State ω) :=
  judges.foldlM (fun state judge => earn state judge.peerId judge.fee) state

def rule (state : State Order) (order : Order) : Except Failure (State Order × Order) := do
  require (value.HasKeys ["order_id", "rulings"] ∧ order.status = .disputed)
  require ((∀ k ∈ order.evidence.keys, k ∈ order.parties) ∧
    ∀ k ∈ order.parties, k ∈ order.evidence.keys) "exchange_evidence_incomplete"
  let caseUntil ← need order.caseUntil
  require (timestamp < caseUntil) "exchange_case_expired"
  let round ← need order.round
  let judges ← order.judgePanel round
  let caseFile ← casePayload config order round
  let rulings ← demand ((value.get? "rulings").bind Json.asArr?)
  require (rulings.length = 3)
  let (_, shares) ← rulings.foldlM (checkRuling C VERSION network judges (C.sha256 caseFile))
    ([], [])
  require (spread shares ≤ 1000) "exchange_models_disagree"
  let paidFee := panelFee judges
  let buyerFee := (paidFee + 1) / 2
  let providerFee := paidFee / 2
  guarded .reserve (buyerFee ≤ order.buyerReserve ∧ providerFee ≤ order.providerReserve)
  let state := state.update order.buyer fun row => { row with held := row.held - buyerFee }
  let state := state.update order.provider fun row =>
    { row with held := row.held - providerFee }
  let state ← payJudges state judges
  pure (state, { order with
    buyerReserve := order.buyerReserve - buyerFee,
    providerReserve := order.providerReserve - providerFee, status := .rulingReady,
    rulingShare := some (middle shares), rulings := some rulings,
    appealUntil := some (timestamp + config.appealWindow), waivers := [] })

def appeal (order : Order) : Except Failure Order := do
  require (value.HasKeys ["order_id"] ∧ order.status = .rulingReady)
  let round ← need order.round
  require (round = 0 ∧ owner ∉ order.waivers)
  let appealUntil ← need order.appealUntil
  require (timestamp < appealUntil) "exchange_appeal_expired"
  pure { order with
    status := .disputed, round := some 1, evidence := .empty, waivers := [],
    caseUntil := some (timestamp + order.terms.caseWindow) }

/-- The check of `waive` and `finalize` on the settlement and the status. -/
def confirmSettlement (order : Order) : Except Failure Unit := do
  require (value.get? "settlement_hash" = some (.str (settlementCommitment C order)))
    "exchange_settlement_changed"
  require (value.HasKeys ["order_id", "settlement_hash"] ∧ order.status = .rulingReady)

def waive (order : Order) : Except Failure Order := do
  confirmSettlement C value order
  require (owner ∉ order.waivers) "exchange_waiver_already_requested"
  pure { order with waivers := order.waivers ++ [owner] }

def finalize (state : State Order) (order : Order) : Except Failure (State Order × Order) := do
  confirmSettlement C value order
  let appealUntil ← need order.appealUntil
  require (appealUntil ≤ timestamp ∨ order.waivers.length = 2) "exchange_appeal_open"
  let share ← need order.rulingShare
  close state order (order.price * share / 10000) .resolved

/-- The share of the price a timeout of a dispute pays. -/
def timeoutShare (order : Order) : Except Failure Int :=
  if order.status = .rulingReady ∨ order.round = some 1 then need order.rulingShare
  else if (order.deliveryHash.any (· ≠ "")) = true then pure order.terms.disputeTimeoutShare
  else pure 0

def timeout (state : State Order) (order : Order) : Except Failure (State Order × Order) := do
  require (value.HasKeys ["order_id", "settlement_hash"])
  require (value.get? "settlement_hash" = some (.str (settlementCommitment C order)))
    "exchange_settlement_changed"
  let ends ← order.deadline
  require (ends ≤ timestamp) "exchange_timeout_open"
  if order.status = .working then close state order 0 .refunded
  else if order.status = .delivered then close state order order.price .accepted
  else do
    let share ← timeoutShare order
    close state order (order.price * share / 10000) .resolved

end Actions

end Exchange
