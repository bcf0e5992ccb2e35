import Rynmesh.ExchangeRuns

/-!
# The accounting checks are redundant

The rules check their accounting as they go: the supply and balance checks
that end `apply`, the one in `unhold`, the capacity in `earn` and the reserves
in `rule`.  On reachable states none of them ever refuses a command
(`apply_unguarded`), because the books already imply what they check.

A computation is `Benign` when none of its refusals comes from an accounting
check.
-/

namespace Exchange

open Checked

/-- No refusal of the computation comes from an accounting check. -/
abbrev Benign {α : Type} (x : Except Failure α) : Prop :=
  OnlyFails (fun e => ¬ e.Guarded) x

/-- The refusals for lack of room in the log or in the reserve of an order. -/
def Failure.Budget : Failure → Prop
  | .exchange code _ =>
      code = "exchange_admission_exhausted" ∨ code = "exchange_account_quota" ∨
        code = "exchange_order_capacity"
  | .python _ => False

/-- Failures that neither an accounting check nor a lack of room makes. -/
class Spares (P : Failure → Prop) : Prop where
  spares : ∀ e : Failure, ¬ e.Guarded → ¬ e.Budget → P e

instance : Spares fun e => ¬ e.Guarded := ⟨fun _ h _ => h⟩

instance : Spares fun e => ¬ e.Budget := ⟨fun _ _ h => h⟩

section Primitives

variable {α : Type} {p : Prop} [Decidable p] {code : String} (C : Codec) {P : Failure → Prop}

@[simp] theorem budget_refusal : (refusal code).Budget ↔
    code = "exchange_admission_exhausted" ∨ code = "exchange_account_quota" ∨
      code = "exchange_order_capacity" := Iff.rfl

@[simp] theorem not_budget_python (kind : String) : ¬ (Failure.python kind).Budget := id

@[simp] theorem benign_require : Benign (require p code) := by
  simp [require, Benign]

@[simp] theorem benign_guarded {g : Guard} : Benign (guarded g p code) ↔ p := by
  simp [guarded, Benign, Failure.Guarded]

@[simp] theorem benign_demand {o : Option α} : Benign (demand o code) := by
  simp [demand, Benign]

variable [Spares P]

theorem spared_refusal (h : ¬ (refusal code).Budget) : P (refusal code) :=
  Spares.spares _ (by simp [Failure.Guarded, refusal]) h

theorem spared_python (kind : String) : P (.python kind) :=
  Spares.spares _ id id

@[simp] theorem spared_require (h : ¬ (refusal code).Budget) : OnlyFails P (require p code) := by
  simp only [require, onlyFails_require]
  exact fun _ => spared_refusal h

@[simp] theorem spared_demand {o : Option α} (h : ¬ (refusal code).Budget) :
    OnlyFails P (demand o code) := by
  simp only [demand, onlyFails_demand]
  exact fun _ => spared_refusal h

@[simp] theorem spared_need {o : Option α} : OnlyFails P (need o) := by
  simp [need, spared_python]

@[simp] theorem spared_text (value : Json) (limit : Nat) : OnlyFails P (text value limit) := by
  simp [text]

@[simp] theorem spared_integer (value : Json) (maximum : Int) :
    OnlyFails P (integer value maximum) := by
  simp [integer]

@[simp] theorem spared_identifier (value : Json) : OnlyFails P (identifier value) := by
  simp [identifier]

@[simp] theorem spared_key (value : Json) : OnlyFails P (key value) := by
  simp [key]

@[simp] theorem spared_digestText (value : Json) : OnlyFails P (digestText value) := by
  simp [digestText, spared_python]

@[simp] theorem spared_oneOf (value : Option Json) (names : List String) :
    OnlyFails P (oneOf value names) := by
  unfold oneOf
  split <;> simp [spared_python]

@[simp] theorem spared_find {rows : Dict String α} {k : Option Json} :
    OnlyFails P (find rows k) := by
  unfold find
  split <;> simp [spared_python]

@[simp] theorem spared_signature (wire : Json) : OnlyFails P (signature C wire) := by
  simp [signature]

@[simp] theorem spared_readAction (action : Json) : OnlyFails P (readAction action) := by
  unfold readAction
  split <;> simp [spared_python]

@[simp] theorem benign_readKind (kind : Option Json) : Benign (readKind kind) := by
  unfold readKind
  split <;> simp

@[simp] theorem spared_judgePanel (eligible : List Judge) (buyer provider : String)
    (round : Nat) : OnlyFails P (judgePanel eligible buyer provider round) := by
  simp [judgePanel]

@[simp] theorem benign_seats (config : Config) (buyer provider : String) :
    Benign (seats config buyer provider) := by
  unfold seats
  split <;> simp

@[simp] theorem spared_readCommand {ω : Type} (version : String) (state : State ω)
    (wire : Json) (config : Config) (timestamp : Int) :
    OnlyFails P (readCommand C version state wire config timestamp) := by
  simp [readCommand]

@[simp] theorem benign_checkReceipt (version : String) (config : Config)
    (network job owner : String) (witnesses : List String) (wire : Json) :
    Benign (checkReceipt C version config network job owner witnesses wire) := by
  simp [checkReceipt]

@[simp] theorem spared_checkRuling (version network : String) (judges : List Judge)
    (caseHash : String)
    (acc : List String × List Int) (wire : Json) :
    OnlyFails P (checkRuling C version network judges caseHash acc wire) := by
  simp [checkRuling]

@[simp] theorem spared_deadline (order : Order) : OnlyFails P order.deadline := by
  unfold Order.deadline
  split <;> simp [spared_python]

@[simp] theorem spared_reviewDeadline (timestamp : Int) (order : Order) :
    OnlyFails P (reviewDeadline timestamp order) := by
  unfold reviewDeadline
  split <;> simp

@[simp] theorem spared_casePayload (config : Config) (order : Order) (round : Nat) :
    OnlyFails P (casePayload config order round) := by
  simp [casePayload]

@[simp] theorem spared_sealedText (sealed : Json) : OnlyFails P (sealedText sealed) := by
  simp [sealedText]

@[simp] theorem spared_envelope (entry : Json) : OnlyFails P (envelope entry) := by
  unfold envelope
  split
  · simp
  · simp [spared_refusal]
  · split <;> simp [spared_refusal, spared_python]
  · simp [spared_python]

@[simp] theorem spared_confirmSettlement (value : Json) (order : Order) :
    OnlyFails P (confirmSettlement C value order) := by
  simp [confirmSettlement]

@[simp] theorem spared_timeoutShare (order : Order) : OnlyFails P (timeoutShare order) := by
  unfold timeoutShare
  split
  · simp
  · split <;> simp

@[simp] theorem benign_hold {ω : Type} (state : State ω) (owner : String) (value : Int) :
    Benign (hold state owner value) := by
  simp [hold]

end Primitives

/-! ### Actions without an accounting check -/

section Actions

variable (C : Codec) (config : Config) (cmd : Command) (timestamp : Int) (state : State Order)
  (owner : String) (value : Json) (order : Order)

@[simp] theorem benign_admission (action : Action) : Benign (admission cmd state action) := by
  cases action <;> simp [admission]

@[simp] theorem benign_profile : Benign (profile cmd state) := by
  simp [profile]

@[simp] theorem benign_device : Benign (device cmd state) := by
  simp [device]

@[simp] theorem benign_listing : Benign (listing cmd timestamp state) := by
  simp [listing]

@[simp] theorem benign_withdraw : Benign (withdraw cmd state) := by
  simp [withdraw]

@[simp] theorem benign_propose : Benign (propose config cmd state) := by
  simp [propose]

@[simp] theorem benign_termsFor (proposal : Proposal) (row : Listing) :
    Benign (termsFor config proposal row) := by
  simp [termsFor]

@[simp] theorem benign_agree : Benign (agree C config cmd timestamp state) := by
  simp [agree]

@[simp] theorem benign_openOrder : Benign (openOrder C cmd state) := by
  simp [openOrder]

@[simp] theorem benign_deliver : Benign (deliver owner value timestamp order) := by
  simp [deliver]

@[simp] theorem benign_dispute : Benign (dispute value timestamp order) := by
  simp [dispute, Order.judgePanel]

@[simp] theorem benign_evidence : Benign (evidence owner value timestamp order) := by
  simp [evidence, Order.judgePanel, onlyFails_forM]

@[simp] theorem benign_appeal : Benign (appeal owner value timestamp order) := by
  simp [appeal]

@[simp] theorem benign_waive : Benign (waive C owner value order) := by
  simp [waive]

end Actions

/-! ### Actions with an accounting check -/

section Guarded

variable {C : Codec} {config : Config} {known : String → Prop} {s : State Order} {cmd : Command}
  {timestamp : Int} {id owner network : String} {value : Json} {order : Order}

/-- The holds of an order are there to be released, and the provider can be
paid. -/
structure Funded (s : State Order) (order : Order) : Prop where
  distinct : order.buyer ≠ order.provider
  buyer : order.price + order.buyerReserve ≤ (s.account order.buyer).held
  provider : order.providerReserve ≤ (s.account order.provider).held
  capacity : (s.account order.provider).available + order.providerReserve + order.price ≤
    MAX_MINOR

theorem Order.escrow_parties (hopen : ¬ order.status.Terminal)
    (hne : order.buyer ≠ order.provider) :
    order.escrow order.buyer = order.price + order.buyerReserve ∧
      order.escrow order.provider = order.providerReserve := by
  simp [Order.escrow, hopen, hne, hne.symm]

/-- An open order is covered by the holds of its parties. -/
theorem Books.funded (h : Books config known s) (hget : s.orders.get? id = some order)
    (hopen : ¬ order.status.Terminal) : Funded s order := by
  have hsound := (h.orders id order hget).1
  obtain ⟨hbuyer, hprovider⟩ := Order.escrow_parties hopen hsound.distinct
  have hb := h.escrow_le_held hget order.buyer
  have hp := h.escrow_le_held hget order.provider
  have hboundb := h.balances_bounded order.buyer
  have hboundp := h.balances_bounded order.provider
  have hsolvent := h.solvent order.buyer
  have hreserves := hsound.reserves_nonneg
  have hmax : MAX_MINOR = 10 ^ 15 := rfl
  refine ⟨hsound.distinct, by omega, by omega, by omega⟩

/-- A covered order can be closed at any share of its price. -/
theorem Funded.settles (h : Funded s order) {paid : Int} (hpaid : 0 ≤ paid ∧ paid ≤ order.price)
    (status : Status) : ∃ s', close s order paid status =
      .ok (s', order.closed order.refundRequests paid status) := by
  obtain ⟨hne, hbuyer, hprovider, hcapacity⟩ := h
  obtain ⟨s1, h1⟩ := unhold_of hbuyer
  have f1 := flow_unhold h1
  have hheld : order.providerReserve ≤ (s1.account order.provider).held := by
    rw [f1.held_eq, amountAt_ne _ hne.symm, add_zero]
    exact hprovider
  obtain ⟨s2, h2⟩ := unhold_of hheld
  have f2 := (f1.trans (flow_unhold h2)).trans (flow_spend s2 order.buyer paid)
  have havailable := f2.available_eq order.provider
  rw [amountAt_ne _ hne.symm, amountAt_self, amountAt_ne _ hne.symm] at havailable
  have hroom : ((s2.update order.buyer fun row =>
      { row with available := row.available - paid }).account order.provider).available + paid ≤
        MAX_MINOR := by
    omega
  obtain ⟨s3, h3⟩ := earn_of hroom
  refine ⟨s3, ?_⟩
  simp only [close, bind_ok, require_ok, pure_ok]
  exact ⟨(), hpaid, s1, h1, s2, h2, s3, h3, rfl⟩

theorem Funded.benign_close (h : Funded s order) (paid : Int) (status : Status) :
    Benign (close s order paid status) := by
  by_cases hpaid : 0 ≤ paid ∧ paid ≤ order.price
  · obtain ⟨s', hclose⟩ := h.settles hpaid status
    simp [hclose]
  · simp [close, hpaid]

theorem Funded.benign_accept (h : Funded s order) : Benign (accept owner value s order) := by
  simp [accept, h.benign_close]

theorem Funded.benign_refund (h : Funded s order) : Benign (refund owner value s order) := by
  have hrefund : ∀ paid status, Benign (close s
      { order with refundRequests := order.refundRequests ++ [owner] } paid status) :=
    Funded.benign_close ⟨h.distinct, h.buyer, h.provider, h.capacity⟩
  simp only [refund, onlyFails_bind, benign_require, true_and]
  intro _ _ _ _
  split
  · exact hrefund 0 .refunded
  · simp

theorem Funded.benign_finalize (h : Funded s order) :
    Benign (finalize C value timestamp s order) := by
  simp [finalize, h.benign_close]

/-- A timeout fails at none of the balances. -/
theorem Funded.benign_timeout (h : Funded s order) :
    Benign (timeout C value timestamp s order) := by
  simp only [timeout, onlyFails_bind, benign_require, spared_deadline, true_and]
  intro _ _ _ _ _ _ _ _
  split
  · exact h.benign_close _ _
  · split
    · exact h.benign_close _ _
    · simp [h.benign_close]

theorem benign_payJudges {judges : List Judge} (hfees : ∀ j ∈ judges, 0 ≤ j.fee)
    (hcapacity : ∀ o, (s.account o).available + panelFee judges ≤ MAX_MINOR) :
    Benign (payJudges s judges) := by
  unfold payJudges
  induction judges generalizing s with
  | nil => simp
  | cons judge rest ih =>
    have hrest : ∀ j ∈ rest, 0 ≤ j.fee := fun j hj => hfees j (List.mem_cons_of_mem _ hj)
    have hfee : 0 ≤ judge.fee := hfees judge List.mem_cons_self
    have hnonneg := panelFee_nonneg hrest
    have hsum : panelFee (judge :: rest) = judge.fee + panelFee rest := by simp [panelFee]
    refine onlyFails_bind.mpr ⟨?_, fun next hnext => ih hrest fun o => ?_⟩
    · have := hcapacity judge.peerId
      simp only [earn, onlyFails_bind, benign_guarded, onlyFails_pure, implies_true, and_true]
      omega
    · have := hcapacity o
      rw [(flow_earn hnext).available_eq]
      unfold amountAt
      split <;> omega

/-- The reserves of a round pay its panel, half each. -/
theorem Order.Sound.reserves_cover (h : order.Sound id) (hstatus : order.status = .disputed)
    {round : Nat} (hround : order.round = some round) (hrounds : round = 0 ∨ round = 1) :
    (panelFee (panel order.terms.judges round) + 1) / 2 ≤ order.buyerReserve ∧
      panelFee (panel order.terms.judges round) / 2 ≤ order.providerReserve := by
  have h1 := h.seated.panelFee_nonneg 1
  rw [h.buyerReserve, h.providerReserve]
  rcases hrounds with rfl | rfl
  · simp [Order.roundsLeft, hstatus, hround, buyerFees, providerFees]
    omega
  · simp [Order.roundsLeft, hstatus, hround, buyerFees, providerFees]

/-- A ruling fails at none of the balances. -/
theorem Books.benign_rule (h : Books config known s) (hsound : order.Sound id)
    (hfunded : Funded s order) : Benign (rule C config network value timestamp s order) := by
  simp only [rule, onlyFails_bind, benign_require, spared_need, benign_demand, benign_guarded,
    spared_casePayload, Order.judgePanel, spared_judgePanel, require_ok, need_ok, guarded_ok,
    judgePanel_ok, onlyFails_foldlM, spared_checkRuling, onlyFails_pure, implies_true, true_and,
    and_true]
  rintro _ ⟨-, hstatus⟩ _ - _ - _ - round hround judges ⟨hrounds, -, -, rfl⟩ _ - _ - _ - _ - _ -
  have hcover := hsound.reserves_cover hstatus hround hrounds
  refine ⟨hcover, fun _ _ => ?_⟩
  refine benign_payJudges (fun j hj => hsound.seated.fees j ((panel_sublist _ _).subset hj))
    fun o => ?_
  have hmax : MAX_MINOR = 10 ^ 15 := rfl
  have hbuyer := hfunded.buyer
  have hprice := hsound.price.1
  have hb := h.balances_bounded order.buyer
  have ho := h.balances_bounded o
  have hsb := h.solvent order.buyer
  have hheld := h.held_nonneg o
  rw [(flow_charge s order.buyer order.provider _ _).available_eq]
  omega

/-- **No accounting check refuses an order action.** -/
theorem Books.benign_orderAction (h : Books config known s) (hget : s.orders.get? id = some order)
    (hopen : ¬ order.status.Terminal) (action : OrderAction) :
    Benign (orderAction C config network owner value timestamp s
      { order with remainingOps := order.remainingOps - 1 } action) := by
  have hsound := (h.orders id order hget).1.charged (order.remainingOps - 1)
  have hfunds := h.funded hget hopen
  have hfunded : Funded s { order with remainingOps := order.remainingOps - 1 } :=
    ⟨hfunds.distinct, hfunds.buyer, hfunds.provider, hfunds.capacity⟩
  cases action with
  | accept => exact hfunded.benign_accept
  | refund => exact hfunded.benign_refund
  | rule => exact h.benign_rule hsound hfunded
  | finalize => exact hfunded.benign_finalize
  | timeout => exact hfunded.benign_timeout
  | _ => simp [orderAction]

theorem Books.benign_transfer (h : Books config known s) : Benign (transfer cmd s) := by
  simp only [transfer, onlyFails_bind, benign_require, spared_need, spared_key, spared_integer,
    true_and, require_ok]
  rintro _ - _ - recipient - _ ⟨hne, -⟩ _ - paid - _ ⟨hpos, hle⟩
  have hmax : MAX_MINOR = 10 ^ 15 := rfl
  have hr := h.balances_bounded recipient
  have hrheld := h.held_nonneg recipient
  have ho := h.balances_bounded cmd.owner
  have hoheld := h.held_nonneg cmd.owner
  have hroom : ((s.update cmd.owner fun row =>
      { row with available := row.available - paid }).account recipient).available + paid ≤
        MAX_MINOR := by
    rw [(flow_spend s cmd.owner paid).available_eq, amountAt_ne _ hne]
    omega
  obtain ⟨result, hearn⟩ := earn_of hroom
  simp [hearn]

theorem Books.benign_reward (h : Books config known s) (version : String) :
    Benign (reward C version config cmd s) := by
  have hmax : MAX_MINOR = 10 ^ 15 := rfl
  have hunits : UNITS = 1000000 := rfl
  have ho := h.balances_bounded cmd.owner
  have hoheld := h.held_nonneg cmd.owner
  have hreward := config.reward_bounded
  have hissuance := config.issuance_bounded
  obtain ⟨result, hearn⟩ := earn_of (show (s.account cmd.owner).available + config.workReward ≤
    MAX_MINOR by omega)
  simp [reward, hearn, onlyFails_foldlM]

/-- Nor does any other action. -/
theorem Books.benign_perform (h : Books config known s) (action : Action) :
    Benign (perform C config cmd timestamp s action) := by
  have horder : ∀ a : Option OrderAction,
      Benign (orderCommand C config cmd a timestamp s) := by
    intro a
    simp only [orderCommand, onlyFails_bind, benign_openOrder, benign_demand, benign_require,
      onlyFails_pure, implies_true, and_true, true_and]
    rintro ⟨id, order⟩ hopened action - _ -
    simp only [openOrder, bind_ok, require_ok, demand_ok, pure_ok] at hopened
    obtain ⟨_, hfind, ⟨id', order'⟩, hsome, -, -, -, -, -, hopen, heq⟩ := hopened
    cases heq
    exact h.benign_orderAction (find_ok hfind hsome).2 hopen action
  cases action with
  | transfer => exact h.benign_transfer
  | reward => exact h.benign_reward VERSION
  | order action => exact horder (some action)
  | unknown => exact horder none
  | _ => simp [perform]

theorem Books.finish (h : Books config known s) (C : Codec) (wire : Json) (cmd : Command)
    (timestamp : Int) :
    Exchange.finish C wire cmd timestamp s = .ok (Exchange.recorded C wire cmd timestamp s) := by
  have hrecorded := h.recorded C wire cmd timestamp
  refine finish_ok.mpr ⟨rfl, hrecorded.coins, fun a ha => ?_⟩
  obtain ⟨o, ho⟩ := Dict.mem_values_iff.mp ha
  have haccount : (Exchange.recorded C wire cmd timestamp s).account o = a := by
    simp [State.account, ho]
  exact haccount ▸ ⟨hrecorded.solvent o, hrecorded.held_nonneg o⟩

/-- **No accounting check refuses a command** on a state with its books in
order. -/
theorem Invariant.benign_apply (h : Invariant config s) (wire : Json) :
    Benign (apply C s wire config timestamp) := by
  simp only [apply, onlyFails_bind, spared_readCommand, spared_readAction, benign_admission,
    true_and]
  intro cmd hread action haction admitted hadm
  obtain ⟨payload, hread⟩ := readCommand_ok hread
  have hflow := (flow_touch s cmd.owner).trans (admission_ok hadm)
  have hbooks : Invariant config admitted := by
    have := Books.touch h hflow
    exact this.mono fun id hid => hflow.operations_eq ▸ hid
  refine ⟨hbooks.benign_perform action, fun performed hperform => ?_⟩
  have heffect := perform_effect hflow hperform
  have hafter := heffect.books h hread.identifier hread.owner_key hread.fresh
  simp [hafter.finish]

end Guarded

/-! ### The accounting of the escrow -/

/-- **Escrow accounting.**  On every reachable state the held balance of an
account is what its open orders put in escrow and nothing is negative; the
coins are the work rewards issued, within the limit and at most one for each
account; and no accounting check is ever what refuses the next command. -/
theorem escrow_accounting (C : Codec) (config : Config) (state : State Order)
    (h : Reachable C config state) :
    (∀ owner, (state.account owner).held =
        (state.orders.sumBy fun o =>
          if o.status.Terminal ∨ o.buyer ≠ owner then 0 else o.price + o.buyerReserve) +
        (state.orders.sumBy fun o =>
          if o.status.Terminal ∨ o.provider ≠ owner then 0 else o.providerReserve) ∧
      0 ≤ (state.account owner).available) ∧
    (state.accounts.sumBy (fun a => a.available + a.held) = state.issued ∧
      state.issued = config.workReward * state.rewards.entries.length ∧
      state.issued ≤ config.issuanceLimit ∧ state.rewards.values.Nodup) ∧
    ∀ commandWire timestamp e, apply C state commandWire config timestamp = .error e →
      ¬ e.Guarded := by
  have hinv := h.invariant
  refine ⟨fun owner => ⟨?_, hinv.solvent owner⟩,
    ⟨hinv.coins, hinv.issued, hinv.limit, hinv.once⟩,
    fun wire timestamp e he => hinv.benign_apply wire e he⟩
  rw [hinv.held, ← Dict.sumBy_add]
  refine Dict.sumBy_congr fun id order hget => ?_
  unfold Order.escrow amountAt
  by_cases hterminal : order.status.Terminal
  · simp [hterminal]
  · simp [hterminal, eq_comm]

/-- The held coins of the buyer of an open order are the order's escrow, the
coins are the two rewards, and no accounting check refuses. -/
theorem escrow_accounting_sample : ∃ state order,
    state.orders.get? "command-5" = some order ∧ ¬ order.status.Terminal ∧
    (state.orders.sumBy fun o =>
      if o.status.Terminal ∨ o.buyer ≠ sampleKey 'Q' then 0 else o.price + o.buyerReserve) +
    (state.orders.sumBy fun o =>
      if o.status.Terminal ∨ o.provider ≠ sampleKey 'Q' then 0 else o.providerReserve) = 10 ∧
    state.accounts.sumBy (fun a => a.available + a.held) =
      sampleConfig.workReward * state.rewards.entries.length ∧
    ∀ wire timestamp e, apply .plain state wire sampleConfig timestamp = .error e →
      ¬ e.Guarded := by
  obtain ⟨state, order, hreach, hget, hopen, -, -, -, hheld⟩ := sample_reachable
  obtain ⟨haccounts, hcoins, hrefusals⟩ := escrow_accounting .plain sampleConfig state hreach
  exact ⟨state, order, hget, hopen, (haccounts _).1.symm.trans hheld, hcoins.1.trans hcoins.2.1,
    hrefusals⟩

end Exchange
