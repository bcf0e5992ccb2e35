import Rynmesh.ExchangeAccounting

/-!
# The operation log keeps room for the orders that are open

Order actions are not admitted: an agreement sets operations aside for its
order, each action of the order takes one of them, and closing the order gives
the rest back.

* `Reserve` is the invariant of the log and the open orders;
* `apply_reserve` is its step lemma, from what an admitted command did
  (`apply_admitted`);
* `reserved_capacity` reads it off in every reachable state, and says that the
  budget of the log never refuses an order action.
-/

namespace Exchange

open Checked

/-! ### What an order adds up to -/

/-- The operations an order has set aside. -/
def Order.reserve (order : Order) : Int := if order.status.Terminal then 0 else order.remainingOps

theorem reserved_eq (state : State Order) : reserved state = state.orders.sumBy Order.reserve :=
  rfl

theorem openOrders_length (state : State Order) : ((openOrders state).length : Int) =
    state.orders.sumBy fun o => if o.status.Terminal then 0 else 1 := by
  unfold openOrders Dict.sumBy Dict.values
  induction state.orders.entries with
  | nil => rfl
  | cons entry rest ih =>
    rw [List.map_cons, List.filter_cons, List.map_cons, List.sum_cons, ← ih]
    by_cases hterminal : entry.2.status.Terminal
    · simp [hterminal]
    · simp [hterminal]
      omega

/-- The log and what the open orders set aside fit, and few orders are open. -/
structure Reserve (state : State Order) : Prop where
  budget : state.operations.keys.length + reserved state ≤ MAX_OPERATIONS
  room : ((openOrders state).length : Int) ≤ MAX_OPEN_ORDERS

theorem reserve_initialState (config : Config) : Reserve (initialState config) where
  budget := by
    show (0 : Int) ≤ 10000
    omega
  room := by
    show (0 : Int) ≤ 6
    omega

/-! ### What a command was admitted against -/

section Step

variable {C : Codec} {config : Config} {a b : State Order} {commandWire : Json} {timestamp : Int}

theorem apply_admitted (h : apply C a commandWire config timestamp = .ok b) :
    ∃ cmd payload action performed,
      Applied C a commandWire config timestamp b cmd payload action performed ∧
      ((∃ order, action = .order order) ∨ a.operations.keys.length + reserved a +
        (1 + if action = .agree then ORDER_OPERATION_RESERVE else 0) ≤ MAX_OPERATIONS) := by
  obtain ⟨cmd, payload, action, performed, happlied⟩ := apply_ok h
  refine ⟨cmd, payload, action, performed, happlied, ?_⟩
  simp only [apply, bind_ok] at h
  obtain ⟨cmd', hread, action', haction, admitted, hadmission, -⟩ := h
  obtain ⟨payload', hread⟩ := readCommand_ok hread
  have hpayload : payload' = payload :=
    congrArg SignedPayload.payload (Except.ok.inj (hread.signed.symm.trans happlied.read.signed))
  have hcmd : cmd'.action = cmd.action := by
    have heq := hread.action_eq
    rw [hpayload, happlied.read.action_eq] at heq
    exact (Option.some.inj heq).symm
  have hsame : action' = action := by
    rw [hcmd] at haction
    exact Except.ok.inj (haction.symm.trans happlied.named)
  rw [hsame] at hadmission
  cases action with
  | order action => exact .inl ⟨action, rfl⟩
  | _ =>
    right
    simp only [admission, bind_ok, require_ok, pure_ok] at hadmission
    obtain ⟨-, hbudget, -⟩ := hadmission
    exact hbudget

theorem operations_length_set {operations : Dict String String} {id hash : String}
    (h : id ∉ operations.keys) :
    (operations.set id hash).keys.length = operations.keys.length + 1 := by
  simp [Dict.keys, Dict.entries_set_of_new hash h]

theorem Reserve.record (h : Reserve a) (horders : b.orders = a.orders)
    (hlength : b.operations.keys.length = a.operations.keys.length + 1)
    (hbudget : a.operations.keys.length + reserved a + 1 ≤ MAX_OPERATIONS) : Reserve b where
  budget := by
    have hreserved : reserved b = reserved a := by rw [reserved_eq, reserved_eq, horders]
    omega
  room := by
    have hopen : openOrders b = openOrders a := by
      unfold openOrders
      rw [horders]
    rw [hopen]
    exact h.room

theorem Reserve.agree {id : String} {order : Order} (hnew : id ∉ a.orders.keys)
    (horders : b.orders = a.orders.set id order) (hopen : ¬ order.status.Terminal)
    (hops : order.remainingOps = ORDER_OPERATION_RESERVE)
    (hlength : b.operations.keys.length = a.operations.keys.length + 1)
    (hbudget : a.operations.keys.length + reserved a + (1 + ORDER_OPERATION_RESERVE) ≤
      MAX_OPERATIONS)
    (hroom : ((openOrders a).length : Int) < MAX_OPEN_ORDERS) : Reserve b where
  budget := by
    have hreserved : reserved b = reserved a + ORDER_OPERATION_RESERVE := by
      rw [reserved_eq, reserved_eq, horders, Dict.sumBy_set_of_new _ _ hnew, Order.reserve,
        if_neg hopen, hops]
    omega
  room := by
    rw [openOrders_length] at hroom ⊢
    rw [horders, Dict.sumBy_set_of_new _ _ hnew, if_neg hopen]
    omega

theorem Reserve.order {id : String} {order order' : Order} (h : Reserve a)
    (hget : a.orders.get? id = some order) (horders : b.orders = a.orders.set id order')
    (hopen : ¬ order.status.Terminal) (hops : order'.reserve ≤ order.remainingOps - 1)
    (hlength : b.operations.keys.length = a.operations.keys.length + 1) : Reserve b where
  budget := by
    have hbudget := h.budget
    have hreserved : reserved b = reserved a - order.remainingOps + order'.reserve := by
      rw [reserved_eq, reserved_eq, horders, Dict.sumBy_set_int, hget]
      simp [Order.reserve, hopen]
    omega
  room := by
    have hroom := h.room
    rw [openOrders_length] at hroom ⊢
    rw [horders, Dict.sumBy_set_int, hget]
    simp only [Option.map_some, Option.getD_some, if_neg hopen]
    split
    · omega
    · omega

theorem apply_reserve (ha : Invariant config a) (hreserve : Reserve a)
    (h : apply C a commandWire config timestamp = .ok b) : Reserve b := by
  obtain ⟨cmd, payload, action, performed, happlied, hadmitted⟩ := apply_admitted h
  have hrecord := (happlied.onRecord ha).operation
  have hlength : b.operations.keys.length = a.operations.keys.length + 1 := by
    rw [hrecord]
    exact operations_length_set happlied.read.fresh
  have horders : b.orders = performed.orders := by rw [happlied.result, recorded_orders]
  have hother : ∀ other : Action, action = other → other ≠ .agree →
      (∀ order, other ≠ .order order) → performed.orders = a.orders → Reserve b := by
    intro other hother hagree horder hsame
    refine hreserve.record (horders.trans hsame) hlength ?_
    rcases hadmitted with ⟨order, heq⟩ | hbudget
    · exact absurd (hother.symm.trans heq) (horder order)
    · rw [hother, if_neg hagree] at hbudget
      omega
  have heffect := happlied.effect
  cases heffect with
  | balances kind flow =>
    refine hother action rfl ?_ ?_ flow.orders_eq
    · rcases kind with h | h | h <;> simp [h]
    · intro order
      rcases kind with h | h | h <;> simp [h]
  | listing kind flow =>
    refine hother action rfl ?_ ?_ flow.orders_eq
    · rcases kind with h | h <;> simp [h]
    · intro order
      rcases kind with h | h <;> simp [h]
  | propose flow => exact hother .propose rfl (by decide) (by simp) flow.orders_eq
  | reward fresh unrewarded limit flow =>
    exact hother .reward rfl (by decide) (by simp) flow.orders_eq
  | @agree s available pid proposal listing terms found offered confirms agreed room flow =>
    have hnew : cmd.id ∉ a.orders.keys := fun hmem => happlied.read.fresh (ha.known _ hmem)
    have hset : b.orders = a.orders.set cmd.id (agreedOrder cmd.id proposal terms timestamp) := by
      rw [horders]
      show s.orders.set _ _ = _
      rw [flow.orders_eq]
    rcases hadmitted with ⟨order, heq⟩ | hbudget
    · cases heq
    · exact Reserve.agree hnew hset (by simp [agreedOrder]) rfl hlength hbudget room
  | @order _ s' id order order' action touch named found party reviewed opened budget done =>
    obtain ⟨available, -, hflow⟩ := Books.orderAction_flow ha found opened done
    have hset : b.orders = a.orders.set id order' := by
      rw [horders]
      show s'.orders.set _ _ = _
      rw [(touch.trans hflow).orders_eq]
    have hops : order'.reserve ≤ order.remainingOps - 1 := by
      unfold Order.reserve
      split
      · omega
      · rename_i hopen'
        have hsound := ((ha.orders id order found).1).charged (order.remainingOps - 1)
        exact ((orderAction_step done).spent_lt hsound hopen').1.le
    exact hreserve.order found hset opened hops hlength

theorem Reachable.reserve (h : Reachable C config a) : Reserve a := by
  induction h with
  | refl => exact reserve_initialState config
  | tail hrun hstep ih =>
    obtain ⟨commandWire, timestamp, hstep⟩ := hstep
    exact apply_reserve (Reachable.invariant hrun) ih hstep

end Step

/-! ### Refusals that the budget of the log makes -/

/-- No refusal of the computation is for lack of room. -/
abbrev Roomy {α : Type} (x : Except Failure α) : Prop :=
  OnlyFails (fun e => ¬ e.Budget) x

section Roomy

variable {α : Type} {p : Prop} [Decidable p] {code : String} (C : Codec)

@[simp] theorem roomy_guarded {g : Guard} (h : ¬ (refusal code).Budget) :
    Roomy (guarded g p code) := by
  simp only [guarded, Roomy, onlyFails_require]
  exact fun _ => h

@[simp] theorem roomy_unhold {ω : Type} (state : State ω) (owner : String) (value : Int) :
    Roomy (unhold state owner value) := by
  simp [unhold]

@[simp] theorem roomy_earn {ω : Type} (state : State ω) (owner : String) (value : Int) :
    Roomy (earn state owner value) := by
  simp [earn]

@[simp] theorem roomy_close (state : State Order) (order : Order) (paid : Int) (status : Status) :
    Roomy (close state order paid status) := by
  simp [close]

@[simp] theorem roomy_payJudges {ω : Type} (state : State ω) (judges : List Judge) :
    Roomy (payJudges state judges) := by
  simp [payJudges, onlyFails_foldlM]

@[simp] theorem roomy_finish {ω : Type} (wire : Json) (cmd : Command) (timestamp : Int)
    (state : State ω) : Roomy (finish C wire cmd timestamp state) := by
  exact onlyFails_bind.mpr ⟨roomy_guarded (by simp), fun _ _ =>
    onlyFails_bind.mpr ⟨roomy_guarded (by simp), fun _ _ => onlyFails_pure⟩⟩

theorem roomy_orderAction (config : Config) (network owner : String) (value : Json)
    (timestamp : Int) (state : State Order) (order : Order) (action : OrderAction) :
    Roomy (orderAction C config network owner value timestamp state order action) := by
  cases action with
  | deliver => simp [orderAction, deliver]
  | accept => simp [orderAction, accept]
  | refund =>
    simp only [orderAction, refund, onlyFails_bind]
    refine ⟨by simp, fun _ _ => ⟨by simp, fun _ _ => ?_⟩⟩
    split <;> simp
  | dispute => simp [orderAction, dispute, Order.judgePanel]
  | evidence => simp [orderAction, evidence, Order.judgePanel, onlyFails_forM]
  | rule => simp [orderAction, rule, Order.judgePanel, onlyFails_foldlM]
  | appeal => simp [orderAction, appeal]
  | waive => simp [orderAction, waive]
  | finalize => simp [orderAction, finalize]
  | timeout =>
    simp only [orderAction, timeout, onlyFails_bind]
    refine ⟨by simp, fun _ _ => ⟨by simp, fun _ _ => ⟨by simp, fun _ _ => ⟨by simp, ?_⟩⟩⟩⟩
    intro _ _
    split
    · simp
    · split
      · simp
      · simp

end Roomy

/-! ### The reserved capacity -/

section Capacity

variable {C : Codec} {config : Config} {state : State Order}

theorem Reachable.room (h : Reachable C config state) {id : String} {order : Order}
    (hget : state.orders.get? id = some order) (hopen : ¬ order.status.Terminal) :
    0 < order.remainingOps ∧
      state.operations.keys.length + order.remainingOps ≤ MAX_OPERATIONS := by
  have hinv := h.invariant
  have hops : ∀ id order, state.orders.get? id = some order → 0 ≤ order.reserve := by
    intro id order hget
    unfold Order.reserve
    split
    · omega
    · rename_i hopen
      obtain ⟨hsound, hbudget⟩ := hinv.orders id order hget
      have hremaining := hsound.remaining hbudget hopen
      omega
  obtain ⟨hsound, hbudget⟩ := hinv.orders id order hget
  have hremaining := hsound.remaining hbudget hopen
  have hshare := Dict.le_sumBy hops hget
  have hbound := h.reserve.budget
  rw [reserved_eq] at hbound
  rw [Order.reserve, if_neg hopen] at hshare
  constructor
  · omega
  · omega

theorem Reachable.roomy_apply (h : Reachable C config state) {commandWire : Json}
    {action : OrderAction} {id owner : String} {value : Json} {timestamp : Int}
    (hcommand : OrderCommand C commandWire action id owner value) :
    Roomy (apply C state commandWire config timestamp) := by
  obtain ⟨⟨payload, publicKey, hsigned, -, haction, -⟩, -⟩ := hcommand
  simp only [apply, onlyFails_bind, spared_readCommand, spared_readAction, roomy_finish, true_and,
    implies_true, and_true]
  intro cmd hread named hnamed
  obtain ⟨payload', hread⟩ := readCommand_ok hread
  have hpayload : payload' = payload :=
    congrArg SignedPayload.payload (Except.ok.inj (hread.signed.symm.trans hsigned))
  have hname : named = .order action := by
    have heq := hread.action_eq
    rw [hpayload, haction] at heq
    rw [← Option.some.inj heq, readAction_name] at hnamed
    exact (Except.ok.inj hnamed).symm
  rw [hname]
  refine ⟨onlyFails_pure, ?_⟩
  intro admitted hadmitted
  have hadmitted : state.touch cmd.owner = admitted := pure_ok.mp hadmitted
  rw [← hadmitted]
  show Roomy (orderCommand C config cmd (some action) timestamp (state.touch cmd.owner))
  simp only [orderCommand, openOrder, onlyFails_bind, onlyFails_pure, implies_true, and_true,
    bind_ok, require_ok, demand_ok, pure_ok]
  refine ⟨by simp, ?_⟩
  rintro found ⟨_, hfind, ⟨id', order⟩, hsome, _, _, _, _, _, hopen, heq⟩
  have hget := (find_ok hfind hsome).2
  obtain ⟨hremaining, -⟩ := h.room hget hopen
  rw [← heq]
  refine ⟨by simp, fun action _ => ⟨?_, fun _ _ =>
    roomy_orderAction C config cmd.network cmd.owner _ timestamp _ _ action⟩⟩
  simp only [require, onlyFails_require]
  intro hnone
  exact absurd hremaining hnone

/-- **Reserved closing capacity.**  In every reachable state the log and the operations that open
orders have set aside fit together, few orders are open, each of them has room for its next
action, and no order action is ever refused for lack of room. -/
theorem reserved_capacity (h : Reachable C config state) :
    (state.operations.keys.length +
        (state.orders.sumBy fun o => if o.status.Terminal then 0 else o.remainingOps) ≤
      MAX_OPERATIONS ∧
      ((state.orders.values.filter fun o => ¬ o.status.Terminal).length : Int) ≤ MAX_OPEN_ORDERS ∧
      (state.operations.keys.length : Int) ≤ MAX_OPERATIONS) ∧
    (∀ id order, state.orders.get? id = some order → ¬ order.status.Terminal →
      0 < order.remainingOps ∧ (state.operations.keys.length : Int) + 1 ≤ MAX_OPERATIONS) ∧
    ∀ commandWire action id owner value timestamp e,
      OrderCommand C commandWire action id owner value →
      apply C state commandWire config timestamp = .error e → ¬ e.Budget := by
  have hbudget := h.reserve.budget
  refine ⟨⟨hbudget, h.reserve.room, ?_⟩, ?_, ?_⟩
  · have hnonneg : 0 ≤ reserved state := by
      refine Dict.sumBy_nonneg ?_
      intro id order hget
      split
      · omega
      · rename_i hopen
        exact (h.room hget hopen).1.le
    omega
  · intro id order hget hopen
    have hroom := h.room hget hopen
    constructor
    · exact hroom.1
    · omega
  · intro commandWire action id owner value timestamp e hcommand happly
    exact h.roomy_apply hcommand e happly

/-- With an open order, the log keeps room for it. -/
theorem reserved_capacity_sample : ∃ (state : State Order) (order : Order),
    state.orders.get? "command-5" = some order ∧ 0 < order.remainingOps ∧
    (state.operations.keys.length : Int) + 1 ≤ MAX_OPERATIONS := by
  obtain ⟨state, order, hreach, hget, hagreed⟩ := sample_reachable
  obtain ⟨-, hroom, -⟩ := reserved_capacity hreach
  exact ⟨state, order, hget, hroom "command-5" order hget hagreed.1⟩

end Capacity

end Exchange
