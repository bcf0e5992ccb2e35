import Rynmesh.ExchangeOrderSteps

/-!
# What an accepted command does

`apply` read backwards.  `CommandRead` is what the opening checks established,
`Effect` lists what performing the command did to the tables and balances, and
`apply_ok` is the inversion every invariant is derived from: an accepted
command was read, had one of the effects, and was put on record.
-/

namespace Exchange

open Checked

/-! ### Reading a command -/

/-- What the opening checks of `apply` established about a command. -/
structure CommandRead {ω : Type} (C : Codec) (state : State ω) (commandWire : Json)
    (config : Config) (timestamp : Int) (cmd : Command) (payload : Json) : Prop where
  signed : signature C commandWire = .ok ⟨payload, cmd.publicKey⟩
  id_eq : payload.get? "id" = some (.str cmd.id)
  actor_eq : payload.get? "actor" = some (.str cmd.owner)
  nonce_eq : payload.get? "nonce" = some (.int ((state.account cmd.owner).nonce + 1))
  action_eq : payload.get? "action" = some cmd.action
  value_eq : payload.get? "value" = some cmd.value
  identifier : IsIdentifier cmd.id
  owner_key : IsKey cmd.owner
  authorized : cmd.publicKey = cmd.owner ∨
    cmd.publicKey ∈ (state.account cmd.owner).devices
  fresh : cmd.id ∉ state.operations.keys
  time_le : state.time ≤ timestamp
  network_eq : cmd.network = network C config

theorem signature_ok {C : Codec} {wire payload : Json} {publicKey : String}
    (h : signature C wire = .ok ⟨payload, publicKey⟩) :
    (wire.get? "payload").bind Json.dict? = some payload ∧
      wire.get? "public_key" = some (.str publicKey) ∧
      ∃ sig, wire.get? "signature" = some sig ∧ C.verifies publicKey sig payload = true := by
  simp only [signature, bind_ok, demand_ok, require_ok, pure_ok, SignedPayload.mk.injEq] at h
  obtain ⟨_, hpayload, sig, hsig, _, hkey, -, ⟨-, hverifies⟩, -, -, -, -, rfl, rfl⟩ := h
  refine ⟨hpayload, ?_, sig, hsig, hverifies⟩
  obtain ⟨v, hv, hstr⟩ := Option.bind_eq_some_iff.mp hkey
  cases v <;> simp_all [Json.asStr?]

section Reading

variable {ω : Type} {C : Codec} {version : String} {state : State ω} {commandWire : Json}
  {config : Config} {timestamp : Int} {cmd : Command}

theorem readCommand_ok
    (h : readCommand C version state commandWire config timestamp = .ok cmd) :
    ∃ payload, CommandRead C state commandWire config timestamp cmd payload := by
  simp only [readCommand, bind_ok, require_ok, need_ok, pure_ok, identifier_ok, key_ok,
    integer_ok] at h
  obtain ⟨⟨payload, publicKey⟩, hsigned, -, -, -, -, _, hid, id, ⟨rfl, hident⟩, _, hactor, owner,
    ⟨rfl, hkey⟩, -, hauth, -, hfresh, _, hnonce, nonce, ⟨rfl, -⟩, -, hnext, -, htime, action,
    haction, value, hvalue, -, -, rfl⟩ := h
  exact ⟨payload, {
    signed := hsigned, id_eq := hid, actor_eq := hactor, nonce_eq := by rw [hnonce, hnext]
    action_eq := haction, value_eq := hvalue, identifier := hident, owner_key := hkey
    authorized := hauth, fresh := hfresh, time_le := htime, network_eq := rfl }⟩

theorem finish_ok {result : State ω} :
    finish C commandWire cmd timestamp state = .ok result ↔
      result = recorded C commandWire cmd timestamp state ∧ result.coins = result.issued ∧
        ∀ a ∈ result.accounts.values, 0 ≤ a.available ∧ 0 ≤ a.held := by
  simp only [finish, bind_ok, guarded_ok, pure_ok]
  constructor
  · rintro ⟨_, hsupply, _, hbalance, rfl⟩
    exact ⟨rfl, hsupply, hbalance⟩
  · rintro ⟨rfl, hsupply, hbalance⟩
    exact ⟨(), hsupply, (), hbalance, rfl⟩

variable (C commandWire cmd timestamp state)

@[simp] theorem recorded_orders :
    (recorded C commandWire cmd timestamp state).orders = state.orders := rfl
@[simp] theorem recorded_time :
    (recorded C commandWire cmd timestamp state).time = timestamp := rfl
@[simp] theorem recorded_operations : (recorded C commandWire cmd timestamp state).operations =
    state.operations.set cmd.id (C.sha256 commandWire) := rfl

theorem recorded_account (o : String) :
    (recorded C commandWire cmd timestamp state).account o =
      (state.update cmd.owner fun row => { row with nonce := row.nonce + 1 }).account o := rfl

theorem recorded_balances (o : String) :
    ((recorded C commandWire cmd timestamp state).account o).available =
        (state.account o).available ∧
      ((recorded C commandWire cmd timestamp state).account o).held = (state.account o).held := by
  rw [recorded_account]
  by_cases h : o = cmd.owner
  · subst h
    simp
  · simp [h]

theorem recorded_coins : (recorded C commandWire cmd timestamp state).coins = state.coins := by
  show (state.update cmd.owner fun row => { row with nonce := row.nonce + 1 }).coins = _
  rw [State.coins_update]
  simp [Account.total]

theorem recorded_nonce (o : String) :
    ((recorded C commandWire cmd timestamp state).account o).nonce =
      (state.account o).nonce + if o = cmd.owner then 1 else 0 := by
  rw [recorded_account]
  by_cases h : o = cmd.owner
  · subst h
    simp
  · simp [h]

end Reading

/-! ### Performing a command -/

/-- **Every effect a command has.**  `state` is the state before the command
and the last index the one before it is recorded.  `balances` covers profiles,
devices and transfers, `listing` both listing and withdrawing. -/
inductive Effect (C : Codec) (config : Config) (cmd : Command) (timestamp : Int)
    (state : State Order) : Action → State Order → Prop
  | balances {action : Action} {available : String → Int} {s : State Order}
      (kind : action = .profile ∨ action = .device ∨ action = .transfer)
      (flow : Flow state s available (fun _ => 0) 0)
      (solvent : (∀ o, 0 ≤ (state.account o).available) → ∀ o, 0 ≤ (s.account o).available) :
      Effect C config cmd timestamp state action s
  | listing {action : Action} {s : State Order} {id : String} {row : Listing}
      (kind : action = .listing ∨ action = .withdraw)
      (flow : Flow state s (fun _ => 0) (fun _ => 0) 0) (own : row.owner = cmd.owner) :
      Effect C config cmd timestamp state action
        { s with listings := s.listings.set id row }
  | propose {s : State Order} {lid : String} {listing : Listing} {row : Proposal}
      (flow : Flow state s (fun _ => 0) (fun _ => 0) 0)
      (listed : state.listings.get? lid = some listing) (other : listing.owner ≠ cmd.owner)
      (parties : (row.buyer, row.provider) = (listing.owner, cmd.owner) ∨
        (row.buyer, row.provider) = (cmd.owner, listing.owner))
      (price : 0 ≤ row.price ∧ row.price ≤ MAX_MINOR) :
      Effect C config cmd timestamp state .propose
        { s with proposals := s.proposals.set cmd.id row }
  | agree {s : State Order} {available : String → Int} {pid : String}
      {proposal : Proposal} {listing : Listing} {terms : Terms}
      (found : state.proposals.get? pid = some proposal) (offered : proposal.status = .offered)
      (confirms : cmd.owner ≠ proposal.proposedBy)
      (agreed : termsFor config proposal listing = .ok terms)
      (room : ((openOrders state).length : Int) < MAX_OPEN_ORDERS)
      (flow : Flow state s available (fun o => (agreedOrder cmd.id proposal terms
        timestamp).escrow o) 0)
      (solvent : 0 ≤ proposal.price + terms.buyerDisputeReserve →
        0 ≤ terms.providerDisputeReserve → (∀ o, 0 ≤ (state.account o).available) →
          ∀ o, 0 ≤ (s.account o).available) :
      Effect C config cmd timestamp state .agree
        { s with
          proposals := s.proposals.set pid { proposal with status := .accepted },
          orders := s.orders.set cmd.id (agreedOrder cmd.id proposal terms timestamp) }
  | reward {s : State Order} {job : String} (fresh : job ∉ state.rewards.keys)
      (unrewarded : cmd.owner ∉ state.rewards.values)
      (limit : state.issued + config.workReward ≤ config.issuanceLimit)
      (flow : Flow state s (amountAt cmd.owner config.workReward) (fun _ => 0)
        config.workReward) :
      Effect C config cmd timestamp state .reward
        { s with
          issued := state.issued + config.workReward,
          rewards := state.rewards.set job cmd.owner }
  | order {s s' : State Order} {id : String} {order order' : Order} {action : OrderAction}
      (touch : Flow state s (fun _ => 0) (fun _ => 0) 0)
      (named : cmd.value.get? "order_id" = some (.str id))
      (found : state.orders.get? id = some order) (party : cmd.owner ∈ order.parties)
      (reviewed : cmd.value.get? "reviewed_order" = some (.str (orderCommitment C order)))
      (opened : ¬ order.status.Terminal) (budget : 0 < order.remainingOps)
      (done : orderAction C config cmd.network cmd.owner (cmd.value.without "reviewed_order")
        timestamp s { order with remainingOps := order.remainingOps - 1 } action =
          .ok (s', order')) :
      Effect C config cmd timestamp state (.order action)
        { s' with orders := s'.orders.set id order' }

section Performing

variable {C : Codec} {config : Config} {cmd : Command} {timestamp : Int}
  {state s s' : State Order}

theorem profile_ok (h : profile cmd s = .ok s') : Flow s s' (fun _ => 0) (fun _ => 0) 0 := by
  simp only [profile, bind_ok, require_ok, pure_ok] at h
  obtain ⟨-, -, _, -, _, -, _, -, _, -, -, -, rfl⟩ := h
  exact (flow_update s cmd.owner (v := 0) (w := 0) (by simp) (by simp) (by simp)).congr
    (fun o => by simp [amountAt]) (fun o => by simp [amountAt]) rfl

theorem device_ok (h : device cmd s = .ok s') : Flow s s' (fun _ => 0) (fun _ => 0) 0 := by
  simp only [device, bind_ok, require_ok, pure_ok] at h
  obtain ⟨-, -, _, -, _, -, _, -, -, -, rfl⟩ := h
  exact (flow_update s cmd.owner (v := 0) (w := 0) (by simp) (by simp) (by simp)).congr
    (fun o => by simp [amountAt]) (fun o => by simp [amountAt]) rfl

theorem transfer_ok (h : transfer cmd s = .ok s') :
    ∃ recipient paid, recipient ≠ cmd.owner ∧ 0 < paid ∧
      paid ≤ (s.account cmd.owner).available ∧
      Flow s s' (fun o => amountAt cmd.owner (-paid) o + amountAt recipient paid o)
        (fun _ => 0) 0 := by
  simp only [transfer, bind_ok, require_ok] at h
  obtain ⟨-, -, _, -, recipient, -, -, ⟨hne, -⟩, _, -, paid, -, -, ⟨hpos, hle⟩, hearn⟩ := h
  exact ⟨recipient, paid, hne, hpos, hle,
    ((flow_spend s cmd.owner paid).trans (flow_earn hearn)).congr (fun _ => rfl) (by simp)
      (by omega)⟩

theorem find_ok {α : Type} {rows : Dict String α} {k : Option Json} {o : Option (String × α)}
    (h : find rows k = .ok o) {id : String} {row : α} (ho : o = some (id, row)) :
    k = some (.str id) ∧ rows.get? id = some row := by
  unfold find at h
  split at h
  · next s =>
    have hmap : (rows.get? s).map (fun row => (s, row)) = some (id, row) := by
      simpa [ho] using h
    obtain ⟨a, ha, he⟩ := Option.map_eq_some_iff.mp hmap
    cases he
    exact ⟨rfl, ha⟩
  · cases h
  · cases h
  · cases h
    cases ho

theorem listing_ok (h : listing cmd timestamp s = .ok s') :
    ∃ row : Listing, row.owner = cmd.owner ∧
      s' = { s with listings := s.listings.set cmd.id row } := by
  simp only [listing, bind_ok, require_ok, pure_ok] at h
  obtain ⟨-, -, _, -, -, -, _, -, _, -, _, -, _, -, _, -, _, -, _, -, _, -, rfl⟩ := h
  exact ⟨_, rfl, rfl⟩

theorem withdraw_ok (h : withdraw cmd s = .ok s') :
    ∃ id, ∃ row : Listing, row.owner = cmd.owner ∧
      s' = { s with listings := s.listings.set id row } := by
  simp only [withdraw, bind_ok, require_ok, demand_ok, pure_ok] at h
  obtain ⟨-, -, _, -, ⟨id, row⟩, -, -, hown, -, -, rfl⟩ := h
  exact ⟨id, { row with active := false }, hown, rfl⟩

theorem propose_ok (h : propose config cmd s = .ok s') :
    ∃ lid, ∃ listing : Listing, ∃ row : Proposal, s.listings.get? lid = some listing ∧
      listing.owner ≠ cmd.owner ∧
      ((row.buyer, row.provider) = (listing.owner, cmd.owner) ∨
        (row.buyer, row.provider) = (cmd.owner, listing.owner)) ∧
      (0 ≤ row.price ∧ row.price ≤ MAX_MINOR) ∧
      s' = { s with proposals := s.proposals.set cmd.id row } := by
  simp only [propose, bind_ok, require_ok, demand_ok, need_ok, pure_ok, integer_ok] at h
  obtain ⟨-, -, _, hfind, ⟨lid, listing⟩, hsome, -, -, -, ⟨-, hother⟩, _, -, _, -, _, -, _, -, _,
    ⟨-, hprice⟩, rfl⟩ := h
  refine ⟨lid, listing, _, (find_ok hfind hsome).2, hother, ?_, hprice, rfl⟩
  by_cases hkind : listing.kind = .request <;> simp [hkind]

theorem agree_ok (h : agree C config cmd timestamp s = .ok s') :
    ∃ pid proposal listing terms s1 s2, s.proposals.get? pid = some proposal ∧
      proposal.status = .offered ∧ cmd.owner ≠ proposal.proposedBy ∧
      termsFor config proposal listing = .ok terms ∧
      ((openOrders s).length : Int) < MAX_OPEN_ORDERS ∧
      hold s proposal.buyer (proposal.price + terms.buyerDisputeReserve) = .ok s1 ∧
      hold s1 proposal.provider terms.providerDisputeReserve = .ok s2 ∧
      s' = { s2 with
        proposals := s2.proposals.set pid { proposal with status := .accepted },
        orders := s2.orders.set cmd.id (agreedOrder cmd.id proposal terms timestamp) } := by
  simp only [agree, bind_ok, require_ok, demand_ok, need_ok, pure_ok] at h
  obtain ⟨-, -, _, hfind, ⟨pid, proposal⟩, hsome, -, hoffered, -, ⟨-, hconfirms⟩, listing, -, -, -,
    -, -, terms, hterms, -, -, -, hroom, s1, h1, s2, h2, rfl⟩ := h
  exact ⟨pid, proposal, listing, terms, s1, s2, (find_ok hfind hsome).2, hoffered, hconfirms,
    hterms, hroom, h1, h2, rfl⟩

theorem reward_ok (h : reward C VERSION config cmd s = .ok s') :
    ∃ job s1, job ∉ s.rewards.keys ∧ cmd.owner ∉ s.rewards.values ∧
      s.issued + config.workReward ≤ config.issuanceLimit ∧
      earn s cmd.owner config.workReward = .ok s1 ∧
      s' = { s1 with
        issued := s1.issued + config.workReward, rewards := s1.rewards.set job cmd.owner } := by
  simp only [reward, bind_ok, require_ok, pure_ok] at h
  obtain ⟨-, -, _, -, job, -, -, hfresh, -, hunrewarded, _, -, -, -, _, -, -, -, -, hlimit, s1,
    hearn,
    rfl⟩ := h
  exact ⟨job, s1, hfresh, hunrewarded, hlimit, hearn, rfl⟩

theorem orderCommand_ok {action : Option OrderAction}
    (h : orderCommand C config cmd action timestamp s = .ok s') :
    ∃ a id order s1 order', action = some a ∧
      cmd.value.get? "order_id" = some (.str id) ∧ s.orders.get? id = some order ∧
      cmd.owner ∈ order.parties ∧
      cmd.value.get? "reviewed_order" = some (.str (orderCommitment C order)) ∧
      ¬ order.status.Terminal ∧ 0 < order.remainingOps ∧
      orderAction C config cmd.network cmd.owner (cmd.value.without "reviewed_order") timestamp s
        { order with remainingOps := order.remainingOps - 1 } a = .ok (s1, order') ∧
      s' = { s1 with orders := s1.orders.set id order' } := by
  simp only [orderCommand, openOrder, bind_ok, require_ok, demand_ok, pure_ok] at h
  obtain ⟨_, ⟨_, hfind, ⟨id, order⟩, hsome, -, hparty, -, hreviewed, -, hopen, rfl⟩, a, ha, -,
    hbudget, ⟨s1, order'⟩, hdone, rfl⟩ := h
  obtain ⟨hnamed, hfound⟩ := find_ok hfind hsome
  exact ⟨a, id, order, s1, order', ha, hnamed, hfound, hparty, hreviewed, hopen, hbudget, hdone,
    rfl⟩

theorem perform_effect {action : Action} (flow : Flow state s (fun _ => 0) (fun _ => 0) 0)
    (h : perform C config cmd timestamp s action = .ok s') :
    Effect C config cmd timestamp state action s' := by
  have havailable : ∀ o, (s.account o).available = (state.account o).available := fun o => by
    rw [flow.available_eq, add_zero]
  cases action with
  | profile =>
    refine .balances (by simp) (flow.trans (profile_ok h)) fun hs o => ?_
    rw [(flow.trans (profile_ok h)).available_eq]
    simpa using hs o
  | device =>
    refine .balances (by simp) (flow.trans (device_ok h)) fun hs o => ?_
    rw [(flow.trans (device_ok h)).available_eq]
    simpa using hs o
  | transfer =>
    obtain ⟨recipient, paid, hne, hpos, hle, hflow⟩ := transfer_ok h
    refine .balances (by simp) (flow.trans hflow) fun hs o => ?_
    rw [hflow.available_eq, havailable]
    have := hs o
    rw [havailable] at hle
    by_cases ho : o = cmd.owner
    · subst ho
      rw [amountAt_self, amountAt_ne _ hne.symm]
      omega
    · rw [amountAt_ne _ ho]
      unfold amountAt
      split <;> omega
  | listing =>
    obtain ⟨row, hown, rfl⟩ := listing_ok h
    exact .listing (by simp) flow hown
  | withdraw =>
    obtain ⟨id, row, hown, rfl⟩ := withdraw_ok h
    exact .listing (by simp) flow hown
  | propose =>
    obtain ⟨lid, listing, row, hlisted, hother, hparties, hprice, rfl⟩ := propose_ok h
    exact .propose flow (flow.listings_eq ▸ hlisted) hother hparties hprice
  | agree =>
    obtain ⟨pid, proposal, listing, terms, s1, s2, hfound, hoffered, hconfirms, hterms, hroom, h1,
      h2, rfl⟩ := agree_ok h
    have hflow := flow.trans ((flow_hold h1).trans (flow_hold h2))
    refine .agree (flow.proposals_eq ▸ hfound) hoffered hconfirms hterms ?_
      (hflow.congr (fun _ => rfl) (fun o => ?_) (by omega)) fun hbuyer hprovider hs o => ?_
    · simpa [openOrders, flow.orders_eq] using hroom
    · simp [Order.escrow, agreedOrder]
    · have hle1 := (hold_ok.mp h1).1
      have hle2 := (hold_ok.mp h2).1
      rw [(flow_hold h1).available_eq, havailable] at hle2
      rw [hflow.available_eq]
      by_cases hb : o = proposal.buyer <;> by_cases hp : o = proposal.provider <;>
        simp_all [amountAt] <;> omega
  | reward =>
    obtain ⟨job, s1, hfresh, hunrewarded, hlimit, hearn, rfl⟩ := reward_ok h
    have hflow := flow.trans (flow_earn hearn)
    rw [(flow_earn hearn).issued_eq, (flow_earn hearn).rewards_eq, flow.issued_eq,
      flow.rewards_eq]
    rw [flow.rewards_eq] at hfresh hunrewarded
    rw [flow.issued_eq] at hlimit
    exact .reward hfresh hunrewarded hlimit
      (hflow.congr (fun _ => by simp) (fun _ => by simp) (by simp))
  | order action =>
    obtain ⟨a, id, order, s1, order', ha, hnamed, hfound, hparty, hreviewed, hopen, hbudget,
      hdone, rfl⟩ := orderCommand_ok h
    cases ha
    exact .order flow hnamed (flow.orders_eq ▸ hfound) hparty hreviewed hopen hbudget hdone
  | unknown =>
    obtain ⟨a, id, order, s1, order', ha, -⟩ := orderCommand_ok h
    cases ha

theorem admission_ok {action : Action} (h : admission cmd s action = .ok s') :
    Flow s s' (fun _ => 0) (fun _ => 0) 0 := by
  cases action with
  | order _ =>
    obtain rfl : s = s' := by simpa [admission] using h
    exact Flow.refl s
  | _ =>
    simp only [admission, bind_ok, require_ok, pure_ok] at h
    obtain ⟨-, -, -, -, rfl⟩ := h
    exact (flow_update s cmd.owner (v := 0) (w := 0) (by simp) (by simp) (by simp)).congr
      (fun o => by simp [amountAt]) (fun o => by simp [amountAt]) rfl

/-- What an accepted command was: read, named, performed and recorded. -/
structure Applied (C : Codec) (state : State Order) (commandWire : Json) (config : Config)
    (timestamp : Int) (state' : State Order) (cmd : Command) (payload : Json) (action : Action)
    (performed : State Order) : Prop where
  read : CommandRead C state commandWire config timestamp cmd payload
  named : readAction cmd.action = .ok action
  effect : Effect C config cmd timestamp state action performed
  result : state' = recorded C commandWire cmd timestamp performed
  supply : state'.coins = state'.issued
  balance : ∀ a ∈ state'.accounts.values, 0 ≤ a.available ∧ 0 ≤ a.held

/-- **Inversion of `apply`.** -/
theorem apply_ok {commandWire : Json} {state' : State Order}
    (h : apply C state commandWire config timestamp = .ok state') :
    ∃ cmd payload action performed,
      Applied C state commandWire config timestamp state' cmd payload action performed := by
  simp only [apply, bind_ok] at h
  obtain ⟨cmd, hread, action, haction, admitted, hadm, performed, hperform, hfinish⟩ := h
  obtain ⟨payload, hread⟩ := readCommand_ok hread
  obtain ⟨hresult, hsupply, hbalance⟩ := finish_ok.mp hfinish
  have hflow := (flow_touch state cmd.owner).trans (admission_ok hadm)
  exact ⟨cmd, payload, action, performed, hread, haction, perform_effect hflow hperform, hresult,
    hsupply, hbalance⟩

end Performing

end Exchange
