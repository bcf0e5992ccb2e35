import Mathlib.Logic.Relation
import Rynmesh.ExchangeLifecycle

/-!
# The invariants of the exchange state

* `Books` is the invariant of every reachable state: each order record is
  sound, the held balance of an account is the escrow of its open orders, and
  the coins are the issued work rewards;
* `Effect.books` is the step lemma, one case for each effect of a command;
* `reachable_books` and `Later.order` carry it along runs, the second one
  together with the fact that an order only turns into later records.
-/

namespace Exchange

open Checked

variable {C : Codec} {config : Config}

/-- **The books of the exchange.**  `known` are the operation ids on record. -/
structure Books (config : Config) (known : String → Prop) (state : State Order) : Prop where
  listings : ∀ id row, state.listings.get? id = some row → IsKey row.owner
  proposals : ∀ id row, state.proposals.get? id = some row →
    row.buyer ≠ row.provider ∧ (IsKey row.buyer ∧ IsKey row.provider) ∧
      0 ≤ row.price ∧ row.price ≤ MAX_MINOR
  known : ∀ id ∈ state.orders.keys, known id
  orders : ∀ id order, state.orders.get? id = some order → order.Sound id ∧ order.Budgeted
  held : ∀ o, (state.account o).held = state.orders.sumBy fun order => order.escrow o
  solvent : ∀ o, 0 ≤ (state.account o).available
  coins : state.coins = state.issued
  issued : state.issued = config.workReward * state.rewards.entries.length
  limit : state.issued ≤ config.issuanceLimit
  once : state.rewards.values.Nodup

/-- The books are in order, and every order was put on record. -/
def Invariant (config : Config) (state : State Order) : Prop :=
  Books config (fun id => id ∈ state.operations.keys) state

theorem invariant_initialState : Invariant config (initialState config) := by
  constructor
  case limit =>
    have := config.reward_bounded
    show (0 : Int) ≤ config.issuanceLimit
    omega
  all_goals simp [initialState, Dict.keys, Dict.empty, Dict.get?, Dict.lookup, State.account,
    Account.initial, Dict.sumBy, State.coins, Dict.values]

section Escrow

variable {known : String → Prop} {state s : State Order} {id : String} {order : Order}

theorem Order.Sound.escrow_nonneg (h : order.Sound id) (o : String) : 0 ≤ order.escrow o := by
  have hreserves := h.reserves_nonneg
  have hprice := h.price.1
  unfold Order.escrow amountAt
  split
  · exact le_refl 0
  · split <;> split <;> omega

namespace Books

theorem held_nonneg (h : Books config known state) (o : String) :
    0 ≤ (state.account o).held := by
  rw [h.held]
  exact Dict.sumBy_nonneg fun id order hget => (h.orders id order hget).1.escrow_nonneg o

theorem escrow_le_held (h : Books config known state) (hget : state.orders.get? id = some order)
    (o : String) : order.escrow o ≤ (state.account o).held := by
  rw [h.held]
  exact Dict.le_sumBy (fun id order hget => (h.orders id order hget).1.escrow_nonneg o) hget

theorem balances_bounded (h : Books config known state) (o : String) :
    (state.account o).available + (state.account o).held ≤ 10 ^ 12 := by
  have hlimit := config.issuance_bounded
  have hissued := h.limit
  have hunits : UNITS = 1000000 := rfl
  have hle := total_le_coins (fun o => ⟨h.solvent o, h.held_nonneg o⟩) o
  rw [h.coins] at hle
  unfold Account.total at hle
  omega

theorem flow {available : String → Int} (h : Books config known state)
    (hflow : Flow state s available (fun _ => 0) 0) (hsolvent : ∀ o, 0 ≤ (s.account o).available) :
    Books config known s where
  listings := hflow.listings_eq ▸ h.listings
  proposals := hflow.proposals_eq ▸ h.proposals
  known := hflow.orders_eq ▸ h.known
  orders := hflow.orders_eq ▸ h.orders
  held o := by rw [hflow.held_eq, hflow.orders_eq, add_zero, h.held]
  solvent := hsolvent
  coins := by rw [hflow.coins_eq, hflow.issued_eq, add_zero, h.coins]
  issued := by rw [hflow.issued_eq, hflow.rewards_eq, h.issued]
  limit := by rw [hflow.issued_eq]; exact h.limit
  once := hflow.rewards_eq ▸ h.once

/-- Nothing moved. -/
theorem touch (h : Books config known state)
    (hflow : Flow state s (fun _ => 0) (fun _ => 0) 0) : Books config known s :=
  h.flow hflow fun o => by rw [hflow.available_eq, add_zero]; exact h.solvent o

theorem mono {known' : String → Prop} (h : Books config known state)
    (hknown : ∀ id, known id → known' id) : Books config known' state :=
  { h with known := fun id hid => hknown id (h.known id hid) }

end Books

end Escrow

/-! ### One command -/

section Step

variable {state s : State Order} {cmd : Command} {timestamp : Int} {action : Action}

theorem agreedOrder_sound (timestamp : Int) {proposal : Proposal} {listing : Listing}
    {terms : Terms}
    {id : String} (hid : IsIdentifier id) (hne : proposal.buyer ≠ proposal.provider)
    (hkeys : IsKey proposal.buyer ∧ IsKey proposal.provider)
    (hprice : 0 ≤ proposal.price ∧ proposal.price ≤ MAX_MINOR)
    (hterms : termsFor config proposal listing = .ok terms) :
    (agreedOrder id proposal terms timestamp).Sound id ∧
      (agreedOrder id proposal terms timestamp).Budgeted := by
  simp only [termsFor, bind_ok, pure_ok] at hterms
  obtain ⟨selected, hselected, rfl⟩ := hterms
  refine ⟨{
    id_eq := rfl, identifier := hid, distinct := hne, keys := hkeys, price := hprice
    seated := seats_ok hselected
    timeoutShare := ⟨by norm_num [agreedOrder], by norm_num [agreedOrder]⟩
    phase := .working rfl rfl
    buyerReserve := by rw [fees_eq]; rfl
    providerReserve := by rw [fees_eq]; rfl
    refunds := by simp [agreedOrder]
    pending := fun _ => by simp [agreedOrder]
    waivers := by simp [agreedOrder]
    evidence := by simp [agreedOrder, Dict.keys, Dict.empty]
    share := fun s hs => by simp [agreedOrder] at hs
    revisions := by simp [agreedOrder] }, fun _ => ?_⟩
  simp [agreedOrder, Order.spent, Order.roundOps]

theorem Books.orderAction_flow {known : String → Prop} {s s' : State Order} {id : String}
    {order order' : Order} {network owner : String} {value : Json} {action : OrderAction}
    (h : Books config known state) (hfound : state.orders.get? id = some order)
    (hopen : ¬ order.status.Terminal)
    (hdone : orderAction C config network owner value timestamp s
      { order with remainingOps := order.remainingOps - 1 } action = .ok (s', order')) :
    ∃ available, (∀ o, 0 ≤ available o) ∧
      Flow s s' available (fun o => order'.escrow o - order.escrow o) 0 := by
  have hcharged := (h.orders id order hfound).1.charged (order.remainingOps - 1)
  exact (Exchange.orderAction_flow (by exact hopen) hcharged.reserves_nonneg
    hcharged.seated.fees hdone).flow

/-- **The step lemma.**  Every effect of a command keeps the books. -/
theorem Effect.books (h : Invariant config state) (hid : IsIdentifier cmd.id)
    (howner : IsKey cmd.owner) (hfresh : cmd.id ∉ state.operations.keys)
    (heffect : Effect C config cmd timestamp state action s) :
    Books config (fun id => id = cmd.id ∨ id ∈ state.operations.keys) s := by
  have h : Books config (fun id => id = cmd.id ∨ id ∈ state.operations.keys) state :=
    Books.mono h fun _ => .inr
  have hnew : cmd.id ∉ state.orders.keys := fun hmem =>
    hfresh (‹Invariant config state›.known _ hmem)
  cases heffect with
  | balances kind flow solvent => exact h.flow flow (solvent h.solvent)
  | @listing _ s id row kind flow own =>
    refine { h.touch flow with listings := fun id' row' hget => ?_ }
    simp only [flow.listings_eq, Dict.get?_set] at hget
    split at hget
    · cases hget
      exact own ▸ howner
    · exact h.listings id' row' hget
  | @propose s lid listing row flow listed other parties price =>
    refine { h.touch flow with proposals := fun id' row' hget => ?_ }
    simp only [flow.proposals_eq, Dict.get?_set] at hget
    split at hget
    · cases hget
      have hlister := h.listings _ _ listed
      rcases parties with hp | hp
      · obtain ⟨hb, hp⟩ := Prod.mk.inj hp
        exact ⟨by rwa [hb, hp], ⟨hb ▸ hlister, hp ▸ howner⟩, price⟩
      · obtain ⟨hb, hp⟩ := Prod.mk.inj hp
        exact ⟨by rw [hb, hp]; exact other.symm, ⟨hb ▸ howner, hp ▸ hlister⟩, price⟩
    · exact h.proposals id' row' hget
  | @agree s available pid proposal listing terms found offered confirms agreed room flow solvent =>
    obtain ⟨hne, hkeys, hprice⟩ := h.proposals _ _ found
    obtain ⟨hsound, hbudget⟩ := agreedOrder_sound timestamp hid hne hkeys hprice agreed
    have hreserves := hsound.reserves_nonneg
    have hsolvent := solvent (by
      have : 0 ≤ terms.buyerDisputeReserve := hreserves.1
      omega) hreserves.2 h.solvent
    exact {
      listings := flow.listings_eq ▸ h.listings
      proposals := fun id' row' hget => by
        simp only [flow.proposals_eq, Dict.get?_set] at hget
        split at hget
        · cases hget
          exact ⟨hne, hkeys, hprice⟩
        · exact h.proposals id' row' hget
      known := fun id' hmem => by
        rcases Dict.mem_keys_set.mp hmem with rfl | hmem
        · exact .inl rfl
        · exact h.known id' (flow.orders_eq ▸ hmem)
      orders := fun id' order' hget => by
        simp only [flow.orders_eq, Dict.get?_set] at hget
        split at hget
        · next heq =>
          subst heq
          cases hget
          exact ⟨hsound, hbudget⟩
        · exact h.orders id' order' hget
      held := fun o => by
        show (s.account o).held = (s.orders.set _ _).sumBy _
        rw [flow.held_eq, flow.orders_eq, Dict.sumBy_set_of_new _ _ hnew, h.held]
      solvent := hsolvent
      coins := by
        show s.coins = s.issued
        rw [flow.coins_eq, flow.issued_eq, add_zero, h.coins]
      issued := by
        show s.issued = _ * (s.rewards.entries.length : Int)
        rw [flow.issued_eq, flow.rewards_eq, h.issued]
      limit := by
        show s.issued ≤ _
        rw [flow.issued_eq]
        exact h.limit
      once := flow.rewards_eq ▸ h.once }
  | @reward s job fresh unrewarded limit flow =>
    have hentries := Dict.entries_set_of_new cmd.owner fresh
    exact {
      listings := flow.listings_eq ▸ h.listings
      proposals := flow.proposals_eq ▸ h.proposals
      known := flow.orders_eq ▸ h.known
      orders := flow.orders_eq ▸ h.orders
      held := fun o => by
        show (s.account o).held = s.orders.sumBy _
        rw [flow.held_eq, flow.orders_eq, add_zero, h.held]
      solvent := fun o => by
        show 0 ≤ (s.account o).available
        rw [flow.available_eq]
        have := h.solvent o
        have := config.reward_bounded.1
        unfold amountAt
        split <;> omega
      coins := by
        show s.coins = state.issued + config.workReward
        rw [flow.coins_eq, h.coins]
      issued := by
        show state.issued + config.workReward =
          config.workReward * ((state.rewards.set job cmd.owner).entries.length : Int)
        rw [hentries, h.issued, List.length_append]
        simp [mul_add]
      limit := limit
      once := by
        show ((state.rewards.set job cmd.owner).entries.map Prod.snd).Nodup
        rw [hentries, List.map_append, List.nodup_append]
        refine ⟨h.once, by simp, ?_⟩
        intro a ha b hb hab
        simp only [List.map_cons, List.map_nil, List.mem_singleton] at hb
        exact unrewarded (hb ▸ hab ▸ ha) }
  | @order s s' id order order' action touch named found party reviewed opened budget done =>
    obtain ⟨hsound, hbudgeted⟩ := h.orders id order found
    have hstep := orderAction_step done
    obtain ⟨available, hnonneg, hflow⟩ := h.orderAction_flow found opened done
    have flow := touch.trans hflow
    have horders : s'.orders = state.orders := flow.orders_eq
    exact {
      listings := flow.listings_eq ▸ h.listings
      proposals := flow.proposals_eq ▸ h.proposals
      known := fun id' hmem => by
        rcases Dict.mem_keys_set.mp hmem with rfl | hmem
        · exact h.known _ (Dict.mem_keys_of_get? found)
        · exact h.known id' (horders ▸ hmem)
      orders := fun id' order'' hget => by
        simp only [horders, Dict.get?_set] at hget
        split at hget
        · next heq =>
          subst heq
          cases hget
          exact ⟨(hstep.sound (hsound.charged (order.remainingOps - 1)) party opened),
            hstep.budgeted hsound hbudgeted opened⟩
        · exact h.orders id' order'' hget
      held := fun o => by
        show (s'.account o).held = (s'.orders.set id order').sumBy _
        rw [flow.held_eq, horders, Dict.sumBy_set_int, h.held, found]
        show _ + (0 + (order'.escrow o - order.escrow o)) = _
        simp only [Option.map_some, Option.getD_some]
        omega
      solvent := fun o => by
        show 0 ≤ (s'.account o).available
        rw [flow.available_eq]
        have := h.solvent o
        have := hnonneg o
        omega
      coins := by
        show s'.coins = s'.issued
        rw [flow.coins_eq, flow.issued_eq, h.coins]
        omega
      issued := by
        show s'.issued = _ * (s'.rewards.entries.length : Int)
        rw [flow.issued_eq, flow.rewards_eq, h.issued]
      limit := by
        show s'.issued ≤ _
        rw [flow.issued_eq]
        exact h.limit
      once := flow.rewards_eq ▸ h.once }

theorem Books.recorded {known : String → Prop} (h : Books config known s) (C : Codec)
    (wire : Json) (cmd : Command) (timestamp : Int) :
    Books config known (recorded C wire cmd timestamp s) where
  listings := h.listings
  proposals := h.proposals
  known := h.known
  orders := h.orders
  held o := by rw [(recorded_balances C s wire timestamp cmd o).2]; exact h.held o
  solvent o := by rw [(recorded_balances C s wire timestamp cmd o).1]; exact h.solvent o
  coins := by rw [recorded_coins]; exact h.coins
  issued := h.issued
  limit := h.limit
  once := h.once

/-- Performing a command leaves the record of commands alone. -/
theorem Effect.frame (h : Invariant config state)
    (heffect : Effect C config cmd timestamp state action s) :
    s.operations = state.operations ∧ s.time = state.time ∧
      ∀ o, (s.account o).nonce = (state.account o).nonce := by
  cases heffect with
  | balances kind flow => exact ⟨flow.operations_eq, flow.time_eq, flow.nonce_eq⟩
  | listing kind flow | propose flow | agree found offered confirms agreed room flow =>
    exact ⟨flow.operations_eq, flow.time_eq, flow.nonce_eq⟩
  | reward fresh unrewarded limit flow =>
    exact ⟨flow.operations_eq, flow.time_eq, flow.nonce_eq⟩
  | order touch named found party reviewed opened budget done =>
    obtain ⟨available, -, hflow⟩ := Books.orderAction_flow h found opened done
    have flow := touch.trans hflow
    exact ⟨flow.operations_eq, flow.time_eq, flow.nonce_eq⟩

/-- Performing a command takes each order on record to a later record. -/
theorem Effect.orders (h : Invariant config state) (hfresh : cmd.id ∉ state.operations.keys)
    (heffect : Effect C config cmd timestamp state action s) {id : String} {order : Order}
    (hget : state.orders.get? id = some order) :
    ∃ order', s.orders.get? id = some order' ∧ Evolves order order' := by
  have hsame : ∀ {t : State Order}, t.orders = state.orders →
      ∃ order', t.orders.get? id = some order' ∧ Evolves order order' := fun ht =>
    ⟨order, by rw [ht, hget], Evolves.refl order⟩
  cases heffect with
  | balances kind flow | listing kind flow | propose flow => exact hsame flow.orders_eq
  | agree found offered confirms agreed room flow =>
    have hne : id ≠ cmd.id := fun he =>
      hfresh (h.known _ (he ▸ Dict.mem_keys_of_get? hget))
    exact ⟨order, by simp [hne, flow.orders_eq, hget], Evolves.refl order⟩
  | reward fresh unrewarded limit flow => exact hsame flow.orders_eq
  | @order _ s' id' current order' action touch named found party reviewed opened budget done =>
    obtain ⟨available, -, hflow⟩ := Books.orderAction_flow h found opened done
    have horders : s'.orders = state.orders := (touch.trans hflow).orders_eq
    by_cases hid : id = id'
    · subst hid
      obtain rfl : current = order := Option.mem_unique found hget
      exact ⟨order', by simp,
        (orderAction_step done).evolves (h.orders id current found).1 opened budget⟩
    · exact ⟨order, by simp [hid, horders, hget], Evolves.refl order⟩

end Step

end Exchange
