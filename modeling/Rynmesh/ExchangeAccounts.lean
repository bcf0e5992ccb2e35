import Rynmesh.ExchangeRules

/-!
# Accounts of an exchange state

The state record, generic in the order record `ω`, and the four operations
that move coins: `hold`, `unhold`, `earn` and a direct change of a balance.

Each operation is described by what it does to the account it names
(`account_update`, `unhold_ok`, `earn_ok`, ..) and to the two totals the
accounting is about: `coins`, the sum of all balances, and the balances of the
other accounts, which stay.
-/

namespace Exchange

open Checked

structure Account where
  available : Int
  held : Int
  earned : Int
  encryptionKey : String
  label : String
  devices : List String
  nonce : Int
  admissions : Int
deriving DecidableEq

/-- The account `setdefault` creates. -/
def Account.initial : Account :=
  { available := 0, held := 0, earned := 0, encryptionKey := "", label := "", devices := [],
    nonce := 0, admissions := 0 }

/-- The two balances of an account together. -/
def Account.total (a : Account) : Int := a.available + a.held

inductive ListingKind
  | offer
  | request
deriving DecidableEq

structure Listing where
  id : String
  owner : String
  kind : ListingKind
  category : String
  title : String
  description : String
  price : Int
  active : Bool
  createdAt : Int
deriving DecidableEq

inductive ProposalStatus
  | offered
  | accepted
deriving DecidableEq

structure Proposal where
  id : String
  listingId : String
  buyer : String
  provider : String
  proposedBy : String
  scope : String
  price : Int
  status : ProposalStatus
deriving DecidableEq

/-- The exchange state.  Both protocol versions keep these tables; `ω` is the
version's order record. -/
structure State (ω : Type) where
  accounts : Dict String Account
  listings : Dict String Listing
  proposals : Dict String Proposal
  orders : Dict String ω
  issued : Int
  rewards : Dict String String
  operations : Dict String String
  time : Int
  covenant : Json

variable {ω : Type}

def initialState (config : Config) : State ω :=
  { accounts := .empty, listings := .empty, proposals := .empty, orders := .empty, issued := 0,
    rewards := .empty, operations := .empty, time := 0, covenant := config.covenant }

namespace State

/-- The account of an owner, the initial one when there is none yet. -/
def account (state : State ω) (owner : String) : Account :=
  (state.accounts.get? owner).getD .initial

/-- Change the account of an owner, creating it when there is none yet. -/
def update (state : State ω) (owner : String) (f : Account → Account) : State ω :=
  { state with accounts := state.accounts.set owner (f (state.account owner)) }

/-- `account(state, owner)`: create the account when there is none yet. -/
def touch (state : State ω) (owner : String) : State ω :=
  state.update owner fun row => row

/-- The sum of all balances. -/
def coins (state : State ω) : Int := state.accounts.sumBy Account.total

variable (state : State ω) (owner other : String) (f : Account → Account)

theorem account_update : (state.update owner f).account other =
    if other = owner then f (state.account owner) else state.account other := by
  by_cases h : other = owner <;> simp [account, update, h]

@[simp] theorem account_update_self :
    (state.update owner f).account owner = f (state.account owner) := by
  simp [account_update]

@[simp] theorem account_update_ne (h : other ≠ owner) :
    (state.update owner f).account other = state.account other := by
  simp [account_update, h]

theorem coins_update : (state.update owner f).coins =
    state.coins - (state.account owner).total + (f (state.account owner)).total := by
  unfold coins update account
  rw [Dict.sumBy_set_int]
  cases state.accounts.get? owner <;> simp [Account.total, Account.initial]

end State

def hold (state : State ω) (owner : String) (value : Int) : Except Failure (State ω) := do
  require (value ≤ (state.account owner).available) "exchange_insufficient_balance"
  pure (state.update owner fun row =>
    { row with available := row.available - value, held := row.held + value })

def unhold (state : State ω) (owner : String) (value : Int) : Except Failure (State ω) := do
  guarded .unhold (value ≤ (state.account owner).held) "exchange_balance_invariant"
  pure (state.update owner fun row =>
    { row with held := row.held - value, available := row.available + value })

def earn (state : State ω) (owner : String) (value : Int) : Except Failure (State ω) := do
  guarded .earn ((state.account owner).available + value ≤ MAX_MINOR) "exchange_capacity"
  pure (state.update owner fun row =>
    { row with available := row.available + value, earned := row.earned + value })

variable {state result : State ω} {owner : String} {value : Int}

theorem hold_ok : hold state owner value = .ok result ↔ value ≤ (state.account owner).available ∧
      result = state.update owner fun row =>
        { row with available := row.available - value, held := row.held + value } := by
  rw [eq_comm (a := result)]
  simp [hold]

theorem unhold_ok : unhold state owner value = .ok result ↔ value ≤ (state.account owner).held ∧
      result = state.update owner fun row =>
        { row with held := row.held - value, available := row.available + value } := by
  rw [eq_comm (a := result)]
  simp [unhold]

theorem earn_ok : earn state owner value = .ok result ↔
    (state.account owner).available + value ≤ MAX_MINOR ∧ result = state.update owner fun row =>
        { row with available := row.available + value, earned := row.earned + value } := by
  rw [eq_comm (a := result)]
  simp [earn]

theorem unhold_of (h : value ≤ (state.account owner).held) :
    ∃ result, unhold state owner value = .ok result :=
  ⟨_, unhold_ok.mpr ⟨h, rfl⟩⟩

theorem earn_of (h : (state.account owner).available + value ≤ MAX_MINOR) :
    ∃ result, earn state owner value = .ok result :=
  ⟨_, earn_ok.mpr ⟨h, rfl⟩⟩

/-! ### Flows

A `Flow` says what a sequence of account operations amounts to: by how much
the balances of each account moved, and the sum of all balances.  Flows
compose by adding, so an action's accounting is read off its operations. -/

/-- An amount at one owner and nothing at the others. -/
def amountAt (owner : String) (value : Int) (other : String) : Int :=
  if other = owner then value else 0

@[simp] theorem amountAt_self (owner : String) (value : Int) :
    amountAt owner value owner = value := by
  simp [amountAt]

@[simp] theorem amountAt_ne {owner other : String} (value : Int) (h : other ≠ owner) :
    amountAt owner value other = 0 := by
  simp [amountAt, h]

/-- Balances moved, while the nonces and all tables but the accounts stay. -/
structure Flow (a b : State ω) (available held : String → Int) (total : Int) : Prop where
  available_eq : ∀ o, (b.account o).available = (a.account o).available + available o
  held_eq : ∀ o, (b.account o).held = (a.account o).held + held o
  coins_eq : b.coins = a.coins + total
  nonce_eq : ∀ o, (b.account o).nonce = (a.account o).nonce
  tables_eq : b = { a with accounts := b.accounts }

namespace Flow

variable {a b c : State ω} {available available' held held' : String → Int} {total total' : Int}

theorem refl (a : State ω) : Flow a a (fun _ => 0) (fun _ => 0) 0 := by
  constructor <;> simp

theorem trans (hab : Flow a b available held total) (hbc : Flow b c available' held' total') :
    Flow a c (fun o => available o + available' o) (fun o => held o + held' o)
      (total + total') where
  available_eq o := by rw [hbc.available_eq, hab.available_eq, add_assoc]
  held_eq o := by rw [hbc.held_eq, hab.held_eq, add_assoc]
  coins_eq := by rw [hbc.coins_eq, hab.coins_eq, add_assoc]
  nonce_eq o := (hbc.nonce_eq o).trans (hab.nonce_eq o)
  tables_eq := by rw [hbc.tables_eq, hab.tables_eq]

theorem congr (h : Flow a b available held total) (ha : ∀ o, available' o = available o)
    (hh : ∀ o, held' o = held o) (ht : total' = total) : Flow a b available' held' total' := by
  obtain rfl : available' = available := funext ha
  obtain rfl : held' = held := funext hh
  exact ht ▸ h

theorem orders_eq (h : Flow a b available held total) : b.orders = a.orders := by
  rw [h.tables_eq]

theorem listings_eq (h : Flow a b available held total) : b.listings = a.listings := by
  rw [h.tables_eq]

theorem proposals_eq (h : Flow a b available held total) : b.proposals = a.proposals := by
  rw [h.tables_eq]

theorem issued_eq (h : Flow a b available held total) : b.issued = a.issued := by
  rw [h.tables_eq]

theorem rewards_eq (h : Flow a b available held total) : b.rewards = a.rewards := by
  rw [h.tables_eq]

theorem operations_eq (h : Flow a b available held total) : b.operations = a.operations := by
  rw [h.tables_eq]

theorem time_eq (h : Flow a b available held total) : b.time = a.time := by
  rw [h.tables_eq]

end Flow

theorem flow_update (state : State ω) (owner : String) {f : Account → Account} {v w : Int}
    (havailable : ∀ row, (f row).available = row.available + v)
    (hheld : ∀ row, (f row).held = row.held + w)
    (hnonce : ∀ row, (f row).nonce = row.nonce) :
    Flow state (state.update owner f) (amountAt owner v) (amountAt owner w) (v + w) := by
  constructor
  case coins_eq =>
    rw [State.coins_update]
    simp only [Account.total, havailable, hheld]
    omega
  case tables_eq => rfl
  all_goals
    intro o
    by_cases h : o = owner
    · subst h
      simp [havailable, hheld, hnonce]
    · simp [h]

/-- Creating an account moves nothing. -/
theorem flow_touch (state : State ω) (owner : String) :
    Flow state (state.touch owner) (fun _ => 0) (fun _ => 0) 0 :=
  (flow_update state owner (v := 0) (w := 0) (by simp) (by simp) (by simp)).congr
    (fun o => by simp [amountAt]) (fun o => by simp [amountAt]) rfl

/-- A payment out of one account, without a check. -/
theorem flow_spend (state : State ω) (owner : String) (value : Int) :
    Flow state (state.update owner fun row => { row with available := row.available - value })
      (amountAt owner (-value)) (fun _ => 0) (-value) :=
  (flow_update state owner (v := -value) (w := 0) (fun _ => Int.sub_eq_add_neg) (by simp)
    (by simp)).congr (fun _ => rfl) (fun o => by simp [amountAt]) (by simp)

theorem flow_hold (h : hold state owner value = .ok result) :
    Flow state result (amountAt owner (-value)) (amountAt owner value) 0 := by
  obtain ⟨-, rfl⟩ := hold_ok.mp h
  exact (flow_update state owner (v := -value) (w := value) (fun _ => Int.sub_eq_add_neg)
    (by simp) (by simp)).congr (fun _ => rfl) (fun _ => rfl) (by omega)

theorem flow_unhold (h : unhold state owner value = .ok result) :
    Flow state result (amountAt owner value) (amountAt owner (-value)) 0 := by
  obtain ⟨-, rfl⟩ := unhold_ok.mp h
  exact (flow_update state owner (v := value) (w := -value) (by simp)
    (fun _ => Int.sub_eq_add_neg) (by simp)).congr (fun _ => rfl) (fun _ => rfl) (by omega)

theorem flow_earn (h : earn state owner value = .ok result) :
    Flow state result (amountAt owner value) (fun _ => 0) value := by
  obtain ⟨-, rfl⟩ := earn_ok.mp h
  exact (flow_update state owner (v := value) (w := 0) (by simp) (by simp)
    (by simp)).congr (fun _ => rfl) (fun o => by simp [amountAt]) (by simp)

theorem total_le_coins {state : State ω}
    (h : ∀ o, 0 ≤ (state.account o).available ∧ 0 ≤ (state.account o).held) (owner : String) :
    (state.account owner).total ≤ state.coins := by
  have hvalues : ∀ o a, state.accounts.get? o = some a → 0 ≤ a.total := by
    intro o a ha
    have := h o
    simp only [State.account, ha, Option.getD_some] at this
    unfold Account.total
    omega
  cases ha : state.accounts.get? owner with
  | none =>
    have hcoins : 0 ≤ state.coins := Dict.sumBy_nonneg hvalues
    simpa [State.account, ha, Account.initial, Account.total] using hcoins
  | some a => simpa [State.account, State.coins, ha] using Dict.le_sumBy hvalues ha

end Exchange
