import Rynmesh.ExchangeInvariants

/-!
# Runs of the exchange

A run is any sequence of accepted commands.  The books stay in order along a
run, an order turns only into later records, and what is on record stays on
record: operation ids, nonces, time.
-/

namespace Exchange

open Checked

/-- The next state of an accepted command. -/
def Accepts (C : Codec) (config : Config) (a b : State Order) : Prop :=
  ∃ commandWire timestamp, apply C a commandWire config timestamp = .ok b

/-- A state that a run leads to. -/
def Later (C : Codec) (config : Config) : State Order → State Order → Prop :=
  Relation.ReflTransGen (Accepts C config)

/-- A state that some run from the genesis state leads to. -/
def Reachable (C : Codec) (config : Config) (state : State Order) : Prop :=
  Later C config (initialState config) state

variable {C : Codec} {config : Config} {a b c : State Order} {commandWire : Json}
  {timestamp : Int}

theorem Later.refl (a : State Order) : Later C config a a := Relation.ReflTransGen.refl

theorem Later.trans (hab : Later C config a b) (hbc : Later C config b c) : Later C config a c :=
  Relation.ReflTransGen.trans hab hbc

theorem Later.of_apply (h : apply C a commandWire config timestamp = .ok b) :
    Later C config a b :=
  Relation.ReflTransGen.single ⟨commandWire, timestamp, h⟩

theorem Reachable.later (ha : Reachable C config a) (hab : Later C config a b) :
    Reachable C config b :=
  Later.trans ha hab

/-! ### The books along runs -/

theorem apply_invariant (ha : Invariant config a)
    (h : apply C a commandWire config timestamp = .ok b) : Invariant config b := by
  obtain ⟨cmd, payload, action, performed, happlied⟩ := apply_ok h
  have hbooks := happlied.effect.books ha happlied.read.identifier happlied.read.owner_key
    happlied.read.fresh
  have hrecorded := hbooks.recorded C commandWire cmd timestamp
  rw [← happlied.result] at hrecorded
  refine hrecorded.mono fun id hid => ?_
  rw [happlied.result, recorded_operations, (happlied.effect.frame ha).1]
  exact Dict.mem_keys_set.mpr hid

theorem Later.invariant (ha : Invariant config a) (h : Later C config a b) :
    Invariant config b := by
  induction h with
  | refl => exact ha
  | tail _ hstep ih =>
    obtain ⟨commandWire, timestamp, hstep⟩ := hstep
    exact apply_invariant ih hstep

/-- **The books of every reachable state are in order.** -/
theorem Reachable.invariant (h : Reachable C config a) : Invariant config a :=
  Later.invariant invariant_initialState h

/-! ### Orders along runs -/

theorem apply_order (ha : Invariant config a)
    (h : apply C a commandWire config timestamp = .ok b) {id : String} {order : Order}
    (hget : a.orders.get? id = some order) :
    ∃ order', b.orders.get? id = some order' ∧ Evolves order order' := by
  obtain ⟨cmd, payload, action, performed, happlied⟩ := apply_ok h
  obtain ⟨order', hget', hevolves⟩ :=
    happlied.effect.orders ha happlied.read.fresh hget
  exact ⟨order', by rw [happlied.result, recorded_orders, hget'], hevolves⟩

/-- **An order on record stays on record, as a later record of itself.** -/
theorem Later.order (ha : Invariant config a) (h : Later C config a b) {id : String}
    {order : Order} (hget : a.orders.get? id = some order) :
    ∃ order', b.orders.get? id = some order' ∧ Evolves order order' := by
  induction h with
  | refl => exact ⟨order, hget, Evolves.refl order⟩
  | @tail b' c hab hstep ih =>
    obtain ⟨order', hget', hevolves⟩ := ih
    obtain ⟨commandWire, timestamp, hstep⟩ := hstep
    obtain ⟨order'', hget'', hevolves'⟩ := apply_order (Later.invariant ha hab) hstep hget'
    exact ⟨order'', hget'', hevolves.trans hevolves'⟩

/-! ### What stays on record -/

/-- Time, nonces and the operation ids on record only grow. -/
structure Advances (a b : State Order) : Prop where
  time : a.time ≤ b.time
  nonce : ∀ o, (a.account o).nonce ≤ (b.account o).nonce
  operations : ∀ id hash, a.operations.get? id = some hash → b.operations.get? id = some hash

theorem Advances.trans (hab : Advances a b) (hbc : Advances b c) : Advances a c where
  time := hab.time.trans hbc.time
  nonce o := (hab.nonce o).trans (hbc.nonce o)
  operations id hash h := hbc.operations id hash (hab.operations id hash h)

theorem Advances.known (h : Advances a b) {id : String} (hid : id ∈ a.operations.keys) :
    id ∈ b.operations.keys := by
  obtain ⟨hash, hget⟩ := Dict.mem_keys_iff.mp hid
  exact Dict.mem_keys_of_get? (h.operations id hash hget)

/-- What an accepted command leaves on record. -/
structure OnRecord (C : Codec) (commandWire : Json) (cmd : Command) (timestamp : Int)
    (a b : State Order) : Prop where
  operation : b.operations = a.operations.set cmd.id (C.sha256 commandWire)
  nonce : ∀ o, (b.account o).nonce =
    (a.account o).nonce + if o = cmd.owner then 1 else 0
  time : b.time = timestamp

theorem Applied.onRecord {cmd : Command} {payload : Json} {action : Action}
    {performed : State Order} (ha : Invariant config a)
    (h : Applied C a commandWire config timestamp b cmd payload action performed) :
    OnRecord C commandWire cmd timestamp a b where
  operation := by rw [h.result, recorded_operations, (h.effect.frame ha).1]
  nonce o := by rw [h.result, recorded_nonce, (h.effect.frame ha).2.2]
  time := by rw [h.result, recorded_time]

theorem apply_advances (ha : Invariant config a)
    (h : apply C a commandWire config timestamp = .ok b) : Advances a b := by
  obtain ⟨cmd, payload, action, performed, happlied⟩ := apply_ok h
  obtain ⟨hoperation, hnonce, htime⟩ := happlied.onRecord ha
  refine ⟨htime ▸ happlied.read.time_le, fun o => ?_, fun id hash hget => ?_⟩
  · rw [hnonce]
    split <;> omega
  · have hne : id ≠ cmd.id := fun he =>
      happlied.read.fresh (he ▸ Dict.mem_keys_of_get? hget)
    rw [hoperation, Dict.get?_set_ne _ _ hne, hget]

theorem Later.advances (ha : Invariant config a) (h : Later C config a b) : Advances a b := by
  induction h with
  | refl => exact ⟨le_refl _, fun _ => le_refl _, fun _ _ h => h⟩
  | tail hab hstep ih =>
    obtain ⟨commandWire, timestamp, hstep⟩ := hstep
    exact ih.trans (apply_advances (Later.invariant ha hab) hstep)

/-! ### Order commands -/

/-- The name of an order action on the wire. -/
def OrderAction.name : OrderAction → String
  | deliver => "deliver"
  | accept => "accept"
  | refund => "refund"
  | dispute => "dispute"
  | evidence => "evidence"
  | rule => "rule"
  | appeal => "appeal"
  | waive => "waive"
  | finalize => "finalize"
  | timeout => "timeout"

theorem readAction_order {value : Json} {action : OrderAction}
    (h : readAction value = .ok (.order action)) : value = .str action.name := by
  unfold readAction at h
  split at h
  · have hname := pure_ok.mp h
    split at hname <;> cases hname <;> rfl
  · cases h
  · cases h
  · cases pure_ok.mp h

theorem readAction_name (action : OrderAction) :
    readAction (.str action.name) = .ok (.order action) := by
  cases action <;> rfl

/-- A signed command of an account for an order action. -/
structure OrderCommand (C : Codec) (commandWire : Json) (action : OrderAction) (id owner : String)
    (value : Json) : Prop where
  signed : ∃ payload publicKey, signature C commandWire = .ok ⟨payload, publicKey⟩ ∧
    payload.get? "actor" = some (.str owner) ∧
    payload.get? "action" = some (.str action.name) ∧ payload.get? "value" = some value
  named : value.get? "order_id" = some (.str id)

/-- What an accepted order command did to its order and to the rest. -/
structure OrderApplied (C : Codec) (config : Config) (owner : String) (value : Json)
    (timestamp : Int) (action : OrderAction) (id : String) (a b : State Order)
    (order order' : Order) : Prop where
  found : a.orders.get? id = some order
  result : b.orders.get? id = some order'
  party : owner ∈ order.parties
  reviewed : value.get? "reviewed_order" = some (.str (orderCommitment C order))
  opened : ¬ order.status.Terminal
  budget : 0 < order.remainingOps
  step : OrderStep C config (network C config) owner (value.without "reviewed_order") timestamp
    { order with remainingOps := order.remainingOps - 1 } action order'
  held : ∀ o, (b.account o).held = (a.account o).held + (order'.escrow o - order.escrow o)
  others : ∀ other, other ≠ id → b.orders.get? other = a.orders.get? other

/-- **Inversion of an order command.** -/
theorem apply_orderCommand (ha : Invariant config a) {action : OrderAction} {id owner : String}
    {value : Json} (hcommand : OrderCommand C commandWire action id owner value)
    (happly : apply C a commandWire config timestamp = .ok b) :
    ∃ order order',
      OrderApplied C config owner value timestamp action id a b order order' := by
  obtain ⟨⟨payload, publicKey, hsigned, hactor, haction, hvalue⟩, hnamed⟩ := hcommand
  obtain ⟨cmd, payload', action', performed, hread, haction', heffect, hresult, -, -⟩ :=
    apply_ok happly
  obtain rfl : payload = payload' :=
    congrArg SignedPayload.payload (Except.ok.inj (hsigned.symm.trans hread.signed))
  obtain rfl : cmd.owner = owner := by
    simpa using Option.mem_unique hread.actor_eq hactor
  obtain rfl : cmd.value = value := Option.mem_unique hread.value_eq hvalue
  obtain rfl : action' = .order action := by
    rw [Option.mem_unique hread.action_eq haction, readAction_name] at haction'
    exact (Except.ok.inj haction').symm
  cases heffect with
  | balances kind | listing kind => simp at kind
  | @order t s' id' order order' _ touch named found party reviewed opened budget done =>
    obtain rfl : id' = id := by
      rw [hnamed] at named
      simpa using named.symm
    obtain ⟨available, -, hflow⟩ := Books.orderAction_flow ha found opened done
    have flow := touch.trans hflow
    subst hresult
    refine ⟨order, order', found, by simp, party, reviewed, opened, budget,
      hread.network_eq ▸ orderAction_step done, fun o => ?_, fun other hne => ?_⟩
    · rw [(recorded_balances ..).2]
      show (s'.account o).held = _
      rw [flow.held_eq, zero_add]
    · simp [hne, flow.orders_eq]

/-! ### A run for examples -/

/-- Perform commands in turn, all certified at one time. -/
def applyAll (C : Codec) (config : Config) (timestamp : Int) (state : State Order)
    (wires : List Json) : Except Failure (State Order) :=
  wires.foldlM (fun state wire => apply C state wire config timestamp) state

theorem Later.of_applyAll {wires : List Json} (h : applyAll C config timestamp a wires = .ok b) :
    Later C config a b := by
  induction wires generalizing a with
  | nil =>
    obtain rfl : a = b := by simpa [applyAll] using h
    exact Later.refl a
  | cons wire rest ih =>
    rw [applyAll, List.foldlM_cons, bind_ok] at h
    obtain ⟨next, hnext, hrest⟩ := h
    exact (Later.of_apply hnext).trans (ih hrest)

/-- The digest that the plain codec gives to every value. -/
def sampleDigest : Json := .str (Codec.plain.sha256 .null)

/-- A work reward for an account, with the receipts of three validators. -/
def sampleReward (operation owner : String) : Json :=
  sampleCommand .plain operation owner 2 "reward" [("job_id", .str operation),
    ("receipts", .arr (['A', 'E', 'I'].map fun letter => signPayload .plain (sampleKey letter)
      (.object [("version", .str VERSION), ("kind", .str "registry-work"),
        ("network", .str (network .plain sampleConfig)), ("job_id", .str operation),
        ("provider", .str owner), ("work_hash", sampleDigest)])))]

/-- Two profiles, two rewards, a listing and a proposal. -/
def sampleRun : List Json :=
  let buyer := sampleKey 'Q'
  let provider := sampleKey 'U'
  [sampleCommand .plain "command-1" buyer 1 "profile"
      [("label", .str "buyer"), ("encryption_key", .str buyer)],
    sampleCommand .plain "command-2" provider 1 "profile"
      [("label", .str "provider"), ("encryption_key", .str provider)],
    sampleReward "command-6" buyer, sampleReward "command-7" provider,
    sampleCommand .plain "command-3" provider 3 "listing" [("kind", .str "offer"),
      ("category", .str "code"), ("title", .str "title"), ("description", .str "description"),
      ("price", .int 4)],
    sampleCommand .plain "command-4" buyer 3 "propose" [("listing_id", .str "command-3"),
      ("scope", .str "scope"), ("price", .int 4)]]

/-- The agreement that opens the order `command-5`. -/
def sampleAgree : Json :=
  sampleCommand .plain "command-5" (sampleKey 'U') 4 "agree"
    [("proposal_id", .str "command-4"), ("terms_hash", sampleDigest)]

/-- An action on the order. -/
def sampleAct (operation owner : String) (nonce : Int) (action : OrderAction)
    (value : List (String × Json)) : Json :=
  sampleCommand .plain operation owner nonce action.name
    (("order_id", .str "command-5") :: ("reviewed_order", sampleDigest) :: value)

/-- A party's evidence, sealed for the judges of the first round. -/
def sampleEvidence (operation owner : String) : Json :=
  sampleAct operation owner 5 .evidence [("commitment", sampleDigest),
    ("sealed", .object (['c', 'g', 'k'].map fun letter =>
      (sampleKey letter, .object [("nonce", .str "nonce"), ("ciphertext", .str "sealed")])))]

/-- A dispute with the evidence of both parties. -/
def sampleDispute : List Json :=
  [sampleAct "command-8" (sampleKey 'Q') 4 .dispute [],
    sampleEvidence "command-10" (sampleKey 'Q'), sampleEvidence "command-11" (sampleKey 'U')]

/-- The judges of the first round give the provider half. -/
def sampleRulings : List Json :=
  ['c', 'g', 'k'].map fun letter => signPayload .plain (sampleKey letter) (.object [
    ("version", .str VERSION), ("kind", .str "ruling"),
    ("network", .str (network .plain sampleConfig)), ("case_hash", sampleDigest),
    ("model", .str (sampleKey letter)), ("share_bps", .int 5000),
    ("reason_code", .str "partial_delivery")])

def sampleRule : Json :=
  sampleAct "command-12" (sampleKey 'Q') 6 .rule [("rulings", .arr sampleRulings)]

/-- Both parties waive an appeal, and one of them ends the order. -/
def sampleEnd : List Json :=
  [sampleAct "command-13" (sampleKey 'Q') 7 .waive [("settlement_hash", sampleDigest)],
    sampleAct "command-14" (sampleKey 'U') 6 .waive [("settlement_hash", sampleDigest)],
    sampleAct "command-15" (sampleKey 'Q') 8 .finalize [("settlement_hash", sampleDigest)]]

/-- The states before and after the agreement, before and after the ruling, and
at the end. -/
def sampleStates : Except Failure (State Order × State Order × State Order × State Order ×
    State Order) := do
  let start ← applyAll .plain sampleConfig 1000 (initialState sampleConfig) sampleRun
  let agreed ← apply .plain start sampleAgree sampleConfig 1000
  let heard ← applyAll .plain sampleConfig 1000 agreed sampleDispute
  let ruled ← apply .plain heard sampleRule sampleConfig 1000
  let ended ← applyAll .plain sampleConfig 1000 ruled sampleEnd
  pure (start, agreed, heard, ruled, ended)

/-- An open order of the buyer, who has put its coins in escrow and has operation
ids and nonces left. -/
def SampleAgreed (state : State Order) (order : Order) : Prop :=
  ¬ order.status.Terminal ∧ sampleKey 'Q' ∈ order.parties ∧
    "command-9" ∉ state.operations.keys ∧ (state.account (sampleKey 'Q')).nonce + 1 ≤ MAX_MINOR ∧
    (state.account (sampleKey 'Q')).held = 10

instance (state : State Order) (order : Order) : Decidable (SampleAgreed state order) :=
  inferInstanceAs (Decidable (_ ∧ _ ∧ _ ∧ _ ∧ _))

theorem sampleStates_evaluate : sampleStates.toOption.any (fun (_, agreed, heard, _, ended) =>
    ((agreed.orders.get? "command-5").any fun order => decide (SampleAgreed agreed order)) &&
    ((heard.orders.get? "command-5").any fun order => decide (order.status = .disputed)) &&
    ((ended.orders.get? "command-5").any fun order =>
      decide (order.status.Terminal ∧ order.paid = some 2))) = true := by
  decide +kernel

/-- The trial of the examples: an agreement, a dispute, a ruling and the end. -/
structure SampleTrial (start agreed heard ruled ended : State Order) : Prop where
  reaches : Reachable .plain sampleConfig start
  agrees : apply .plain start sampleAgree sampleConfig 1000 = .ok agreed
  disputes : applyAll .plain sampleConfig 1000 agreed sampleDispute = .ok heard
  rules : apply .plain heard sampleRule sampleConfig 1000 = .ok ruled
  ends : applyAll .plain sampleConfig 1000 ruled sampleEnd = .ok ended
  opened : ∃ order, agreed.orders.get? "command-5" = some order ∧ SampleAgreed agreed order
  disputed : ∃ order, heard.orders.get? "command-5" = some order ∧ order.status = .disputed
  paid : ∃ order, ended.orders.get? "command-5" = some order ∧ order.status.Terminal ∧
    order.paid = some 2

theorem sample_trial : ∃ start agreed heard ruled ended,
    SampleTrial start agreed heard ruled ended := by
  obtain ⟨⟨start, agreed, heard, ruled, ended⟩, hstates, hfacts⟩ :=
    toOption_any sampleStates_evaluate
  simp only [sampleStates, bind_ok, pure_ok, Prod.mk.injEq] at hstates
  obtain ⟨_, hstart, _, hagreed, _, hheard, _, hruled, _, hended, rfl, rfl, rfl, rfl, rfl⟩ :=
    hstates
  simp only [Bool.and_eq_true, Option.any_eq_true, decide_eq_true_eq] at hfacts
  exact ⟨_, _, _, _, _, Later.of_applyAll hstart, hagreed, hheard, hruled, hended, hfacts.1.1,
    hfacts.1.2, hfacts.2⟩

/-- The trial opens an order. -/
theorem sample_reachable : ∃ agreed order, Reachable .plain sampleConfig agreed ∧
    agreed.orders.get? "command-5" = some order ∧ SampleAgreed agreed order := by
  obtain ⟨_, agreed, _, _, _, htrial⟩ := sample_trial
  obtain ⟨order, hget, hagreed⟩ := htrial.opened
  exact ⟨agreed, order, htrial.reaches.trans (Later.of_apply htrial.agrees), hget, hagreed⟩

theorem sampleCommand_carried {operation owner action : String} {nonce : Int}
    {value : List (String × Json)} (h : apply .plain a
      (sampleCommand .plain operation owner nonce action value) sampleConfig timestamp = .ok b) :
    ∃ publicKey, signature .plain (sampleCommand .plain operation owner nonce action value) =
      .ok ⟨commandPayload .plain VERSION sampleConfig operation owner nonce (.str action)
        (.object value), publicKey⟩ := by
  obtain ⟨cmd, payload, -, -, hread, -⟩ := apply_ok h
  have hcarried := (signature_ok hread.signed).1
  have hpayload : (sampleCommand .plain operation owner nonce action value).get? "payload" =
      some (commandPayload .plain VERSION sampleConfig operation owner nonce (.str action)
        (.object value)) := by simp [sampleCommand, signPayload]
  rw [hpayload] at hcarried
  obtain rfl := Option.some.inj hcarried
  exact ⟨cmd.publicKey, hread.signed⟩

/-- An accepted action of the examples is one on the order. -/
theorem sampleAct_order {operation owner : String} {nonce : Int} {action : OrderAction}
    {value : List (String × Json)} (h : apply .plain a
      (sampleAct operation owner nonce action value) sampleConfig timestamp = .ok b) :
    OrderCommand .plain (sampleAct operation owner nonce action value) action "command-5" owner
      (.object (("order_id", .str "command-5") :: ("reviewed_order", sampleDigest) :: value)) := by
  obtain ⟨publicKey, hsigned⟩ := sampleCommand_carried h
  exact ⟨⟨_, publicKey, hsigned, by simp [commandPayload], by simp [commandPayload],
    by simp [commandPayload]⟩, by simp⟩

end Exchange
