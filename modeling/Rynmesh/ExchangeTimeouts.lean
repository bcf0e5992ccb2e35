import Rynmesh.ExchangeAccounting

/-!
# No order strands its escrow

Every open order of a reachable state has a deadline, operations left, and the
fields its timeout reads.  From that deadline on, either party settles it with
a timeout command: `timeout_settles`.
-/

namespace Exchange

open Checked

variable {C : Codec} {config : Config}

/-! ### Signed wires -/

/-- A wire that carries a payload with a valid signature. -/
structure SignedWire (C : Codec) (wire payload : Json) (publicKey : String) : Prop where
  payload_eq : wire.get? "payload" = some payload
  publicKey_eq : wire.get? "public_key" = some (.str publicKey)
  publicKey_valid : IsKey publicKey
  algorithm : algorithmKnown wire = true
  verified : ∃ sig, wire.get? "signature" = some sig ∧ C.verifies publicKey sig payload = true

theorem SignedWire.signature_ok {wire payload : Json} {publicKey : String}
    (h : SignedWire C wire payload publicKey) (hdict : payload.dict? = some payload)
    (hsize : payload.size ≤ 256 * 1024) : signature C wire = .ok ⟨payload, publicKey⟩ := by
  obtain ⟨hpayload, hkey, hvalid, halg, sig, hsig, hverified⟩ := h
  simp only [signature, bind_ok, demand_ok, require_ok, pure_ok]
  exact ⟨payload, by simp [hpayload, hdict], sig, hsig, publicKey, by simp [hkey, Json.asStr?],
    (), ⟨halg, hverified⟩, publicKey, key_ok.mpr ⟨rfl, hvalid⟩, (), hsize, rfl⟩

/-! ### Reading a well-formed command -/

theorem readCommand_of {ω : Type} {version : String} {state : State ω} {wire action value : Json}
    {timestamp : Int} {operation owner publicKey : String} {nonce : Int}
    (hsigned : signature C wire =
      .ok ⟨commandPayload C version config operation owner nonce action value, publicKey⟩)
    (hoperation : IsIdentifier operation) (howner : IsKey owner)
    (hauth : publicKey = owner ∨ publicKey ∈ (state.account owner).devices)
    (hfresh : operation ∉ state.operations.keys)
    (hnonce : nonce = (state.account owner).nonce + 1) (hbound : 0 ≤ nonce ∧ nonce ≤ MAX_MINOR)
    (htime : state.time ≤ timestamp) (hobj : value.isObj = true) :
    readCommand C version state wire config timestamp =
      .ok { id := operation, owner, publicKey, network := network C config, action, value } := by
  simp only [readCommand, bind_ok, require_ok, need_ok, pure_ok]
  refine ⟨_, hsigned, (), ?_, (), ?_, _, ?_, operation, identifier_ok.mpr ⟨rfl, hoperation⟩, _,
    ?_, owner, key_ok.mpr ⟨rfl, howner⟩, (), hauth, (), hfresh, _, ?_, nonce,
    integer_ok.mpr ⟨rfl, hbound⟩, (), hnonce, (), htime, action, ?_, value, ?_, (), hobj, rfl⟩
  · exact Json.hasKeys_object (by simp)
  all_goals simp [commandPayload]

theorem apply_of {state admitted performed state' : State Order} {wire : Json}
    {timestamp : Int} {cmd : Command} {action : Action}
    (hread : readCommand C VERSION state wire config timestamp = .ok cmd)
    (haction : readAction cmd.action = .ok action)
    (hadm : admission cmd (state.touch cmd.owner) action = .ok admitted)
    (hperform : perform C config cmd timestamp admitted action = .ok performed)
    (hfinish : finish C wire cmd timestamp performed = .ok state') :
    apply C state wire config timestamp = .ok state' := by
  simp only [apply, bind_ok]
  exact ⟨cmd, hread, action, haction, admitted, hadm, performed, hperform, hfinish⟩

/-! ### Timeouts of funded orders -/

section Timeout

variable {s : State Order} {known : String → Prop} {timestamp ends : Int} {id : String}
  {order : Order} {value : Json}

theorem Order.Sound.deadline_ok (h : order.Sound id) (hopen : ¬ order.status.Terminal) :
    ∃ ends, order.deadline = .ok ends := by
  cases h.phase with
  | working status round => exact ⟨order.deliveryUntil, by simp [Order.deadline, status]⟩
  | delivered status round review => exact ⟨_, by simp [Order.deadline, status, review]; rfl⟩
  | disputed status round case judges => exact ⟨_, by simp [Order.deadline, status, case]; rfl⟩
  | ruled status round appeal ruling judges =>
    exact ⟨_, by simp [Order.deadline, status, appeal]; rfl⟩
  | settled status => exact absurd status hopen

theorem Order.Sound.ruling_of_round (h : order.Sound id) (hopen : ¬ order.status.Terminal)
    (hround : order.round = some 1) : ∃ share, order.rulingShare = some share := by
  cases h.phase with
  | working status round | delivered status round review => simp [hround] at round
  | disputed status round case judges =>
    rcases round with hzero | ⟨-, hshare⟩
    · simp [hround] at hzero
    · exact Option.isSome_iff_exists.mp hshare
  | ruled status round appeal ruling judges => exact ⟨_, ruling⟩
  | settled status => exact absurd status hopen

theorem Order.Sound.timeoutShare_ok (h : order.Sound id) (hopen : ¬ order.status.Terminal) :
    ∃ share, Exchange.timeoutShare order = .ok share ∧ 0 ≤ share ∧ share ≤ 10000 := by
  have hshare : ∃ share, Exchange.timeoutShare order = .ok share := by
    unfold Exchange.timeoutShare
    split
    · next hruled =>
      have : ∃ share, order.rulingShare = some share := by
        rcases hruled with hready | hround
        · cases h.phase with
          | ruled status round appeal ruling judges => exact ⟨_, ruling⟩
          | settled status => exact absurd status hopen
          | _ => simp_all
        · exact h.ruling_of_round hopen hround
      obtain ⟨share, hs⟩ := this
      exact ⟨share, need_ok.mpr hs⟩
    · split
      · exact ⟨_, rfl⟩
      · exact ⟨_, rfl⟩
  obtain ⟨share, hs⟩ := hshare
  exact ⟨share, hs, timeoutShare_bounded h hs⟩

theorem Funded.times_out (hfunded : Funded s order) (h : order.Sound id)
    (hopen : ¬ order.status.Terminal) (hends : order.deadline = .ok ends)
    (hlate : ends ≤ timestamp) (hkeys : value.HasKeys ["order_id", "settlement_hash"])
    (hsettlement : value.get? "settlement_hash" = some (.str (settlementCommitment C order))) :
    ∃ result, timeout C value timestamp s order = .ok result := by
  have hprice := h.price.1
  have hbegin : ∀ result, (if order.status = .working then close s order 0 .refunded
      else if order.status = .delivered then close s order order.price .accepted
      else do
        let share ← Exchange.timeoutShare order
        close s order (order.price * share / 10000) .resolved) = .ok result →
      timeout C value timestamp s order = .ok result := by
    intro result hresult
    simp only [timeout, bind_ok, require_ok]
    exact ⟨(), hkeys, (), hsettlement, ends, hends, (), hlate, hresult⟩
  by_cases hworking : order.status = .working
  · obtain ⟨s', hclose⟩ := hfunded.settles ⟨le_refl 0, hprice⟩ .refunded
    exact ⟨_, hbegin _ (by rw [if_pos hworking, hclose])⟩
  by_cases hdelivered : order.status = .delivered
  · obtain ⟨s', hclose⟩ := hfunded.settles ⟨hprice, le_refl _⟩ .accepted
    exact ⟨_, hbegin _ (by rw [if_neg hworking, if_pos hdelivered, hclose])⟩
  obtain ⟨share, hshare, hlow, hhigh⟩ := h.timeoutShare_ok hopen
  have hpaid : 0 ≤ order.price * share / 10000 ∧
      order.price * share / 10000 ≤ order.price := by
    constructor
    · have := mul_nonneg hprice hlow
      omega
    · have := mul_le_mul_of_nonneg_left hhigh hprice
      omega
  obtain ⟨s', hclose⟩ := hfunded.settles hpaid .resolved
  exact ⟨_, hbegin _ (by rw [if_neg hworking, if_neg hdelivered, hshare, ok_bind, hclose])⟩

end Timeout

/-! ### The timeout command -/

/-- The value of a timeout command for an order as it stands. -/
def timeoutValue (C : Codec) (id : String) (order : Order) : Json :=
  .object [("order_id", .str id), ("settlement_hash", .str (settlementCommitment C order)),
    ("reviewed_order", .str (orderCommitment C order))]

theorem timeoutValue_hasKeys (C : Codec) (id : String) (order : Order) :
    ((timeoutValue C id order).without "reviewed_order").HasKeys ["order_id", "settlement_hash"] :=
  Json.hasKeys_without (Json.hasKeys_object (by simp; tauto)) (by simp)

/-- The timeout command of an order as it stands in a state. -/
def timeoutCommand (C : Codec) (config : Config) (state : State Order) (id : String)
    (order : Order) (owner operation : String) : Json :=
  commandPayload C VERSION config operation owner ((state.account owner).nonce + 1)
    (.str "timeout") (timeoutValue C id order)

theorem IsDigest.stringSize_le {s : String} (h : IsDigest s) : Json.stringSize s ≤ 428 := by
  have := Json.stringSize_le s
  have := h.1
  omega

theorem timeoutCommand_size (hdigest : ∀ v, IsDigest (C.sha256 v)) {state : State Order}
    {id owner operation : String} {order : Order} (hid : IsIdentifier id)
    (hoperation : IsIdentifier operation) (howner : IsKey owner)
    (hnonce : 0 ≤ (state.account owner).nonce + 1 ∧ (state.account owner).nonce + 1 ≤ MAX_MINOR) :
    (timeoutCommand C config state id order owner operation).size ≤ 256 * 1024 := by
  have hnetwork := (hdigest config.raw).stringSize_le
  have hsettlement := (hdigest (settlement order)).stringSize_le
  have horder := (hdigest order.toJson).stringSize_le
  have hid := (Json.stringSize_le id).trans (Nat.add_le_add_left
    (Nat.mul_le_mul_left 6 hid.2.1) 2)
  have hop := (Json.stringSize_le operation).trans (Nat.add_le_add_left
    (Nat.mul_le_mul_left 6 hoperation.2.1) 2)
  have how := Json.stringSize_le owner
  rw [howner.1] at how
  have hmax : MAX_MINOR = 10 ^ 15 := rfl
  have hint := Json.intSize_le (k := 16) hnonce.1 (by norm_num) (by omega)
  have hvalue := Json.size_object_le [("order_id", .str id),
    ("settlement_hash", .str (settlementCommitment C order)),
    ("reviewed_order", .str (orderCommitment C order))]
  refine (Json.size_object_le _).trans ?_
  simp only [Json.sizeFields, Json.sizeField, Json.size, List.length_cons, List.length_nil,
    timeoutValue, network, settlementCommitment, orderCommitment] at hvalue ⊢
  have hnames : Json.stringSize "order_id" = 10 ∧ Json.stringSize "settlement_hash" = 17 ∧
      Json.stringSize "reviewed_order" = 16 ∧ Json.stringSize "version" = 9 ∧
      Json.stringSize "network" = 9 ∧ Json.stringSize "id" = 4 ∧
      Json.stringSize "actor" = 7 ∧ Json.stringSize "nonce" = 7 ∧
      Json.stringSize "action" = 8 ∧ Json.stringSize "value" = 7 ∧
      Json.stringSize "timeout" = 9 ∧ Json.stringSize VERSION = 17 := by
    decide +kernel
  omega

/-! ### Settling by timeout -/

section Settling

variable {s s' : State Order} {timestamp : Int} {id : String} {order : Order}

/-- The record and the holds after a timeout. -/
structure TimedOut (s s' : State Order) (id : String) (order : Order) : Prop where
  closed : ∃ order', s'.orders.get? id = some order' ∧ order'.status.Terminal ∧
    order'.buyerReserve = 0 ∧ order'.providerReserve = 0
  held : ∀ o, (s'.account o).held = (s.account o).held -
    (amountAt order.buyer (order.price + order.buyerReserve) o +
      amountAt order.provider order.providerReserve o)
  others : ∀ other, other ≠ id → s'.orders.get? other = s.orders.get? other

theorem OrderApplied.timedOut {config : Config} {owner : String} {value : Json} {order' : Order}
    (h : OrderApplied C config owner value timestamp .timeout id s s' order order') :
    TimedOut s s' id order := by
  have hterminal : order'.status.Terminal ∧ order'.buyerReserve = 0 ∧
      order'.providerReserve = 0 := by
    cases h.step with
    | settle reason bounded => exact ⟨reason.terminal, rfl, rfl⟩
  refine ⟨⟨order', h.result, hterminal⟩, fun o => ?_, h.others⟩
  rw [h.held]
  simp only [Order.escrow, hterminal.1, h.opened, if_true, if_false]
  omega

/-- **No order strands its escrow.**  In every reachable state every open
order has operations left and a deadline; a second round has a ruling to fall
back on; and from the deadline on, the timeout command of either party is
accepted and settles the order, releasing both holds and nothing else.

The digests of `sha256_bytes` have their documented form. -/
theorem timeout_settles (C : Codec) (hdigest : ∀ v, IsDigest (C.sha256 v)) (config : Config)
    (state : State Order) (hreach : Reachable C config state) (id : String) (order : Order)
    (hget : state.orders.get? id = some order) (hopen : ¬ order.status.Terminal) :
    0 < order.remainingOps ∧
    (order.round = some 1 → ∃ share, order.rulingShare = some share) ∧
    ∃ ends, order.deadline = .ok ends ∧
      ∀ owner ∈ order.parties, ∀ timestamp, max state.time ends ≤ timestamp →
      ∀ publicKey, publicKey = owner ∨ publicKey ∈ (state.account owner).devices →
      ∀ operation, IsIdentifier operation → operation ∉ state.operations.keys →
      (state.account owner).nonce + 1 ≤ MAX_MINOR →
      ∀ wire, SignedWire C wire (timeoutCommand C config state id order owner operation) publicKey →
      ∃ state', apply C state wire config timestamp = .ok state' ∧
        TimedOut state state' id order := by
  have hinv := hreach.invariant
  obtain ⟨hsound, hbudget⟩ := hinv.orders id order hget
  obtain ⟨ends, hends⟩ := hsound.deadline_ok hopen
  have hremaining : 0 < order.remainingOps := by
    have := hsound.remaining hbudget hopen
    omega
  refine ⟨hremaining, hsound.ruling_of_round hopen, ends, hends, ?_⟩
  intro owner hparty timestamp htime publicKey hauth operation hoperation hfresh hnonce wire hwire
  have howner : IsKey owner := by
    rcases List.mem_cons.mp hparty with rfl | hparty
    · exact hsound.keys.1
    · exact List.mem_singleton.mp hparty ▸ hsound.keys.2
  have hnonneg : 0 ≤ (state.account owner).nonce :=
    (Later.advances invariant_initialState hreach).nonce owner
  have hnonce' : 0 ≤ (state.account owner).nonce + 1 ∧
      (state.account owner).nonce + 1 ≤ MAX_MINOR := ⟨by omega, hnonce⟩
  have hsigned := hwire.signature_ok rfl
    (timeoutCommand_size hdigest hsound.identifier hoperation howner hnonce')
  have hread := readCommand_of hsigned hoperation howner hauth hfresh rfl hnonce'
    (le_of_max_le_left htime) rfl
  -- The order as the action finds it, with one operation charged.
  have htouch := flow_touch state owner
  have hbooks := Books.touch hinv htouch
  have hget' : (state.touch owner).orders.get? id = some order := hget
  have hfunds := hbooks.funded hget' hopen
  have hfunded : Funded (state.touch owner)
      { order with remainingOps := order.remainingOps - 1 } :=
    ⟨hfunds.distinct, hfunds.buyer, hfunds.provider, hfunds.capacity⟩
  obtain ⟨⟨settled, order'⟩, hdone⟩ := hfunded.times_out (C := C)
    (hsound.charged (order.remainingOps - 1)) hopen hends (le_of_max_le_right htime)
    (timeoutValue_hasKeys C id order)
    (by simp [Json.get?_without, timeoutValue, settlementCommitment, settlement])
  have hperform : perform C config
      { id := operation, owner, publicKey, network := network C config, action := .str "timeout",
        value := timeoutValue C id order } timestamp (state.touch owner) (.order .timeout) =
      .ok { settled with orders := settled.orders.set id order' } := by
    simp only [perform, orderCommand, openOrder, bind_ok, demand_ok, require_ok, pure_ok]
    refine ⟨(id, order), ⟨some (id, order), ?_, (id, order), rfl, (), hparty, (), ?_, (), hopen,
      rfl⟩, .timeout, rfl, (), hremaining, (settled, order'), hdone, rfl⟩
    · simp [timeoutValue, find, hget']
    · simp [timeoutValue]
  have heffect := perform_effect htouch hperform
  have hafter := heffect.books hinv hoperation howner hfresh
  have happly := apply_of hread rfl rfl hperform (hafter.finish C wire _ timestamp)
  have hcommand : OrderCommand C wire .timeout id owner (timeoutValue C id order) :=
    ⟨⟨_, _, hsigned, by simp [timeoutCommand, commandPayload],
      by simp [timeoutCommand, commandPayload, OrderAction.name],
      by simp [timeoutCommand, commandPayload]⟩, by simp [timeoutValue]⟩
  obtain ⟨order₀, order'', happlied⟩ := apply_orderCommand hinv hcommand happly
  obtain rfl : order₀ = order := Option.mem_unique happlied.found hget
  exact ⟨_, happly, happlied.timedOut⟩

end Settling

/-- The buyer of an open order times it out at its deadline. -/
theorem timeout_settles_sample : ∃ state order wire timestamp state',
    state.orders.get? "command-5" = some order ∧ 0 < order.remainingOps ∧
    apply .plain state wire sampleConfig timestamp = .ok state' ∧
    TimedOut state state' "command-5" order := by
  obtain ⟨state, order, hreach, hget, hopen, hparty, hfresh, hnonce, -⟩ := sample_reachable
  obtain ⟨hremaining, -, ends, hends, haccepted⟩ :=
    timeout_settles .plain Codec.plain_digest sampleConfig state hreach "command-5" order hget hopen
  have hkey : IsKey (sampleKey 'Q') := by decide +kernel
  have hoperation : IsIdentifier "command-9" := by decide +kernel
  have hwire : SignedWire .plain
      (signPayload .plain (sampleKey 'Q')
        (timeoutCommand .plain sampleConfig state "command-5" order (sampleKey 'Q') "command-9"))
      (timeoutCommand .plain sampleConfig state "command-5" order (sampleKey 'Q') "command-9")
      (sampleKey 'Q') :=
    ⟨by simp [signPayload], by simp [signPayload], hkey, by simp [signPayload, algorithmKnown],
      .str (sampleKey 'Q'), by simp [signPayload, Codec.plain], by simp [Codec.plain]⟩
  obtain ⟨state', happly, htimedOut⟩ := haccepted (sampleKey 'Q') hparty _ (le_refl _)
    (sampleKey 'Q') (.inl rfl) "command-9" hoperation hfresh hnonce _ hwire
  exact ⟨state, order, _, _, state', hget, hremaining, happly, htimedOut⟩

end Exchange
