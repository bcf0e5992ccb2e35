import Rynmesh.ExchangeRuns

/-!
# A dispute never resets

The law the frozen first version of the rules broke.  `dispute_never_resets`
follows one order through a run: its phase only goes forward, the statements
and the deadline of a round stay, there is one appeal at most, and every
accepted ruling is three distinct judges' signed word on exactly the case as it
stood.
-/

namespace Exchange

open Checked

/-- **One order, earlier and later in a run.**  Phases go working, delivered,
disputed, ruled, disputed again, ruled again, settled. -/
structure NeverResets (a b : Order) : Prop where
  forward : a.stage ≤ b.stage
  settled : a.status.Terminal → b = a
  statements : a.round = b.round → ∀ party statement,
    a.evidence.get? party = some statement → b.evidence.get? party = some statement
  caseUntil : a.round = b.round → 2 ≤ a.stage → b.caseUntil = a.caseUntil
  delivery : 2 ≤ a.stage → b.deliveryHash = a.deliveryHash ∧ b.delivery = a.delivery
  reserves : b.buyerReserve ≤ a.buyerReserve ∧ b.providerReserve ≤ a.providerReserve
  panels : b.terms = a.terms ∧ b.buyer = a.buyer ∧ b.provider = a.provider

theorem Evolves.neverResets {a b : Order} (h : Evolves a b) : NeverResets a b :=
  ⟨h.stage, h.settled, h.evidence, h.caseUntil, h.delivery, h.reserves, h.contract.terms,
    h.contract.buyer, h.contract.provider⟩

/-- The two panels of an order: disjoint, and free of the parties. -/
structure FairPanels (order : Order) : Prop where
  disjoint : ∀ j ∈ panel order.terms.judges 0, ∀ k ∈ panel order.terms.judges 1,
    j.peerId ≠ k.peerId
  neutral : ∀ round, ∀ j ∈ panel order.terms.judges round, j.peerId ∉ order.parties

/-- **An accepted ruling.**  Both parties' statements are in, and three
distinct judges of the round's panel signed the case made of them; the share
is close to each of theirs. -/
structure RuledFairly (C : Codec) (config : Config) (order order' : Order) (rulings : List Json) :
    Prop where
  complete : ∀ k, k ∈ order.evidence.keys ↔ k ∈ order.parties
  signed : ∃ round caseFile signers shares, order.round = some round ∧
    (round = 0 ∨ round = 1) ∧ casePayload config order round = .ok caseFile ∧
    rulings.length = 3 ∧
    SignedRulings C (network C config) (panel order.terms.judges round) (C.sha256 caseFile)
      rulings signers shares ∧
    ∃ share, order'.rulingShare = some share ∧
      ∀ s ∈ shares, share - s ≤ 1000 ∧ s - share ≤ 1000

variable {C : Codec} {config : Config}

theorem OrderApplied.ruledFairly {a b : State Order} {owner id : String} {value : Json}
    {timestamp : Int} {order order' : Order} {rulings : List Json}
    (h : OrderApplied C config owner value timestamp .rule id a b order order')
    (hvalue : value.get? "rulings" = some (.arr rulings)) :
    RuledFairly C config order order' rulings := by
  cases h.step with
  | settle reason => cases reason
  | @rule ends round caseFile rulings' signers shares phase complete deadline inTime current rounds
      judges neutral case carried three signed close buyerFee providerFee =>
      obtain rfl : rulings' = rulings := by
        rw [Json.get?_without, if_neg (by decide), hvalue] at carried
        simpa using carried.symm
      have hmiddle := middle_mem (by rw [signed.shares_length, three])
      refine ⟨complete, round, caseFile, signers, shares, current, rounds, case, three, signed,
        middle shares, rfl, fun s hs => ?_⟩
      have hle := sub_le_spread hmiddle hs
      have hge := sub_le_spread hs hmiddle
      omega

theorem OrderApplied.appealed {a b : State Order} {owner id : String} {value : Json}
    {timestamp : Int} {order order' : Order}
    (h : OrderApplied C config owner value timestamp .appeal id a b order order') :
    order.stage = 3 ∧ order.round = some 0 ∧ owner ∉ order.waivers ∧ order'.round = some 1 := by
  cases h.step with
  | settle reason => cases reason
  | appeal phase first unwaived =>
    simp only [] at phase first
    exact ⟨by simp [Order.stage, phase, first], first, unwaived, rfl⟩

theorem OrderApplied.waived {a b : State Order} {owner id : String} {value : Json}
    {timestamp : Int} {order order' : Order}
    (h : OrderApplied C config owner value timestamp .waive id a b order order') :
    owner ∈ order'.waivers ∧ 3 ≤ order'.stage := by
  cases h.step with
  | settle reason => cases reason
  | waive phase fresh =>
    simp only [] at phase
    refine ⟨by simp, ?_⟩
    simp only [Order.stage, phase]
    split <;> omega

/-- **A dispute never resets.**  Along every run, for every order:

* each later record is one the earlier one may turn into;
* a second appeal is never accepted, nor one by a party that waived;
* every accepted ruling is fair, and the panels are disjoint and neutral. -/
theorem dispute_never_resets (C : Codec) (config : Config) (a b : State Order)
    (hreach : Reachable C config a) (hlater : Later C config a b) (id : String) :
    (∀ order, a.orders.get? id = some order → FairPanels order ∧
      ∃ order', b.orders.get? id = some order' ∧ NeverResets order order') ∧
    (∀ start wire timestamp owner value wire' timestamp' owner' value' final,
      Reachable C config start → OrderCommand C wire .appeal id owner value →
      apply C start wire config timestamp = .ok a →
      OrderCommand C wire' .appeal id owner' value' →
      apply C b wire' config timestamp' ≠ .ok final) ∧
    (∀ start wire timestamp owner value wire' timestamp' value' final,
      Reachable C config start → OrderCommand C wire .waive id owner value →
      apply C start wire config timestamp = .ok a →
      OrderCommand C wire' .appeal id owner value' →
      apply C b wire' config timestamp' ≠ .ok final) ∧
    (∀ wire timestamp owner value rulings next, OrderCommand C wire .rule id owner value →
      value.get? "rulings" = some (.arr rulings) →
      apply C a wire config timestamp = .ok next →
      ∃ order order', a.orders.get? id = some order ∧ next.orders.get? id = some order' ∧
        RuledFairly C config order order' rulings) := by
  have hinva := hreach.invariant
  have hinvb := Later.invariant hinva hlater
  refine ⟨fun order hget => ⟨?_, ?_⟩, ?_, ?_, ?_⟩
  · have hseated := (hinva.orders id order hget).1.seated
    refine ⟨hseated.panels_disjoint, fun round j hj => ?_⟩
    simpa [Order.parties] using hseated.neutral j ((panel_sublist _ _).subset hj)
  · obtain ⟨order', hget', hevolves⟩ := Later.order hinva hlater hget
    exact ⟨order', hget', hevolves.neverResets⟩
  · intro start wire timestamp owner value wire' timestamp' owner' value' final hstart hfirst
      hfirst' hsecond hsecond'
    obtain ⟨_, order, happlied⟩ := apply_orderCommand hstart.invariant hfirst hfirst'
    obtain ⟨order', _, happlied'⟩ := apply_orderCommand hinvb hsecond hsecond'
    obtain ⟨order₁, hget, hevolves⟩ := Later.order hinva hlater happlied.result
    obtain rfl : order₁ = order' := Option.mem_unique hget happlied'.found
    have hround := hevolves.round
    obtain ⟨-, -, -, h1⟩ := happlied.appealed
    obtain ⟨-, h0, -, -⟩ := happlied'.appealed
    simp [Order.roundRank, h1, h0] at hround
  · intro start wire timestamp owner value wire' timestamp' value' final hstart hfirst hfirst'
      hsecond hsecond'
    obtain ⟨_, order, happlied⟩ := apply_orderCommand hstart.invariant hfirst hfirst'
    obtain ⟨order', _, happlied'⟩ := apply_orderCommand hinvb hsecond hsecond'
    obtain ⟨order₁, hget, hevolves⟩ := Later.order hinva hlater happlied.result
    obtain rfl : order₁ = order' := Option.mem_unique hget happlied'.found
    have hstage := hevolves.stage
    obtain ⟨hwaived, hready⟩ := happlied.waived
    obtain ⟨hthree, -, hunwaived, -⟩ := happlied'.appealed
    exact hunwaived (hevolves.waivers (by omega) owner hwaived)
  · intro wire timestamp owner value rulings next hcommand hvalue happly
    obtain ⟨order, order', happlied⟩ := apply_orderCommand hinva hcommand happly
    exact ⟨order, order', happlied.found, happlied.result, happlied.ruledFairly hvalue⟩

/-- The ruling on a disputed order is fair, and the record at the end is one the
disputed one may turn into. -/
theorem dispute_never_resets_sample : ∃ heard ruled ended order ruledOrder order',
    heard.orders.get? "command-5" = some order ∧ order.status = .disputed ∧
    apply .plain heard sampleRule sampleConfig 1000 = .ok ruled ∧
    ruled.orders.get? "command-5" = some ruledOrder ∧
    RuledFairly .plain sampleConfig order ruledOrder sampleRulings ∧
    applyAll .plain sampleConfig 1000 ruled sampleEnd = .ok ended ∧
    ended.orders.get? "command-5" = some order' ∧ NeverResets order order' := by
  obtain ⟨_, _, heard, ruled, ended, htrial⟩ := sample_trial
  have hagreed := htrial.reaches.trans (Later.of_apply htrial.agrees)
  have hlater := (Later.of_apply htrial.rules).trans (Later.of_applyAll htrial.ends)
  obtain ⟨horders, -, -, hrules⟩ := dispute_never_resets .plain sampleConfig heard ended
    (hagreed.trans (Later.of_applyAll htrial.disputes)) hlater "command-5"
  obtain ⟨order, hget, hdisputed⟩ := htrial.disputed
  obtain ⟨-, order', hget', hnever⟩ := horders order hget
  obtain ⟨_, ruledOrder, hfound, hruled, hfair⟩ :=
    hrules _ _ _ _ sampleRulings _ (sampleAct_order htrial.rules) (by simp) htrial.rules
  obtain rfl := Option.mem_unique hget hfound
  exact ⟨heard, ruled, ended, order, ruledOrder, order', hget, hdisputed, htrial.rules, hruled,
    hfair, htrial.ends, hget', hnever⟩

end Exchange
