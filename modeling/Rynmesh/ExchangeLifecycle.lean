import Rynmesh.ExchangeSteps

/-!
# The lifecycle of an order

* `Order.Sound` is the invariant of an order record: its parties, its panels,
  the reserves each phase still owes the judges, and the fields each phase has
  set;
* `Order.Budgeted` bounds what the parties can have spent of the operation
  reserve by the phase they reached;
* `Evolves` relates an order record to every later one: phases, rounds and
  operations only go one way.

All three follow from `OrderStep`, one case for each way an order moves.
-/

namespace Exchange

open Checked

/-! ### Panels fixed at agreement -/

/-- The judges an order is agreed with: none, or two disjoint panels of three
that contain neither party. -/
structure Seated (judges : List Judge) (buyer provider : String) : Prop where
  size : judges.length = 0 ∨ judges.length = 6
  neutral : ∀ j ∈ judges, j.peerId ≠ buyer ∧ j.peerId ≠ provider
  distinct : (judges.map (·.peerId)).Nodup
  fees : ∀ j ∈ judges, 0 ≤ j.fee

theorem panel_sublist (judges : List Judge) (round : Nat) : (panel judges round).Sublist judges :=
  (List.take_sublist _ _).trans (List.drop_sublist _ _)

variable {judges : List Judge}

theorem panelFee_nonneg (h : ∀ j ∈ judges, 0 ≤ j.fee) : 0 ≤ panelFee judges := by
  refine List.sum_nonneg ?_
  intro x hx
  obtain ⟨j, hj, rfl⟩ := List.mem_map.mp hx
  exact h j hj

variable {provider : String}

theorem Seated.panelFee_nonneg {buyer : String} (h : Seated judges buyer provider) (round : Nat) :
    0 ≤ panelFee (panel judges round) :=
  Exchange.panelFee_nonneg fun j hj => h.fees j ((panel_sublist judges round).subset hj)

theorem Seated.panels_disjoint {buyer : String} (h : Seated judges buyer provider) :
    ∀ j ∈ panel judges 0, ∀ k ∈ panel judges 1, j.peerId ≠ k.peerId := by
  have hsplit : panel judges 0 ++ judges.drop 3 = judges := by
    simp [panel]
  have hnodup := h.distinct
  rw [← hsplit, List.map_append, List.nodup_append] at hnodup
  intro j hj k hk
  refine hnodup.2.2 _ (List.mem_map_of_mem hj) _ (List.mem_map_of_mem ?_)
  exact List.mem_of_mem_take (by simpa [panel] using hk)

theorem seats_ok {config : Config} {buyer : String} (h : seats config buyer provider = .ok judges) :
    Seated judges buyer provider := by
  by_cases hnone : config.judges = []
  · obtain rfl : [] = judges := by simpa [seats, hnone] using h
    exact ⟨.inl rfl, by simp, by simp, by simp⟩
  simp only [seats, hnone, if_false, bind_ok, pure_ok, judgePanel_ok] at h
  obtain ⟨_, ⟨-, hsix, -, rfl⟩, _, ⟨-, -, -, rfl⟩, rfl⟩ := h
  have htake : panel (eligibleJudges config buyer provider) 0 ++
      panel (eligibleJudges config buyer provider) 1 =
        (eligibleJudges config buyer provider).take 6 := by
    simp [panel, ← List.take_add]
  rw [htake]
  have hsub : ((eligibleJudges config buyer provider).take 6).Sublist config.judges :=
    (List.take_sublist _ _).trans List.filter_sublist
  refine ⟨.inr (by simp [hsix]), fun j hj => ?_,
    config.judges_nodup.sublist (hsub.map _),
    fun j hj => (config.fees_bounded j (hsub.subset hj)).1⟩
  have helig := (List.mem_filter.mp (List.mem_of_mem_take hj)).2
  simpa using helig

/-! ### Phases -/

/-- How far an order has come: working, delivered, then disputed and ruled in
each of the two rounds, then settled. -/
def Order.stage (order : Order) : Nat :=
  match order.status with
  | .working => 0
  | .delivered => 1
  | .disputed => if order.round = some 1 then 4 else 2
  | .rulingReady => if order.round = some 1 then 5 else 3
  | _ => 6

theorem Order.stage_le_five {order : Order} (h : ¬ order.status.Terminal) : order.stage ≤ 5 := by
  cases hs : order.status with
  | working | delivered => simp [Order.stage, hs]
  | disputed | rulingReady => simp only [Order.stage, hs]; split <;> omega
  | _ => simp [hs] at h

/-- The rounds an order still holds the judges' fees for. -/
def Order.roundsLeft (order : Order) : List Nat :=
  match order.status with
  | .working => [0, 1]
  | .delivered => [0, 1]
  | .disputed => if order.round = some 1 then [1] else [0, 1]
  | .rulingReady => if order.round = some 1 then [] else [1]
  | _ => []

/-- The fees of the rounds to come, the buyer bearing the odd ones. -/
def buyerFees (judges : List Judge) (rounds : List Nat) : Int :=
  (rounds.map fun r => (panelFee (panel judges r) + 1) / 2).sum

def providerFees (judges : List Judge) (rounds : List Nat) : Int :=
  (rounds.map fun r => panelFee (panel judges r) / 2).sum

theorem fees_eq (judges : List Judge) :
    fees judges = (buyerFees judges [0, 1], providerFees judges [0, 1]) := by
  simp [fees, buyerFees, providerFees]

/-- What each phase has set on the record. -/
inductive Order.PhaseSet (order : Order) : Prop
  | working (status : order.status = .working) (round : order.round = none)
  | delivered {ends : Int} (status : order.status = .delivered) (round : order.round = none)
      (review : order.reviewUntil = some ends)
  | disputed {ends : Int} (status : order.status = .disputed)
      (round : order.round = some 0 ∨ order.round = some 1 ∧ order.rulingShare.isSome = true)
      (case : order.caseUntil = some ends) (judges : order.terms.judges.length = 6)
  | ruled {ends share : Int} (status : order.status = .rulingReady)
      (round : order.round = some 0 ∨ order.round = some 1)
      (appeal : order.appealUntil = some ends) (ruling : order.rulingShare = some share)
      (judges : order.terms.judges.length = 6)
  | settled (status : order.status.Terminal)

theorem Order.PhaseSet.congr {a b : Order} (h : a.PhaseSet)
    (hstatus : b.status = a.status) (hround : b.round = a.round)
    (hreview : b.reviewUntil = a.reviewUntil) (hcase : b.caseUntil = a.caseUntil)
    (hshare : b.rulingShare = a.rulingShare) (happeal : b.appealUntil = a.appealUntil)
    (hterms : b.terms = a.terms) : b.PhaseSet := by
  cases h with
  | working status round => exact .working (hstatus.trans status) (hround.trans round)
  | delivered status round review =>
    exact .delivered (hstatus.trans status) (hround.trans round) (hreview.trans review)
  | disputed status round case judges =>
    exact .disputed (hstatus.trans status) (by rwa [hround, hshare]) (hcase.trans case)
      (by rwa [hterms])
  | ruled status round appeal ruling judges =>
    exact .ruled (hstatus.trans status) (by rwa [hround]) (happeal.trans appeal)
      (hshare.trans ruling) (by rwa [hterms])
  | settled status => exact .settled (hstatus ▸ status)

/-- **The invariant of an order record.** -/
structure Order.Sound (id : String) (order : Order) : Prop where
  id_eq : order.id = id
  identifier : IsIdentifier id
  distinct : order.buyer ≠ order.provider
  keys : IsKey order.buyer ∧ IsKey order.provider
  price : 0 ≤ order.price ∧ order.price ≤ MAX_MINOR
  seated : Seated order.terms.judges order.buyer order.provider
  timeoutShare : 0 ≤ order.terms.disputeTimeoutShare ∧ order.terms.disputeTimeoutShare ≤ 10000
  phase : order.PhaseSet
  buyerReserve : order.buyerReserve = buyerFees order.terms.judges order.roundsLeft
  providerReserve : order.providerReserve = providerFees order.terms.judges order.roundsLeft
  refunds : order.refundRequests.Nodup ∧ ∀ k ∈ order.refundRequests, k ∈ order.parties
  pending : ¬ order.status.Terminal → order.refundRequests.length ≤ 1
  waivers : order.waivers.Nodup ∧ ∀ k ∈ order.waivers, k ∈ order.parties
  evidence : ∀ k ∈ order.evidence.keys, k ∈ order.parties
  share : ∀ s, order.rulingShare = some s → 0 ≤ s ∧ s ≤ 10000
  revisions : 0 ≤ order.deliveryRevisions ∧ order.deliveryRevisions ≤ 3

/-- Distinct members of a pair number at most two. -/
theorem length_le_two_of_parties {names : List String} {buyer : String} (hnodup : names.Nodup)
    (hsub : ∀ k ∈ names, k ∈ [buyer, provider]) : names.length ≤ 2 := by
  simpa using (hnodup.subperm fun k hk => hsub k hk).length_le

/-- The operations the parties can have spent on reaching the order's phase,
within the dispute rounds. -/
def Order.roundOps (order : Order) : Int :=
  match order.status with
  | .disputed => (if order.round = some 1 then 7 else 1) + order.evidence.keys.length
  | .rulingReady => (if order.round = some 1 then 10 else 4) + order.waivers.length
  | _ => 0

/-- The operations spent, by what they left on the record. -/
def Order.spent (order : Order) : Int :=
  order.deliveryRevisions + order.refundRequests.length + order.roundOps

/-- An open order has spent no more of its reserve than its record shows. -/
def Order.Budgeted (order : Order) : Prop :=
  ¬ order.status.Terminal → ORDER_OPERATION_RESERVE ≤ order.remainingOps + order.spent

namespace Order.Sound

variable {id : String} {order : Order}

theorem reserves_nonneg (h : order.Sound id) :
    0 ≤ order.buyerReserve ∧ 0 ≤ order.providerReserve := by
  rw [h.buyerReserve, h.providerReserve]
  constructor
  all_goals
    refine List.sum_nonneg fun x hx => ?_
    obtain ⟨r, -, rfl⟩ := List.mem_map.mp hx
    have := h.seated.panelFee_nonneg r
    omega

/-- No open order runs out of operations: at most sixteen of the twenty-four
leave it open. -/
theorem remaining (h : order.Sound id) (hbudget : order.Budgeted)
    (hopen : ¬ order.status.Terminal) : 8 ≤ order.remainingOps := by
  have hb : 24 ≤ order.remainingOps + order.spent := hbudget hopen
  have hrevisions := h.revisions.2
  have hrefunds := h.pending hopen
  have hwaivers := length_le_two_of_parties h.waivers.1 h.waivers.2
  have hevidence := length_le_two_of_parties order.evidence.keys_nodup h.evidence
  have hround : order.roundOps ≤ 12 := by
    unfold Order.roundOps
    split
    · split <;> omega
    · split <;> omega
    · omega
  unfold Order.spent at hb
  omega

theorem charged (h : order.Sound id) (n : Int) : { order with remainingOps := n }.Sound id where
  id_eq := h.id_eq
  identifier := h.identifier
  distinct := h.distinct
  keys := h.keys
  price := h.price
  seated := h.seated
  timeoutShare := h.timeoutShare
  phase := h.phase.congr rfl rfl rfl rfl rfl rfl rfl
  buyerReserve := h.buyerReserve
  providerReserve := h.providerReserve
  refunds := h.refunds
  pending := h.pending
  waivers := h.waivers
  evidence := h.evidence
  share := h.share
  revisions := h.revisions

end Order.Sound

/-! ### One step -/

section Step

variable {C : Codec} {config : Config} {network owner id : String} {value : Json}
  {timestamp : Int} {order order' : Order} {action : OrderAction}

theorem append_party {names : List String} (hnodup : names.Nodup)
    (hsub : ∀ k ∈ names, k ∈ order.parties) (hfresh : owner ∉ names)
    (hparty : owner ∈ order.parties) :
    (names ++ [owner]).Nodup ∧ ∀ k ∈ names ++ [owner], k ∈ order.parties := by
  refine ⟨List.nodup_append.mpr ⟨hnodup, List.pairwise_singleton _ _, ?_⟩, ?_⟩
  · intro a ha b hb hab
    rw [List.mem_singleton] at hb
    exact hfresh (hb ▸ hab ▸ ha)
  · intro k hk
    rcases List.mem_append.mp hk with hk | hk
    · exact hsub k hk
    · exact List.mem_singleton.mp hk ▸ hparty

theorem timeoutShare_bounded (h : order.Sound id) {share : Int}
    (hs : timeoutShare order = .ok share) : 0 ≤ share ∧ share ≤ 10000 := by
  unfold timeoutShare at hs
  split at hs
  · exact h.share share (need_ok.mp hs)
  · split at hs
    · exact pure_ok.mp hs ▸ h.timeoutShare
    · exact pure_ok.mp hs ▸ ⟨le_refl 0, by norm_num⟩

theorem SignedRulings.middle_bounded {caseHash : String} {rulings : List Json}
    {signers : List String} {shares : List Int}
    (h : SignedRulings C network judges caseHash rulings signers shares)
    (hthree : rulings.length = 3) : 0 ≤ middle shares ∧ middle shares ≤ 10000 := by
  obtain ⟨i, hi, hget⟩ := List.getElem_of_mem (middle_mem (by rw [h.shares_length, hthree]))
  have h1 := h.signers_length
  have h2 := h.shares_length
  rw [← hget]
  exact (h.each i (by omega) (by omega) hi).bounded

/-- **An order action keeps the record sound.** -/
theorem OrderStep.sound (hsound : order.Sound id) (hparty : owner ∈ order.parties)
    (hopen : ¬ order.status.Terminal)
    (h : OrderStep C config network owner value timestamp order action order') :
    order'.Sound id := by
  have hphase := hsound.phase
  cases h with
  | @deliver reviewUntil hash sealed byProvider phase inTime revisions review beforeReview =>
    have hround : order.round = none := by
      rcases phase with hw | hd <;> cases hphase <;> simp_all
    have hleft : order.roundsLeft = [0, 1] := by
      rcases phase with hw | hd <;> simp [Order.roundsLeft, *]
    exact { hsound with
      phase := .delivered rfl hround rfl
      buyerReserve := by rw [hsound.buyerReserve, hleft]; rfl
      providerReserve := by rw [hsound.providerReserve, hleft]; rfl
      pending := fun _ => hsound.pending hopen
      revisions := by
        have := hsound.revisions
        constructor <;> simp only [] <;> omega }
  | refund fresh single =>
    have hnew := append_party hsound.refunds.1 hsound.refunds.2 fresh hparty
    exact { hsound with
      phase := hphase.congr rfl rfl rfl rfl rfl rfl rfl
      refunds := hnew
      pending := fun _ => by
        have := length_le_two_of_parties hnew.1 hnew.2
        simp only [] at single ⊢
        omega }
  | dispute phase deadline inTime judges =>
    have hleft : order.roundsLeft = [0, 1] := by
      rcases phase with hw | hd <;> simp [Order.roundsLeft, *]
    have hsix : order.terms.judges.length = 6 := by
      rcases hsound.seated.size with h | h <;> omega
    exact { hsound with
      phase := .disputed rfl (.inl rfl) rfl hsix
      buyerReserve := by rw [hsound.buyerReserve, hleft]; rfl
      providerReserve := by rw [hsound.providerReserve, hleft]; rfl
      pending := fun _ => hsound.pending hopen
      waivers := by simp
      evidence := by simp [Dict.keys, Dict.empty] }
  | evidence phase deadline inTime fresh =>
    exact { hsound with
      phase := hphase.congr rfl rfl rfl rfl rfl rfl rfl
      evidence := fun k hk => by
        rcases Dict.mem_keys_set.mp hk with rfl | hk
        · exact hparty
        · exact hsound.evidence k hk }
  | @rule ends round caseFile rulings signers shares phase complete deadline inTime current rounds
      judges neutral case carried three signed close buyerFee providerFee =>
      have hsix : order.terms.judges.length = 6 := by
        rcases hsound.seated.size with h | h <;> omega
      have hleft := hsound.buyerReserve
      have hleft' := hsound.providerReserve
      exact { hsound with
        phase := .ruled rfl (by rcases rounds with rfl | rfl <;> simp [current]) rfl rfl hsix
        buyerReserve := by
          rcases rounds with rfl | rfl <;>
            simp_all [Order.roundsLeft, buyerFees]
        providerReserve := by
          rcases rounds with rfl | rfl <;>
            simp_all [Order.roundsLeft, providerFees]
        pending := fun _ => hsound.pending hopen
        waivers := by simp
        share := fun s hs => by
          cases hs
          exact signed.middle_bounded three }
  | appeal phase first unwaived deadline inTime =>
    have hleft : order.roundsLeft = [1] := by simp [Order.roundsLeft, phase, first]
    cases hphase with
    | ruled _ _ _ ruling hsix =>
      exact { hsound with
        phase := .disputed rfl (.inr ⟨rfl, by simp [ruling]⟩) rfl hsix
        buyerReserve := by rw [hsound.buyerReserve, hleft]; rfl
        providerReserve := by rw [hsound.providerReserve, hleft]; rfl
        pending := fun _ => hsound.pending hopen
        waivers := by simp
        evidence := by simp [Dict.keys, Dict.empty] }
    | _ => simp_all
  | waive phase fresh =>
    exact { hsound with
      phase := hphase.congr rfl rfl rfl rfl rfl rfl rfl
      waivers := append_party hsound.waivers.1 hsound.waivers.2 fresh hparty }
  | @settle _ refunds paid status reason bounded =>
    have hterminal := reason.terminal
    have hleft : (order.closed refunds paid status).roundsLeft = [] := by
      rcases hterminal with h | h | h <;> simp [Order.roundsLeft, Order.closed, h]
    exact { hsound with
      phase := .settled hterminal
      buyerReserve := by rw [hleft]; rfl
      providerReserve := by rw [hleft]; rfl
      refunds := by
        cases reason with
        | refunded fresh both => exact append_party hsound.refunds.1 hsound.refunds.2 fresh hparty
        | _ => exact hsound.refunds
      pending := fun hopen' => absurd hterminal hopen' }

/-- **An action that leaves the order open shows on its record**, as a
delivery, a refund request, or progress through a dispute round. -/
theorem OrderStep.spent_lt (hsound : order.Sound id)
    (h : OrderStep C config network owner value timestamp order action order')
    (hopen' : ¬ order'.status.Terminal) :
    order'.remainingOps = order.remainingOps ∧ order.spent + 1 ≤ order'.spent := by
  cases h with
  | deliver byProvider phase =>
    have hops : order.roundOps = 0 := by
      rcases phase with h | h <;> simp [Order.roundOps, h]
    refine ⟨rfl, ?_⟩
    simp only [Order.spent, hops]
    simp only [Order.roundOps]
    omega
  | refund fresh single =>
    refine ⟨rfl, ?_⟩
    simp only [Order.spent, Order.roundOps, List.length_append, List.length_singleton]
    omega
  | dispute phase deadline inTime judges =>
    have hops : order.roundOps = 0 := by
      rcases phase with h | h <;> simp [Order.roundOps, h]
    refine ⟨rfl, ?_⟩
    simp only [Order.spent, hops]
    simp [Order.roundOps, Dict.keys, Dict.empty]
  | @evidence ends entry phase deadline inTime fresh =>
    have hlength : (order.evidence.set owner entry).keys.length =
        order.evidence.keys.length + 1 := by
      simp [Dict.keys, Dict.entries_set_of_new entry fresh]
    refine ⟨rfl, ?_⟩
    simp only [Order.spent, Order.roundOps, phase, hlength]
    omega
  | rule phase complete deadline inTime current rounds =>
    have htwo := length_le_two_of_parties order.evidence.keys_nodup hsound.evidence
    refine ⟨rfl, ?_⟩
    rcases rounds with rfl | rfl <;>
      simp [Order.spent, Order.roundOps, phase, current] <;> omega
  | appeal phase first unwaived deadline inTime =>
    have htwo := length_le_two_of_parties hsound.waivers.1 hsound.waivers.2
    refine ⟨rfl, ?_⟩
    simp [Order.spent, Order.roundOps, phase, first, Dict.keys, Dict.empty]
    omega
  | waive phase fresh =>
    refine ⟨rfl, ?_⟩
    simp only [Order.spent, Order.roundOps, phase, List.length_append, List.length_singleton]
    omega
  | settle reason bounded => exact absurd reason.terminal hopen'

theorem OrderStep.budgeted (hsound : order.Sound id) (hbudget : order.Budgeted)
    (hopen : ¬ order.status.Terminal)
    (h : OrderStep C config network owner value timestamp
      { order with remainingOps := order.remainingOps - 1 } action order') :
    order'.Budgeted := by
  intro hopen'
  obtain ⟨hops, hspent⟩ := h.spent_lt (hsound.charged _) hopen'
  have := hbudget hopen
  have hsame : { order with remainingOps := order.remainingOps - 1 }.spent = order.spent := rfl
  simp only [hsame] at hops hspent
  omega

end Step

/-! ### Later records of an order -/

/-- The round of an order, counted from before the first dispute. -/
def Order.roundRank (order : Order) : Nat :=
  order.round.elim 0 (· + 1)

theorem Order.roundRank_eq_iff {a b : Order} : a.roundRank = b.roundRank ↔ a.round = b.round := by
  unfold Order.roundRank
  cases a.round <;> cases b.round <;> simp

/-- What an agreement fixes for good. -/
structure Order.SameContract (a b : Order) : Prop where
  id : b.id = a.id
  buyer : b.buyer = a.buyer
  provider : b.provider = a.provider
  terms : b.terms = a.terms
  price : b.price = a.price

/-- **A later record of the same order.**  Phases and rounds go forward;
operations run down; a settled record stays; the statements and the deadline
of a round, the delivery of a disputed order and the waivers of a ruling stay
as they are; reserves only shrink. -/
structure Evolves (a b : Order) : Prop where
  contract : a.SameContract b
  operations : b = a ∨ b.remainingOps < a.remainingOps
  stage : a.stage ≤ b.stage
  round : a.roundRank ≤ b.roundRank
  settled : a.status.Terminal → b = a
  evidence : a.round = b.round → ∀ party statement,
    a.evidence.get? party = some statement → b.evidence.get? party = some statement
  caseUntil : a.round = b.round → 2 ≤ a.stage → b.caseUntil = a.caseUntil
  delivery : 2 ≤ a.stage → b.deliveryHash = a.deliveryHash ∧ b.delivery = a.delivery
  waivers : a.stage = b.stage → ∀ party ∈ a.waivers, party ∈ b.waivers
  reserves : b.buyerReserve ≤ a.buyerReserve ∧ b.providerReserve ≤ a.providerReserve

namespace Evolves

theorem refl (a : Order) : Evolves a a where
  contract := ⟨rfl, rfl, rfl, rfl, rfl⟩
  operations := .inl rfl
  stage := Nat.le_refl _
  round := Nat.le_refl _
  settled _ := rfl
  evidence _ _ _ h := h
  caseUntil _ _ := rfl
  delivery _ := ⟨rfl, rfl⟩
  waivers _ _ h := h
  reserves := ⟨le_refl _, le_refl _⟩

theorem trans {a b c : Order} (hab : Evolves a b) (hbc : Evolves b c) : Evolves a c where
  contract := by
    obtain ⟨h1, h2, h3, h4, h5⟩ := hab.contract
    obtain ⟨g1, g2, g3, g4, g5⟩ := hbc.contract
    exact ⟨g1.trans h1, g2.trans h2, g3.trans h3, g4.trans h4, g5.trans h5⟩
  operations := by
    rcases hab.operations with rfl | h
    · exact hbc.operations
    · rcases hbc.operations with rfl | g
      · exact .inr h
      · exact .inr (g.trans h)
  stage := hab.stage.trans hbc.stage
  round := hab.round.trans hbc.round
  settled h := by
    have hb := hab.settled h
    exact (hbc.settled (hb ▸ h)).trans hb
  evidence h party statement hget := by
    have hac := Order.roundRank_eq_iff.mpr h
    have hle := hab.round
    have hle' := hbc.round
    exact hbc.evidence (Order.roundRank_eq_iff.mp (by omega)) party statement
      (hab.evidence (Order.roundRank_eq_iff.mp (by omega)) party statement hget)
  caseUntil h hstage := by
    have hac := Order.roundRank_eq_iff.mpr h
    have hle := hab.round
    have hle' := hbc.round
    have hs := hab.stage
    exact (hbc.caseUntil (Order.roundRank_eq_iff.mp (by omega)) (by omega)).trans
      (hab.caseUntil (Order.roundRank_eq_iff.mp (by omega)) hstage)
  delivery h := by
    have hs := hab.stage
    obtain ⟨h1, h2⟩ := hab.delivery h
    obtain ⟨g1, g2⟩ := hbc.delivery (by omega)
    exact ⟨g1.trans h1, g2.trans h2⟩
  waivers h party hmem := by
    have hs := hab.stage
    have hs' := hbc.stage
    exact hbc.waivers (by omega) party (hab.waivers (by omega) party hmem)
  reserves := ⟨hbc.reserves.1.trans hab.reserves.1, hbc.reserves.2.trans hab.reserves.2⟩

end Evolves

/-- **A charged action takes an order to a later record.** -/
theorem OrderStep.evolves {C : Codec} {config : Config} {network owner id : String}
    {value : Json} {timestamp : Int} {order order' : Order} {action : OrderAction}
    (hsound : order.Sound id) (hopen : ¬ order.status.Terminal) (hpositive : 0 < order.remainingOps)
    (h : OrderStep C config network owner value timestamp
      { order with remainingOps := order.remainingOps - 1 } action order') :
    Evolves order order' := by
  have hphase := hsound.phase
  have hreserves := hsound.reserves_nonneg
  have hfees := hsound.seated.panelFee_nonneg
  cases h with
  | deliver byProvider phase =>
    have hstage : order.stage ≤ 1 := by
      rcases phase with h | h <;> simp only [] at h <;> simp [Order.stage, h]
    exact { Evolves.refl order with
      contract := ⟨rfl, rfl, rfl, rfl, rfl⟩
      operations := .inr (by simp only []; omega)
      stage := hstage
      settled := fun h => absurd h hopen
      caseUntil := fun _ h => by omega
      delivery := fun h => by omega
      waivers := fun _ _ h => h }
  | refund fresh single =>
    exact { Evolves.refl order with
      contract := ⟨rfl, rfl, rfl, rfl, rfl⟩
      operations := .inr (by simp only []; omega)
      settled := fun h => absurd h hopen }
  | dispute phase =>
    have hstage : order.stage ≤ 1 := by
      rcases phase with h | h <;> simp only [] at h <;> simp [Order.stage, h]
    have hround : order.round = none := by
      rcases phase with h | h <;> simp only [] at h <;> cases hphase <;> simp_all
    exact { Evolves.refl order with
      contract := ⟨rfl, rfl, rfl, rfl, rfl⟩
      operations := .inr (by simp only []; omega)
      stage := by simp only [Order.stage] at hstage ⊢; simp; omega
      round := by simp [Order.roundRank, hround]
      settled := fun h => absurd h hopen
      evidence := fun h => by simp [hround] at h
      caseUntil := fun _ h => by omega
      delivery := fun h => by omega
      waivers := fun h => by simp [Order.stage] at h hstage; omega }
  | evidence phase deadline inTime fresh =>
    exact { Evolves.refl order with
      contract := ⟨rfl, rfl, rfl, rfl, rfl⟩
      operations := .inr (by simp only []; omega)
      settled := fun h => absurd h hopen
      evidence := fun _ party statement h => by
        have hne : party ≠ owner := fun he =>
          fresh (he ▸ Dict.mem_keys_of_get? h)
        simpa [hne] using h }
  | @rule ends round caseFile rulings signers shares phase complete deadline inTime current rounds
      judges neutral case carried three signed close buyerFee providerFee =>
      simp only [] at phase current
      have hstage : order.stage = if order.round = some 1 then 4 else 2 := by
        simp [Order.stage, phase]
      have hfee := hfees round
      exact { Evolves.refl order with
        contract := ⟨rfl, rfl, rfl, rfl, rfl⟩
        operations := .inr (by simp only []; omega)
        stage := by rw [hstage]; simp only [Order.stage]; split <;> omega
        settled := fun h => absurd h hopen
        waivers := fun h => by rw [hstage] at h; simp only [Order.stage] at h; split at h <;> omega
        reserves := by simp only []; omega }
  | appeal phase first =>
    simp only [] at phase first
    have hstage : order.stage = 3 := by simp [Order.stage, phase, first]
    exact { Evolves.refl order with
      contract := ⟨rfl, rfl, rfl, rfl, rfl⟩
      operations := .inr (by simp only []; omega)
      stage := by rw [hstage]; simp [Order.stage]
      round := by simp [Order.roundRank, first]
      settled := fun h => absurd h hopen
      evidence := fun h => by simp [first] at h
      caseUntil := fun h => by simp [first] at h
      waivers := fun h => by rw [hstage] at h; simp [Order.stage] at h }
  | waive phase fresh =>
    exact { Evolves.refl order with
      contract := ⟨rfl, rfl, rfl, rfl, rfl⟩
      operations := .inr (by simp only []; omega)
      settled := fun h => absurd h hopen
      waivers := fun _ _ h => List.mem_append_left _ h }
  | @settle _ refunds paid status reason bounded =>
    have hstage := Order.stage_le_five hopen
    have hlast : (order.closed refunds paid status).stage = 6 := by
      rcases reason.terminal with h | h | h <;> simp [Order.stage, Order.closed, h]
    exact { Evolves.refl order with
      contract := ⟨rfl, rfl, rfl, rfl, rfl⟩
      operations := .inr hpositive
      stage := hlast ▸ (by omega)
      settled := fun h => absurd h hopen
      waivers := fun _ _ h => h
      reserves := hreserves }

end Exchange
