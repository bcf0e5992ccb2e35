import Rynmesh.ExchangeProtocol

/-!
# What an order action does

The ten order actions of `ExchangeOrders`, read backwards.

* `OrderStep` lists every way an action can turn an order into its next
  record, with the guards the action passed;
* `orderAction_step` is the inversion: an accepted action made one of them;
* `orderAction_flow` is its accounting: the held balances move by exactly what
  the order's escrow moved, no available balance shrinks, and no coin is made
  or lost.
-/

namespace Exchange

open Checked

/-! ### Panels and rulings -/

variable {judges : List Judge}

theorem judgePanel_ok {eligible : List Judge} {buyer provider : String} {round : Nat} :
    judgePanel eligible buyer provider round = .ok judges ↔
      (round = 0 ∨ round = 1) ∧ 6 ≤ eligible.length ∧
        (∀ j ∈ panel eligible round, j.peerId ∉ [buyer, provider]) ∧
        judges = panel eligible round := by
  rw [eq_comm (a := judges)]
  simp [judgePanel, bind_ok]

variable (C : Codec)

/-- One ruling of a panel over a case: signed by a judge of the panel, on that
case, with that judge's model and a share of the price. -/
structure SignedRuling (network : String) (judges : List Judge) (caseHash : String)
    (wire : Json) (signer : String) (share : Int) : Prop where
  signed : ∃ payload, signature C wire = .ok ⟨payload, signer⟩ ∧
    payload.get? "network" = some (.str network) ∧
    payload.get? "case_hash" = some (.str caseHash) ∧
    payload.get? "share_bps" = some (.int share) ∧
    ∃ judge ∈ judges, judge.peerId = signer ∧ payload.get? "model" = some (.str judge.model)
  bounded : 0 ≤ share ∧ share ≤ 10000

/-- The rulings of a case: one signer and one share for each, no signer
twice. -/
structure SignedRulings (network : String) (judges : List Judge) (caseHash : String)
    (rulings : List Json) (signers : List String) (shares : List Int) : Prop where
  signers_length : signers.length = rulings.length
  shares_length : shares.length = rulings.length
  distinct : signers.Nodup
  each : ∀ i (hr : i < rulings.length) (hk : i < signers.length) (hs : i < shares.length),
    SignedRuling C network judges caseHash rulings[i] signers[i] shares[i]

variable {C}

theorem checkRuling_ok {version network caseHash : String} {acc next : List String × List Int}
    {wire : Json} (h : checkRuling C version network judges caseHash acc wire = .ok next) :
    ∃ signer share, signer ∉ acc.1 ∧ SignedRuling C network judges caseHash wire signer share ∧
      next = (acc.1 ++ [signer], acc.2 ++ [share]) := by
  simp only [checkRuling, bind_ok, demand_ok, require_ok, need_ok, pure_ok, integer_ok] at h
  obtain ⟨⟨payload, signer⟩, hsigned, judge, hjudge, -, hfresh, -, -, -, ⟨-, -, hnetwork⟩, -,
    ⟨hcase, hmodel⟩, -, -, _, hshare, share, ⟨rfl, hbounds⟩, rfl⟩ := h
  have hpeer : judge.peerId = signer := by simpa using List.find?_some hjudge
  have hmem : judge ∈ judges := List.mem_of_find?_eq_some hjudge
  exact ⟨signer, share, hfresh,
    ⟨⟨payload, hsigned, hnetwork, hcase, hshare, judge, hmem, hpeer, hmodel⟩, hbounds⟩, rfl⟩

variable {shares : List Int}

theorem checkRulings_ok {version network caseHash : String} {rulings : List Json}
    {signers : List String}
    (h : rulings.foldlM (checkRuling C version network judges caseHash) ([], []) =
      .ok (signers, shares)) : SignedRulings C network judges caseHash rulings signers shares := by
  have hrun := foldlM_ok_induction
    (fun done (acc : List String × List Int) =>
      SignedRulings C network judges caseHash done acc.1 acc.2)
    (fun done acc wire next hdone hnext => ?_) rulings [] ([], []) (signers, shares)
    ⟨rfl, rfl, List.nodup_nil, fun i hr => absurd hr (Nat.not_lt_zero i)⟩ h
  · simpa using hrun
  · obtain ⟨signer, share, hfresh, hruling, rfl⟩ := checkRuling_ok hnext
    refine ⟨by simp [hdone.signers_length], by simp [hdone.shares_length], ?_, ?_⟩
    · simpa [List.nodup_append] using ⟨hdone.distinct, fun a ha e => hfresh (e ▸ ha)⟩
    · intro i hr hk hs
      have h1 := hdone.signers_length
      have h2 := hdone.shares_length
      by_cases hi : i < done.length
      · simpa [List.getElem_append, hi, h1, h2] using hdone.each i hi (by omega) (by omega)
      · have hi' : i = done.length := by
          simp only [List.length_append, List.length_singleton] at hr
          omega
        subst hi'
        simpa [List.getElem_append, h1, h2] using hruling

theorem sub_le_spread {a b : Int} (ha : a ∈ shares) (hb : b ∈ shares) : a - b ≤ spread shares := by
  obtain ⟨hi, hhi⟩ : ∃ m, shares.max? = some m :=
    Option.isSome_iff_exists.mp (List.isSome_max?_of_mem ha)
  obtain ⟨lo, hlo⟩ : ∃ m, shares.min? = some m :=
    Option.isSome_iff_exists.mp (List.isSome_min?_of_mem ha)
  have hle := (List.max?_eq_some_iff.mp hhi).2 a ha
  have hge := (List.min?_eq_some_iff.mp hlo).2 b hb
  simp only [spread, hhi, hlo, Option.getD_some]
  omega

theorem middle_mem (h : shares.length = 3) : middle shares ∈ shares := by
  have hlen : (shares.insertionSort (· ≤ ·)).length = 3 := by simp [h]
  have hmem : middle shares ∈ shares.insertionSort (· ≤ ·) := by
    unfold middle
    rw [List.getD_eq_getElem?_getD, List.getElem?_eq_getElem (by omega), Option.getD_some]
    exact List.getElem_mem _
  simpa using hmem

/-! ### The steps of an order -/

/-- The record of a settled order. -/
def Order.closed (order : Order) (refunds : List String) (paid : Int) (status : Status) : Order :=
  { order with
    refundRequests := refunds, status, paid := some paid, buyerReserve := 0,
    providerReserve := 0, remainingOps := 0 }

/-- Why an order settles, and at which payment. -/
inductive Settles (owner : String) (timestamp : Int) (order : Order) :
    OrderAction → List String → Int → Status → Prop
  | accepted (byBuyer : owner = order.buyer) (delivered : order.status = .delivered) :
      Settles owner timestamp order .accept order.refundRequests order.price .accepted
  | refunded (fresh : owner ∉ order.refundRequests)
      (both : (order.refundRequests ++ [owner]).length = 2) :
      Settles owner timestamp order .refund (order.refundRequests ++ [owner]) 0 .refunded
  | finalized {ends share : Int} (ruled : order.status = .rulingReady)
      (appeal : order.appealUntil = some ends)
      (ended : ends ≤ timestamp ∨ order.waivers.length = 2)
      (ruling : order.rulingShare = some share) :
      Settles owner timestamp order .finalize order.refundRequests
        (order.price * share / 10000) .resolved
  | undelivered (working : order.status = .working) (ended : order.deliveryUntil ≤ timestamp) :
      Settles owner timestamp order .timeout order.refundRequests 0 .refunded
  | unreviewed {ends : Int} (delivered : order.status = .delivered)
      (review : order.reviewUntil = some ends) (ended : ends ≤ timestamp) :
      Settles owner timestamp order .timeout order.refundRequests order.price .accepted
  | unresolved {ends share : Int} (late : order.status ≠ .working ∧ order.status ≠ .delivered)
      (deadline : order.deadline = .ok ends) (ended : ends ≤ timestamp)
      (outcome : timeoutShare order = .ok share) :
      Settles owner timestamp order .timeout order.refundRequests
        (order.price * share / 10000) .resolved

/-- **Every way an order moves.**  One constructor for each action that leaves
the order open, and one for all that settle it. -/
inductive OrderStep (C : Codec) (config : Config) (network owner : String) (value : Json)
    (timestamp : Int) (order : Order) : OrderAction → Order → Prop
  | deliver {reviewUntil : Int} {hash : String} {sealed : Json}
      (byProvider : owner = order.provider)
      (phase : order.status = .working ∨ order.status = .delivered)
      (inTime : timestamp < order.deliveryUntil) (revisions : order.deliveryRevisions < 3)
      (review : if order.status = .working then reviewUntil = timestamp + order.terms.reviewWindow
        else order.reviewUntil = some reviewUntil)
      (beforeReview : timestamp < reviewUntil) :
      OrderStep C config network owner value timestamp order .deliver
        { order with
          deliveryRevisions := order.deliveryRevisions + 1, reviewUntil := some reviewUntil,
          status := .delivered, deliveryHash := some hash, delivery := some sealed }
  | refund (fresh : owner ∉ order.refundRequests)
      (single : (order.refundRequests ++ [owner]).length ≠ 2) :
      OrderStep C config network owner value timestamp order .refund
        { order with refundRequests := order.refundRequests ++ [owner] }
  | dispute {ends : Int} (phase : order.status = .working ∨ order.status = .delivered)
      (deadline : order.deadline = .ok ends) (inTime : timestamp < ends)
      (judges : 6 ≤ order.terms.judges.length) :
      OrderStep C config network owner value timestamp order .dispute
        { order with
          status := .disputed, round := some 0, evidence := .empty, waivers := [],
          caseUntil := some (timestamp + order.terms.caseWindow) }
  | evidence {ends : Int} {entry : Evidence} (phase : order.status = .disputed)
      (deadline : order.caseUntil = some ends) (inTime : timestamp < ends)
      (fresh : owner ∉ order.evidence.keys) :
      OrderStep C config network owner value timestamp order .evidence
        { order with evidence := order.evidence.set owner entry }
  | rule {ends : Int} {round : Nat} {caseFile : Json} {rulings : List Json}
      {signers : List String} {shares : List Int} (phase : order.status = .disputed)
      (complete : ∀ k, k ∈ order.evidence.keys ↔ k ∈ order.parties)
      (deadline : order.caseUntil = some ends) (inTime : timestamp < ends)
      (current : order.round = some round) (rounds : round = 0 ∨ round = 1)
      (judges : 6 ≤ order.terms.judges.length)
      (neutral : ∀ j ∈ panel order.terms.judges round, j.peerId ∉ order.parties)
      (case : casePayload config order round = .ok caseFile)
      (carried : value.get? "rulings" = some (.arr rulings)) (three : rulings.length = 3)
      (signed : SignedRulings C network (panel order.terms.judges round) (C.sha256 caseFile)
        rulings signers shares)
      (close : spread shares ≤ 1000)
      (buyerFee : (panelFee (panel order.terms.judges round) + 1) / 2 ≤ order.buyerReserve)
      (providerFee : panelFee (panel order.terms.judges round) / 2 ≤ order.providerReserve) :
      OrderStep C config network owner value timestamp order .rule
        { order with
          buyerReserve :=
            order.buyerReserve - (panelFee (panel order.terms.judges round) + 1) / 2,
          providerReserve :=
            order.providerReserve - panelFee (panel order.terms.judges round) / 2,
          status := .rulingReady, rulingShare := some (middle shares),
          rulings := some rulings, appealUntil := some (timestamp + config.appealWindow),
          waivers := [] }
  | appeal {ends : Int} (phase : order.status = .rulingReady) (first : order.round = some 0)
      (unwaived : owner ∉ order.waivers) (deadline : order.appealUntil = some ends)
      (inTime : timestamp < ends) :
      OrderStep C config network owner value timestamp order .appeal
        { order with
          status := .disputed, round := some 1, evidence := .empty, waivers := [],
          caseUntil := some (timestamp + order.terms.caseWindow) }
  | waive (phase : order.status = .rulingReady) (fresh : owner ∉ order.waivers) :
      OrderStep C config network owner value timestamp order .waive
        { order with waivers := order.waivers ++ [owner] }
  | settle {action : OrderAction} {refunds : List String} {paid : Int} {status : Status}
      (reason : Settles owner timestamp order action refunds paid status)
      (bounded : 0 ≤ paid ∧ paid ≤ order.price) :
      OrderStep C config network owner value timestamp order action
        (order.closed refunds paid status)

section Inversion

variable {config : Config} {network owner : String} {value : Json} {timestamp : Int}
  {state state' : State Order} {order order' : Order}

variable {paid : Int} {status : Status}

theorem close_ok (h : close state order paid status = .ok (state', order')) :
    (0 ≤ paid ∧ paid ≤ order.price) ∧
      order' = order.closed order.refundRequests paid status ∧
      Flow state state'
        (fun o => amountAt order.buyer (order.price + order.buyerReserve - paid) o +
          amountAt order.provider (order.providerReserve + paid) o)
        (fun o => -(amountAt order.buyer (order.price + order.buyerReserve) o +
          amountAt order.provider order.providerReserve o)) 0 := by
  simp only [close, bind_ok, require_ok, pure_ok, Prod.mk.injEq] at h
  obtain ⟨-, hpaid, s1, h1, s2, h2, s3, h3, rfl, rfl⟩ := h
  refine ⟨hpaid, rfl, ?_⟩
  refine (((flow_unhold h1).trans (flow_unhold h2)).trans
    ((flow_spend s2 order.buyer paid).trans (flow_earn h3))).congr ?_ ?_ (by omega)
  all_goals
    intro o
    unfold amountAt
    split <;> split <;> omega

theorem reviewDeadline_ok {ends : Int} : reviewDeadline timestamp order = .ok ends ↔
    if order.status = .working then ends = timestamp + order.terms.reviewWindow
    else order.reviewUntil = some ends := by
  rw [eq_comm (a := ends)]
  by_cases h : order.status = .working <;> simp [reviewDeadline, h]

theorem deliver_ok (h : deliver owner value timestamp order = .ok order') :
    OrderStep C config network owner value timestamp order .deliver order' := by
  simp only [deliver, bind_ok, require_ok, need_ok, pure_ok] at h
  obtain ⟨-, -, -, ⟨hprovider, hphase⟩, -, htime, -, hrevisions, reviewUntil, hreview, -, hbefore,
    _, -, _, -, _, -, _, -, rfl⟩ := h
  exact .deliver hprovider hphase htime hrevisions (reviewDeadline_ok.mp hreview) hbefore

theorem accept_ok (timestamp : Int) (h : accept owner value state order = .ok (state', order')) :
    Settles owner timestamp order .accept order.refundRequests order.price .accepted ∧
      close state order order.price .accepted = .ok (state', order') := by
  simp only [accept, bind_ok, require_ok, need_ok] at h
  obtain ⟨-, ⟨-, hbuyer, hdelivered⟩, _, -, -, -, hclose⟩ := h
  exact ⟨.accepted hbuyer hdelivered, hclose⟩

theorem refund_ok (h : refund owner value state order = .ok (state', order')) :
    owner ∉ order.refundRequests ∧
      (((order.refundRequests ++ [owner]).length = 2 ∧
          close state { order with refundRequests := order.refundRequests ++ [owner] } 0
            .refunded = .ok (state', order')) ∨
        ((order.refundRequests ++ [owner]).length ≠ 2 ∧ state' = state ∧
          order' = { order with refundRequests := order.refundRequests ++ [owner] })) := by
  simp only [refund, bind_ok, require_ok] at h
  obtain ⟨-, -, -, hfresh, h⟩ := h
  refine ⟨hfresh, ?_⟩
  by_cases htwo : (order.refundRequests ++ [owner]).length = 2
  · rw [if_pos htwo] at h
    exact .inl ⟨htwo, h⟩
  · rw [if_neg htwo, pure_ok, Prod.mk.injEq] at h
    exact .inr ⟨htwo, h.1.symm, h.2.symm⟩

theorem dispute_ok (h : dispute value timestamp order = .ok order') :
    OrderStep C config network owner value timestamp order .dispute order' := by
  simp only [dispute, bind_ok, require_ok, pure_ok, Order.judgePanel, judgePanel_ok] at h
  obtain ⟨-, ⟨-, hphase⟩, ends, hends, -, htime, _, ⟨-, hsix, -⟩, _, -, rfl⟩ := h
  exact .dispute hphase hends htime hsix

theorem evidence_ok (h : evidence owner value timestamp order = .ok order') :
    OrderStep C config network owner value timestamp order .evidence order' := by
  simp only [evidence, bind_ok, require_ok, need_ok, pure_ok] at h
  obtain ⟨-, -, -, hphase, ends, hends, -, htime, -, hfresh, _, -, _, -, _, -, _, -, _, -, -, -, _,
    -, rfl⟩ := h
  exact .evidence hphase hends htime hfresh

theorem appeal_ok (h : appeal owner value timestamp order = .ok order') :
    OrderStep C config network owner value timestamp order .appeal order' := by
  simp only [appeal, bind_ok, require_ok, need_ok, pure_ok] at h
  obtain ⟨-, ⟨-, hphase⟩, round, hround, -, ⟨rfl, hwaived⟩, ends, hends, -, htime, rfl⟩ := h
  exact .appeal hphase hround hwaived hends htime

theorem confirmSettlement_ok {u : Unit} (h : confirmSettlement C value order = .ok u) :
    order.status = .rulingReady := by
  simp only [confirmSettlement, bind_ok, require_ok] at h
  obtain ⟨-, -, -, hphase⟩ := h
  exact hphase

theorem waive_ok (h : waive C owner value order = .ok order') :
    OrderStep C config network owner value timestamp order .waive order' := by
  simp only [waive, bind_ok, require_ok, pure_ok] at h
  obtain ⟨_, hconfirm, -, hfresh, rfl⟩ := h
  exact .waive (confirmSettlement_ok hconfirm) hfresh

theorem finalize_ok (owner : String)
    (h : finalize C value timestamp state order = .ok (state', order')) :
    ∃ share, Settles owner timestamp order .finalize order.refundRequests
        (order.price * share / 10000) .resolved ∧
      close state order (order.price * share / 10000) .resolved = .ok (state', order') := by
  simp only [finalize, bind_ok, require_ok, need_ok] at h
  obtain ⟨_, hconfirm, ends, hends, -, hover, share, hshare, hclose⟩ := h
  exact ⟨share, .finalized (confirmSettlement_ok hconfirm) hends hover hshare, hclose⟩

theorem timeout_ok (owner : String)
    (h : timeout C value timestamp state order = .ok (state', order')) :
    ∃ paid status, Settles owner timestamp order .timeout order.refundRequests paid status ∧
      close state order paid status = .ok (state', order') := by
  simp only [timeout, bind_ok, require_ok] at h
  obtain ⟨-, -, -, -, ends, hends, -, hover, h⟩ := h
  by_cases hw : order.status = .working
  · simp only [Order.deadline, hw, pure_ok] at hends
    rw [if_pos hw] at h
    exact ⟨_, _, .undelivered hw (hends ▸ hover), h⟩
  by_cases hd : order.status = .delivered
  · simp only [Order.deadline, hd, need_ok] at hends
    rw [if_neg hw, if_pos hd] at h
    exact ⟨_, _, .unreviewed hd hends hover, h⟩
  · rw [if_neg hw, if_neg hd, bind_ok] at h
    obtain ⟨share, hshare, hclose⟩ := h
    exact ⟨_, _, .unresolved ⟨hw, hd⟩ hends hover hshare, hclose⟩

theorem flow_payJudges (hfees : ∀ j ∈ judges, 0 ≤ j.fee) (h : payJudges state judges = .ok state') :
    ∃ available, (∀ o, 0 ≤ available o) ∧
      Flow state state' available (fun _ => 0) (panelFee judges) := by
  unfold payJudges at h
  induction judges generalizing state with
  | nil =>
    obtain rfl : state = state' := by simpa using h
    exact ⟨_, fun _ => le_refl 0, Flow.refl state⟩
  | cons judge rest ih =>
    rw [List.foldlM_cons, bind_ok] at h
    obtain ⟨next, hnext, hrest⟩ := h
    obtain ⟨available, hnonneg, hflow⟩ :=
      ih (fun j hj => hfees j (.tail _ hj)) hrest
    refine ⟨_, fun o => ?_, ((flow_earn hnext).trans hflow).congr (fun _ => rfl) (by simp)
      (by simp [panelFee])⟩
    have hfee := hfees judge (.head _)
    have := hnonneg o
    unfold amountAt
    split <;> omega

/-! ### The inversion and the accounting of an order action -/

/-- Taking the fees of a panel out of both holds. -/
theorem flow_charge (state : State Order) (buyer provider : String) (v w : Int) :
    Flow state ((state.update buyer fun row => { row with held := row.held - v }).update
        provider fun row => { row with held := row.held - w })
      (fun _ => 0) (fun o => -(amountAt buyer v o + amountAt provider w o)) (-(v + w)) := by
  refine ((flow_update state buyer (v := 0) (w := -v) (by simp) (fun _ => Int.sub_eq_add_neg)
    (by simp)).trans (flow_update _ provider (v := 0) (w := -w) (by simp)
      (fun _ => Int.sub_eq_add_neg) (by simp))).congr ?_ ?_ (by omega)
  all_goals
    intro o
    unfold amountAt
    split <;> split <;> omega

variable {action : OrderAction}

variable {refunds : List String}

theorem settle_step (hreason : Settles owner timestamp order action refunds paid status)
    (h : close state { order with refundRequests := refunds } paid status =
      .ok (state', order')) :
    OrderStep C config network owner value timestamp order action order' := by
  obtain ⟨hpaid, rfl, -⟩ := close_ok h
  exact .settle hreason hpaid

theorem rule_ok (owner : String)
    (h : rule C config network value timestamp state order = .ok (state', order')) :
    OrderStep C config network owner value timestamp order .rule order' ∧
      ∃ round s1 judges, order.round = some round ∧ judges = panel order.terms.judges round ∧
        Flow state s1 (fun _ => 0)
          (fun o => -(amountAt order.buyer ((panelFee judges + 1) / 2) o +
            amountAt order.provider (panelFee judges / 2) o)) (-panelFee judges) ∧
        payJudges s1 judges = .ok state' ∧
        order'.status = .rulingReady ∧ order'.buyer = order.buyer ∧
        order'.provider = order.provider ∧ order'.price = order.price ∧
        order'.buyerReserve = order.buyerReserve - (panelFee judges + 1) / 2 ∧
        order'.providerReserve = order.providerReserve - panelFee judges / 2 := by
  simp only [rule, bind_ok, require_ok, need_ok, demand_ok, guarded_ok, pure_ok, Prod.mk.injEq,
    Order.judgePanel, judgePanel_ok] at h
  obtain ⟨-, ⟨-, hphase⟩, -, ⟨hevidence, hparties⟩, ends, hends, -, htime, round, hround, _,
    ⟨hrounds, hsix, hneutral, rfl⟩, caseFile, hcase, rulings, hrulings, -, hthree,
    ⟨signers, shares⟩, hloop, -, hspread, -, ⟨hbuyer, hprovider⟩, s1, hpay, rfl, rfl⟩ := h
  have hcarried : value.get? "rulings" = some (.arr rulings) := by
    obtain ⟨v, hv, harr⟩ := Option.bind_eq_some_iff.mp hrulings
    cases v <;> simp_all [Json.asArr?]
  refine ⟨.rule hphase (fun k => ⟨hevidence k, hparties k⟩) hends htime hround hrounds hsix
    hneutral hcase hcarried hthree (checkRulings_ok hloop) hspread hbuyer hprovider,
    round, _, _, hround, rfl, ?_, hpay, rfl, rfl, rfl, rfl, rfl, rfl⟩
  exact (flow_charge state order.buyer order.provider _ _).congr (fun _ => rfl) (fun _ => rfl)
    (by omega)

/-- **Inversion.**  An accepted order action made one of the steps. -/
theorem orderAction_step
    (h : orderAction C config network owner value timestamp state order action =
      .ok (state', order')) :
    OrderStep C config network owner value timestamp order action order' := by
  cases action with
  | deliver =>
    simp only [orderAction, bind_ok, pure_ok, Prod.mk.injEq] at h
    obtain ⟨_, h, rfl, rfl⟩ := h
    exact deliver_ok h
  | accept =>
    obtain ⟨hreason, hclose⟩ := accept_ok timestamp h
    exact settle_step hreason hclose
  | refund =>
    obtain ⟨hfresh, ⟨hboth, hclose⟩ | ⟨hsingle, -, rfl⟩⟩ := refund_ok h
    · exact settle_step (.refunded hfresh hboth) hclose
    · exact .refund hfresh hsingle
  | dispute =>
    simp only [orderAction, bind_ok, pure_ok, Prod.mk.injEq] at h
    obtain ⟨_, h, rfl, rfl⟩ := h
    exact dispute_ok h
  | evidence =>
    simp only [orderAction, bind_ok, pure_ok, Prod.mk.injEq] at h
    obtain ⟨_, h, rfl, rfl⟩ := h
    exact evidence_ok h
  | rule => exact (rule_ok owner h).1
  | appeal =>
    simp only [orderAction, bind_ok, pure_ok, Prod.mk.injEq] at h
    obtain ⟨_, h, rfl, rfl⟩ := h
    exact appeal_ok h
  | waive =>
    simp only [orderAction, bind_ok, pure_ok, Prod.mk.injEq] at h
    obtain ⟨_, h, rfl, rfl⟩ := h
    exact waive_ok h
  | finalize =>
    obtain ⟨share, hreason, hclose⟩ := finalize_ok owner h
    exact settle_step hreason hclose
  | timeout =>
    obtain ⟨paid, status, hreason, hclose⟩ := timeout_ok owner h
    exact settle_step hreason hclose

/-- What an open order keeps in the hold of an account. -/
def Order.escrow (order : Order) (owner : String) : Int :=
  if order.status.Terminal then 0
  else amountAt order.buyer (order.price + order.buyerReserve) owner +
    amountAt order.provider order.providerReserve owner

theorem Settles.terminal (h : Settles owner timestamp order action refunds paid status) :
    status.Terminal := by
  cases h <;> simp

/-- An order action keeps the balances to the escrow. -/
structure Released (state state' : State Order) (order order' : Order) : Prop where
  flow : ∃ available, (∀ o, 0 ≤ available o) ∧
    Flow state state' available (fun o => order'.escrow o - order.escrow o) 0

/-- Actions that leave the balances and the escrow alone. -/
theorem released_same (hopen : ¬ order.status.Terminal) (hopen' : ¬ order'.status.Terminal)
    (h : order'.buyer = order.buyer ∧ order'.provider = order.provider ∧
      order'.price = order.price ∧ order'.buyerReserve = order.buyerReserve ∧
      order'.providerReserve = order.providerReserve) : Released state state order order' := by
  obtain ⟨hb, hp, hprice, hbr, hpr⟩ := h
  refine ⟨_, fun _ => le_refl 0, (Flow.refl state).congr (fun _ => rfl) (fun o => ?_) rfl⟩
  simp [Order.escrow, hopen, hopen', hb, hp, hprice, hbr, hpr]

theorem released_close (hopen : ¬ order.status.Terminal) (hterminal : status.Terminal)
    (hreserves : 0 ≤ order.buyerReserve ∧ 0 ≤ order.providerReserve)
    (h : close state { order with refundRequests := refunds } paid status =
      .ok (state', order')) : Released state state' order order' := by
  obtain ⟨hpaid, rfl, hflow⟩ := close_ok h
  refine ⟨_, fun o => ?_, hflow.congr (fun _ => rfl) (fun o => ?_) rfl⟩
  · simp only [] at hpaid ⊢
    unfold amountAt
    split <;> split <;> omega
  · simp [Order.escrow, Order.closed, hopen, hterminal]

/-- **Accounting.**  An order action moves the held balances by exactly the
change of the order's escrow, takes from no available balance, and neither
makes nor loses a coin. -/
theorem orderAction_flow (hopen : ¬ order.status.Terminal)
    (hreserves : 0 ≤ order.buyerReserve ∧ 0 ≤ order.providerReserve)
    (hfees : ∀ j ∈ order.terms.judges, 0 ≤ j.fee)
    (h : orderAction C config network owner value timestamp state order action =
      .ok (state', order')) : Released state state' order order' := by
  cases action with
  | accept =>
    obtain ⟨hreason, hclose⟩ := accept_ok timestamp h
    exact released_close hopen hreason.terminal hreserves hclose
  | refund =>
    obtain ⟨hfresh, ⟨hboth, hclose⟩ | ⟨-, rfl, rfl⟩⟩ := refund_ok h
    · exact released_close hopen (by simp) hreserves hclose
    · exact released_same hopen hopen (by simp)
  | finalize =>
    obtain ⟨share, hreason, hclose⟩ := finalize_ok owner h
    exact released_close hopen hreason.terminal hreserves hclose
  | timeout =>
    obtain ⟨paid, status, hreason, hclose⟩ := timeout_ok owner h
    exact released_close hopen hreason.terminal hreserves hclose
  | rule =>
    obtain ⟨-, round, s1, judges, -, hjudges, hheld, hpay, hstatus, hb, hp, hprice, hbr, hpr⟩ :=
      rule_ok owner h
    have hpanel : ∀ j ∈ judges, 0 ≤ j.fee := fun j hj => hfees j
      (List.mem_of_mem_drop (List.mem_of_mem_take (hjudges ▸ hj)))
    obtain ⟨available, hnonneg, hflow⟩ := flow_payJudges hpanel hpay
    refine ⟨available, hnonneg, (hheld.trans hflow).congr (by simp) (fun o => ?_) (by omega)⟩
    simp only [Order.escrow, hopen, hstatus, Status.not_terminal_rulingReady, if_false, hb, hp,
      hprice, hbr, hpr]
    unfold amountAt
    split <;> split <;> omega
  | _ =>
    have hstep := orderAction_step h
    simp only [orderAction, bind_ok, pure_ok, Prod.mk.injEq] at h
    obtain ⟨_, -, rfl, rfl⟩ := h
    cases hstep with
    | settle hreason => cases hreason
    | _ => exact released_same hopen (by simp_all) (by simp)

end Inversion

end Exchange
