import Rynmesh.ExchangeRuns

/-!
# What an order costs its parties

One order from its agreement to its settlement.  `orderAction_moves` says what
one action moves: a ruling pays the judges of its round, a settlement pays the
provider, and everything else only shifts coins between the free and the held
balance of their owner.

`OrderRun` follows an order through a run and keeps a `Tally` of what its
actions moved; `settlement_conservative` reads the tally of every run off the
order's record.
-/

namespace Exchange

open Checked

/-- What an owner has, free and held. -/
def State.balance {ω : Type} (state : State ω) (owner : String) : Int :=
  (state.account owner).total

theorem Flow.balance_eq {ω : Type} {a b : State ω} {available held : String → Int} {total : Int}
    (h : Flow a b available held total) (o : String) :
    b.balance o = a.balance o + (available o + held o) := by
  have ha := h.available_eq o
  have hh := h.held_eq o
  unfold State.balance Account.total
  omega

/-! ### One order action -/

/-- What the fees of a panel bring an owner. -/
def judgesPaid (judges : List Judge) (owner : String) : Int :=
  (judges.map fun j => amountAt j.peerId j.fee owner).sum

/-- What a ruling moves: the buyer bears the larger half of the fees. -/
def Order.rulingMoves (order : Order) (round : Nat) (owner : String) : Int :=
  let judges := panel order.terms.judges round
  judgesPaid judges owner - amountAt order.buyer ((panelFee judges + 1) / 2) owner -
    amountAt order.provider (panelFee judges / 2) owner

/-- What a settlement moves. -/
def Order.paymentMoves (order : Order) (paid : Int) (owner : String) : Int :=
  amountAt order.provider paid owner - amountAt order.buyer paid owner

/-- What an action moves that turned an order into `order'`. -/
def Order.actionMoves (order order' : Order) (action : OrderAction) (owner : String) : Int :=
  if action = .rule then order.rulingMoves (order.round.getD 0) owner
  else if order'.status.Terminal then order.paymentMoves (order'.paid.getD 0) owner
  else 0

variable {action : OrderAction}

theorem Order.actionMoves_other {order order' : Order} {o : String} (hbuyer : o ≠ order.buyer)
    (hprovider : o ≠ order.provider)
    (hjudge : action = .rule →
      ∀ j ∈ panel order.terms.judges (order.round.getD 0), j.peerId ≠ o) :
    order.actionMoves order' action o = 0 := by
  by_cases hrule : action = .rule
  · have hpaid : judgesPaid (panel order.terms.judges (order.round.getD 0)) o = 0 := by
      refine List.sum_eq_zero ?_
      intro x hx
      obtain ⟨j, hj, rfl⟩ := List.mem_map.mp hx
      exact amountAt_ne _ (hjudge hrule j hj).symm
    simp [actionMoves, hrule, rulingMoves, hpaid, hbuyer, hprovider]
  · simp [actionMoves, hrule, paymentMoves, hbuyer, hprovider]

theorem Order.escrow_other {order : Order} {o : String} (hbuyer : o ≠ order.buyer)
    (hprovider : o ≠ order.provider) : order.escrow o = 0 := by
  simp [escrow, hbuyer, hprovider]

variable {judges : List Judge}

theorem payJudges_flow {state state' : State Order} (h : payJudges state judges = .ok state') :
    Flow state state' (judgesPaid judges) (fun _ => 0) (panelFee judges) := by
  unfold payJudges at h
  induction judges generalizing state with
  | nil =>
    obtain rfl : state = state' := by simpa using h
    exact Flow.refl state
  | cons judge rest ih =>
    rw [List.foldlM_cons, bind_ok] at h
    obtain ⟨next, hnext, hrest⟩ := h
    exact ((flow_earn hnext).trans (ih hrest)).congr (fun o => by simp [judgesPaid])
      (fun o => by simp) (by simp [panelFee])

variable {paid : Int} {status : Status} {refunds : List String}

section Action

variable {C : Codec} {config : Config} {network owner : String} {value : Json} {timestamp : Int}
  {state state' : State Order} {order order' : Order}

theorem close_moves (hterminal : status.Terminal) (haction : action ≠ .rule)
    (h : close state { order with refundRequests := refunds } paid status =
      .ok (state', order')) (o : String) :
    state'.balance o = state.balance o + order.actionMoves order' action o := by
  obtain ⟨-, rfl, hflow⟩ := close_ok h
  rw [hflow.balance_eq]
  simp only [Order.actionMoves, haction, Order.closed, hterminal, Order.paymentMoves,
    Option.getD_some, if_true, if_false]
  unfold amountAt
  split <;> split <;> omega

theorem quiet_moves (haction : action ≠ .rule) (hopen : ¬ order'.status.Terminal) (o : String) :
    state.balance o = state.balance o + order.actionMoves order' action o := by
  simp [Order.actionMoves, haction, hopen]

/-- **What an order action moves**, account by account. -/
theorem orderAction_moves (hopen : ¬ order.status.Terminal)
    (h : orderAction C config network owner value timestamp state order action =
      .ok (state', order')) (o : String) :
    state'.balance o = state.balance o + order.actionMoves order' action o := by
  cases action with
  | accept =>
    obtain ⟨hreason, hclose⟩ := accept_ok timestamp h
    exact close_moves hreason.terminal (by simp) hclose o
  | refund =>
    obtain ⟨hfresh, ⟨hboth, hclose⟩ | ⟨-, rfl, rfl⟩⟩ := refund_ok h
    · exact close_moves (by simp) (by simp) hclose o
    · exact quiet_moves (by simp) hopen o
  | finalize =>
    obtain ⟨share, hreason, hclose⟩ := finalize_ok owner h
    exact close_moves hreason.terminal (by simp) hclose o
  | timeout =>
    obtain ⟨paid, status, hreason, hclose⟩ := timeout_ok owner h
    exact close_moves hreason.terminal (by simp) hclose o
  | rule =>
    obtain ⟨-, round, s1, judges, hround, rfl, hheld, hpay, -⟩ := rule_ok owner h
    rw [(payJudges_flow hpay).balance_eq, hheld.balance_eq]
    simp only [Order.actionMoves, Order.rulingMoves, hround, Option.getD_some, if_true]
    omega
  | _ =>
    have hstep := orderAction_step h
    simp only [orderAction, bind_ok, pure_ok, Prod.mk.injEq] at h
    obtain ⟨_, -, rfl, rfl⟩ := h
    cases hstep with
    | settle hreason => cases hreason
    | _ => exact quiet_moves (by simp) (by simp_all) o

theorem deliver_hash (h : deliver owner value timestamp order = .ok order') :
    order'.deliveryHash.any (· ≠ "") = true := by
  simp only [deliver, bind_ok, require_ok, need_ok, pure_ok] at h
  obtain ⟨_, _, _, _, _, _, _, _, _, _, _, _, _, _, hash, hdigest, _, _, _, _, rfl⟩ := h
  simp only [digestText, bind_ok, require_ok, pure_ok] at hdigest
  obtain ⟨s, _, _, hs, rfl⟩ := hdigest
  have hne : s ≠ "" := by
    rintro rfl
    exact absurd hs.1 (by decide)
  simpa using hne

end Action

/-! ### The tally of an order -/

/-- What an order's actions did so far: the coins moved, the rounds ruled with
their shares, whether something was delivered, and the last action with the
status it found. -/
structure Tally where
  moved : String → Int
  ruled : List (Nat × Int)
  delivered : Bool
  last : Option (OrderAction × Status)

/-- The tally of an agreement. -/
def Tally.agreed (moved : String → Int) : Tally :=
  { moved, ruled := [], delivered := false, last := none }

/-- The tally after one more action. -/
def Tally.record (t : Tally) (moved : String → Int) (action : OrderAction)
    (order order' : Order) : Tally :=
  { moved := fun o => t.moved o + moved o
    ruled := if action = .rule then
      t.ruled ++ [(order.round.getD 0, order'.rulingShare.getD 0)] else t.ruled
    delivered := t.delivered || action = .deliver
    last := some (action, order.status) }

/-- The share of the price a late or ruled order is settled at: the latest
ruling's, or half of it for a delivery nobody ruled on. -/
def Tally.share (t : Tally) : Int :=
  match t.ruled.getLast? with
  | some ruling => ruling.2
  | none => if t.delivered then 5000 else 0

/-- What the provider is owed when the order ends with this action. -/
def Tally.owed (t : Tally) (price : Int) (action : OrderAction) (found : Status) : Int :=
  if action = .accept ∨ action = .timeout ∧ found = .delivered then price
  else if action = .refund ∨ action = .timeout ∧ found = .working then 0
  else price * t.share / 10000

/-- **The record of an order tells its tally.** -/
structure Order.Tallied (order : Order) (t : Tally) : Prop where
  half : order.terms.disputeTimeoutShare = 5000
  rounds : t.ruled.map Prod.fst <+: [0, 1]
  left : ¬ order.status.Terminal → t.ruled.map Prod.fst ++ order.roundsLeft = [0, 1]
  share : ¬ order.status.Terminal → order.rulingShare = t.ruled.getLast?.map Prod.snd
  delivered : ¬ order.status.Terminal → order.deliveryHash.any (· ≠ "") = t.delivered
  paid : order.status.Terminal → ∃ action found, t.last = some (action, found) ∧
    order.paid = some (t.owed order.price action found)
  moved : ∀ o, t.moved o = (t.ruled.map fun r => order.rulingMoves r.1 o).sum +
    if order.status.Terminal then order.paymentMoves (order.paid.getD 0) o else 0

variable {round : Nat}

namespace Order.Tallied

variable {C : Codec} {config : Config} {network owner id : String} {value : Json}
  {timestamp : Int} {state state' : State Order} {order order' : Order} {t : Tally}
  {action : OrderAction} {moved : String → Int}

theorem charged (h : order.Tallied t) (n : Int) : { order with remainingOps := n }.Tallied t :=
  ⟨h.half, h.rounds, h.left, h.share, h.delivered, h.paid, h.moved⟩

theorem ruled_nil (h : order.Tallied t) (hopen : ¬ order.status.Terminal)
    (hleft : order.roundsLeft = [0, 1]) : t.ruled = [] := by
  have hrounds := h.left hopen
  rw [hleft] at hrounds
  have hlength := congrArg List.length hrounds
  simp only [List.length_append, List.length_map, List.length_cons, List.length_nil] at hlength
  exact List.length_eq_zero_iff.mp (by omega)

theorem quiet (h : order.Tallied t) (hopen : ¬ order.status.Terminal)
    (hopen' : ¬ order'.status.Terminal) (haction : action ≠ .rule)
    (hmoved : ∀ o, moved o = order.actionMoves order' action o)
    (hterms : order'.terms = order.terms) (hbuyer : order'.buyer = order.buyer)
    (hprovider : order'.provider = order.provider)
    (hshare : order'.rulingShare = order.rulingShare)
    (hleft : order'.roundsLeft = order.roundsLeft)
    (hdelivered : order'.deliveryHash.any (· ≠ "") =
      (order.deliveryHash.any (· ≠ "") || action = .deliver)) :
    order'.Tallied (t.record moved action order order') where
  half := hterms ▸ h.half
  rounds := by simpa [Tally.record, haction] using h.rounds
  left _ := by simpa [Tally.record, haction, hleft] using h.left hopen
  share _ := by simpa [Tally.record, haction, hshare] using h.share hopen
  delivered _ := by rw [hdelivered, h.delivered hopen]; rfl
  paid hterminal := absurd hterminal hopen'
  moved o := by
    have hsame : order'.rulingMoves = order.rulingMoves := by
      funext round o
      simp only [Order.rulingMoves, hterms, hbuyer, hprovider]
    have hbefore := h.moved o
    simp only [hopen, if_false, add_zero] at hbefore
    simp [Tally.record, haction, hopen', hsame, hmoved, Order.actionMoves, hbefore]

theorem ruling {share : Int} (h : order.Tallied t) (hopen : ¬ order.status.Terminal)
    (hopen' : ¬ order'.status.Terminal) (hmoved : ∀ o, moved o = order.actionMoves order' .rule o)
    (hterms : order'.terms = order.terms) (hbuyer : order'.buyer = order.buyer)
    (hprovider : order'.provider = order.provider) (hround : order.round = some round)
    (hshare : order'.rulingShare = some share)
    (hleft : order.roundsLeft = round :: order'.roundsLeft)
    (hdelivered : order'.deliveryHash = order.deliveryHash) :
    order'.Tallied (t.record moved .rule order order') := by
  have hrounds : ((t.ruled ++ [(round, share)]).map Prod.fst) ++ order'.roundsLeft = [0, 1] := by
    have hbefore := h.left hopen
    rw [hleft] at hbefore
    simpa using hbefore
  constructor
  · exact hterms ▸ h.half
  · exact ⟨order'.roundsLeft, by simpa [Tally.record, hround, hshare] using hrounds⟩
  · intro _
    simpa [Tally.record, hround, hshare] using hrounds
  · intro _
    simp [Tally.record, hround, hshare]
  · intro _
    rw [hdelivered, h.delivered hopen]
    simp [Tally.record]
  · exact fun hterminal => absurd hterminal hopen'
  · intro o
    have hsame : order'.rulingMoves = order.rulingMoves := by
      funext round o
      simp only [Order.rulingMoves, hterms, hbuyer, hprovider]
    have hbefore := h.moved o
    simp only [hopen, if_false, add_zero] at hbefore
    simp [Tally.record, hopen', hround, hsame, hmoved, Order.actionMoves, hbefore]

theorem owed (h : order.Tallied t) (hopen : ¬ order.status.Terminal)
    (hreason : Settles owner timestamp order action refunds paid status) :
    paid = t.owed order.price action order.status := by
  have hruled : ∀ share, order.rulingShare = some share → t.share = share := by
    intro share hshare
    have hlast := h.share hopen
    rw [hshare] at hlast
    obtain ⟨ruling, hruling, hsnd⟩ := Option.map_eq_some_iff.mp hlast.symm
    simp only [Tally.share, hruling, hsnd]
  cases hreason with
  | accepted byBuyer delivered | refunded fresh both => simp [Tally.owed]
  | finalized ruled appeal ended ruling => simp [Tally.owed, hruled _ ruling]
  | undelivered working ended => simp [Tally.owed, working]
  | unreviewed delivered review ended => simp [Tally.owed, delivered]
  | @unresolved ends share late deadline ended outcome =>
    have hshare : t.share = share := by
      unfold timeoutShare at outcome
      split at outcome
      · exact hruled share (need_ok.mp outcome)
      · next hfirst =>
        rw [not_or] at hfirst
        have hdisputed : order.status = .disputed := by
          cases hs : order.status <;> simp_all
        have hnil := h.ruled_nil hopen (by simp [Order.roundsLeft, hdisputed, hfirst.2])
        have hhash := h.delivered hopen
        have hhalf := h.half
        split at outcome
        · next hany =>
          rw [hany] at hhash
          simp only [Tally.share, hnil, List.getLast?_nil, ← hhash, if_true]
          rw [← hhalf]
          exact pure_ok.mp outcome
        · next hany =>
          rw [Bool.not_eq_true] at hany
          rw [hany] at hhash
          simp only [Tally.share, hnil, List.getLast?_nil, ← hhash]
          simpa using pure_ok.mp outcome
    simp [Tally.owed, late, hshare]

theorem settled (h : order.Tallied t) (hopen : ¬ order.status.Terminal)
    (hreason : Settles owner timestamp order action refunds paid status)
    (hmoved : ∀ o, moved o = order.actionMoves (order.closed refunds paid status) action o) :
    (order.closed refunds paid status).Tallied
      (t.record moved action order (order.closed refunds paid status)) := by
  have hrule : action ≠ .rule := by cases hreason <;> simp
  have hdeliver : action ≠ .deliver := by cases hreason <;> simp
  have hsame : (t.record moved action order (order.closed refunds paid status)).owed
      order.price action order.status = t.owed order.price action order.status := by
    simp only [Tally.owed, Tally.share, Tally.record, hrule, hdeliver, if_false, decide_false,
      Bool.or_false]
  constructor
  · exact h.half
  · simpa [Tally.record, hrule] using h.rounds
  · exact fun hopen' => absurd hreason.terminal hopen'
  · exact fun hopen' => absurd hreason.terminal hopen'
  · exact fun hopen' => absurd hreason.terminal hopen'
  · intro _
    refine ⟨action, order.status, rfl, congrArg some ?_⟩
    exact (h.owed hopen hreason).trans hsame.symm
  · intro o
    have hbefore := h.moved o
    simp only [hopen, if_false, add_zero] at hbefore
    simp only [Tally.record, hrule, if_false, hmoved, Order.actionMoves, Order.closed,
      hreason.terminal, if_true, hbefore]
    rfl

/-- **One action keeps the tally.** -/
theorem step (h : order.Tallied t) (hsound : order.Sound id) (hopen : ¬ order.status.Terminal)
    (hdone : orderAction C config network owner value timestamp state order action =
      .ok (state', order'))
    (hmoved : ∀ o, moved o = order.actionMoves order' action o) :
    order'.Tallied (t.record moved action order order') := by
  have hphase := hsound.phase
  cases orderAction_step hdone with
  | @deliver reviewUntil hash sealed byProvider phase inTime revisions review beforeReview =>
    have hleft : order.roundsLeft = [0, 1] := by
      rcases phase with hw | hd <;> simp [Order.roundsLeft, *]
    have hhash : (some hash).any (· ≠ "") = true := by
      simp only [orderAction, bind_ok, pure_ok, Prod.mk.injEq] at hdone
      obtain ⟨_, hdeliver, -, rfl⟩ := hdone
      exact deliver_hash hdeliver
    refine h.quiet hopen (by simp) (by simp) hmoved rfl rfl rfl rfl ?_ ?_
    · rw [hleft]
      rfl
    · simp only [hhash, decide_true, Bool.or_true]
  | refund fresh single =>
    exact h.quiet hopen hopen (by simp) hmoved rfl rfl rfl rfl rfl (by simp)
  | dispute phase deadline inTime judges =>
    have hleft : order.roundsLeft = [0, 1] := by
      rcases phase with hw | hd <;> simp [Order.roundsLeft, *]
    refine h.quiet hopen (by simp) (by simp) hmoved rfl rfl rfl rfl ?_ (by simp)
    rw [hleft]
    rfl
  | evidence phase deadline inTime fresh =>
    exact h.quiet hopen hopen (by simp) hmoved rfl rfl rfl rfl rfl (by simp)
  | @rule ends round caseFile rulings signers shares phase complete deadline inTime current
      rounds =>
    refine h.ruling hopen (by simp) hmoved rfl rfl rfl current rfl ?_ rfl
    rcases rounds with rfl | rfl <;> simp [Order.roundsLeft, phase, current]
  | appeal phase first unwaived deadline inTime =>
    refine h.quiet hopen (by simp) (by simp) hmoved rfl rfl rfl rfl ?_ (by simp)
    simp [Order.roundsLeft, phase, first]
  | waive phase fresh =>
    exact h.quiet hopen hopen (by simp) hmoved rfl rfl rfl rfl rfl (by simp)
  | settle reason bounded => exact h.settled hopen reason hmoved

end Order.Tallied

/-! ### The commands of an order -/

/-- A signed command that agrees on a proposal and so creates the order `id`. -/
def AgreeCommand (C : Codec) (commandWire : Json) (id : String) : Prop :=
  ∃ payload publicKey, signature C commandWire = .ok ⟨payload, publicKey⟩ ∧
    payload.get? "id" = some (.str id) ∧ payload.get? "action" = some (.str "agree")

/-- A signed command for an action of the order `id`. -/
def ActsOn (C : Codec) (commandWire : Json) (action : OrderAction) (id : String) : Prop :=
  ∃ owner value, OrderCommand C commandWire action id owner value

/-- What a command of the order `id` left alone: every other order, and both
balances of every account that `touched` does not name. -/
structure Untouched (a b : State Order) (id : String) (touched : String → Prop) : Prop where
  orders : ∀ other, other ≠ id → b.orders.get? other = a.orders.get? other
  accounts : ∀ o, ¬ touched o →
    (b.account o).available = (a.account o).available ∧ (b.account o).held = (a.account o).held

section Commands

variable {C : Codec} {config : Config} {a b : State Order} {commandWire : Json} {timestamp : Int}
  {id : String}

theorem apply_performed (h : apply C a commandWire config timestamp = .ok b) :
    ∃ cmd payload action s performed, CommandRead C a commandWire config timestamp cmd payload ∧
      readAction cmd.action = .ok action ∧ Flow a s (fun _ => 0) (fun _ => 0) 0 ∧
      perform C config cmd timestamp s action = .ok performed ∧
      b = recorded C commandWire cmd timestamp performed := by
  simp only [apply, bind_ok] at h
  obtain ⟨cmd, hread, action, haction, admitted, hadm, performed, hperform, hfinish⟩ := h
  obtain ⟨payload, hread⟩ := readCommand_ok hread
  exact ⟨cmd, payload, action, admitted, performed, hread, haction,
    (flow_touch a cmd.owner).trans (admission_ok hadm), hperform, (finish_ok.mp hfinish).1⟩

theorem recorded_balance (cmd : Command) (s : State Order) (o : String) :
    (recorded C commandWire cmd timestamp s).balance o = s.balance o := by
  have h := recorded_balances C s commandWire timestamp cmd o
  simp only [State.balance, Account.total, h.1, h.2]

/-- **An agreement** creates its order and only holds coins of the parties. -/
theorem apply_agreed (hagree : AgreeCommand C commandWire id)
    (happly : apply C a commandWire config timestamp = .ok b) :
    ∃ proposal listing terms, termsFor config proposal listing = .ok terms ∧
      b.orders.get? id = some (agreedOrder id proposal terms timestamp) ∧
      (∀ o, b.balance o = a.balance o) ∧
      Untouched a b id (· ∈ [proposal.buyer, proposal.provider]) := by
  obtain ⟨payload, publicKey, hsigned, hid, haction⟩ := hagree
  obtain ⟨cmd, payload', action, s, performed, hread, hnamed, hflow, hperform, rfl⟩ :=
    apply_performed happly
  obtain rfl : payload = payload' :=
    congrArg SignedPayload.payload (Except.ok.inj (hsigned.symm.trans hread.signed))
  obtain rfl : cmd.id = id := by
    simpa using Option.mem_unique hread.id_eq hid
  obtain rfl : action = .agree := by
    rw [Option.mem_unique hread.action_eq haction] at hnamed
    exact (Except.ok.inj hnamed).symm
  obtain ⟨pid, proposal, listing, terms, s1, s2, -, -, -, hterms, -, h1, h2, rfl⟩ :=
    agree_ok hperform
  have hholds := hflow.trans ((flow_hold h1).trans (flow_hold h2))
  refine ⟨proposal, listing, terms, hterms, by simp, ?_, ?_, ?_⟩
  · intro o
    rw [recorded_balance]
    show s2.balance o = a.balance o
    rw [hholds.balance_eq]
    unfold amountAt
    split <;> split <;> omega
  · intro other hne
    rw [recorded_orders, Dict.get?_set_ne _ _ hne, hholds.orders_eq]
  · intro o ho
    simp only [List.mem_cons, List.not_mem_nil, or_false, not_or] at ho
    rw [(recorded_balances ..).1, (recorded_balances ..).2]
    show (s2.account o).available = _ ∧ (s2.account o).held = _
    rw [hholds.available_eq, hholds.held_eq, amountAt_ne _ ho.1, amountAt_ne _ ho.2,
      amountAt_ne _ ho.1, amountAt_ne _ ho.2]
    omega

/-- **An action of an order**, with the coins it moved. -/
theorem apply_acts (hinv : Invariant config a) (hacts : ActsOn C commandWire action id)
    (happly : apply C a commandWire config timestamp = .ok b) :
    ∃ order order' network owner value s s', a.orders.get? id = some order ∧
      b.orders.get? id = some order' ∧ ¬ order.status.Terminal ∧
      orderAction C config network owner value timestamp s
        { order with remainingOps := order.remainingOps - 1 } action = .ok (s', order') ∧
      (∀ o, b.balance o = a.balance o + order.actionMoves order' action o) ∧
      order.SameContract order' ∧
      Untouched a b id fun o => o ∈ order.parties ∨
        action = .rule ∧ ∃ j ∈ panel order.terms.judges (order.round.getD 0), j.peerId = o := by
  obtain ⟨owner, value, hcommand⟩ := hacts
  obtain ⟨current, later, happlied⟩ := apply_orderCommand hinv hcommand happly
  obtain ⟨⟨payload, publicKey, hsigned, hactor, haction, hvalue⟩, hnamed⟩ := hcommand
  obtain ⟨cmd, payload', action', performed, hread, haction', heffect, rfl, -, -⟩ :=
    apply_ok happly
  obtain rfl : payload = payload' :=
    congrArg SignedPayload.payload (Except.ok.inj (hsigned.symm.trans hread.signed))
  obtain rfl : cmd.value = value := Option.mem_unique hread.value_eq hvalue
  obtain rfl : action' = .order action := by
    rw [Option.mem_unique hread.action_eq haction, readAction_name] at haction'
    exact (Except.ok.inj haction').symm
  cases heffect with
  | balances kind | listing kind => simp at kind
  | @order s s' id' order order' _ touch named found party reviewed opened budget done =>
    obtain rfl : id' = id := by
      rw [hnamed] at named
      simpa using named.symm
    obtain rfl : current = order := Option.mem_unique happlied.found found
    have hevolves := (orderAction_step done).evolves (hinv.orders _ _ found).1 opened budget
    have hmoves : ∀ o, (recorded C commandWire cmd timestamp
        { s' with orders := s'.orders.set id' order' }).balance o =
          a.balance o + current.actionMoves order' action o := by
      intro o
      rw [recorded_balance]
      show s'.balance o = _
      rw [orderAction_moves (by exact opened) done, touch.balance_eq]
      simp only [add_zero]
      rfl
    obtain rfl : later = order' := by
      have hresult := happlied.result
      rw [recorded_orders, Dict.get?_set_self] at hresult
      exact (Option.some.inj hresult).symm
    refine ⟨current, later, _, _, _, s, s', found, happlied.result, opened, done, hmoves,
      hevolves.contract, happlied.others, ?_⟩
    intro o ho
    rw [not_or] at ho
    obtain ⟨hparty, hjudge⟩ := ho
    have hbuyer : o ≠ current.buyer := fun e => hparty (by simp [Order.parties, e])
    have hprovider : o ≠ current.provider := fun e => hparty (by simp [Order.parties, e])
    have hheld := happlied.held o
    rw [Order.escrow_other hbuyer hprovider, Order.escrow_other
      (hevolves.contract.buyer ▸ hbuyer) (hevolves.contract.provider ▸ hprovider)] at hheld
    have hnone : current.actionMoves later action o = 0 :=
      Order.actionMoves_other hbuyer hprovider fun hrule j hj he => hjudge ⟨hrule, j, hj, he⟩
    have htotal := hmoves o
    simp only [State.balance, Account.total] at htotal
    constructor <;> omega

theorem apply_other (hinv : Invariant config a)
    (hother : ∀ action, ¬ ActsOn C commandWire action id)
    (happly : apply C a commandWire config timestamp = .ok b) {order : Order}
    (hget : a.orders.get? id = some order) : b.orders.get? id = some order := by
  obtain ⟨cmd, payload, action, performed, hread, haction, heffect, rfl, -, -⟩ := apply_ok happly
  rw [recorded_orders]
  cases heffect with
  | balances kind flow | listing kind flow | propose flow => exact flow.orders_eq ▸ hget
  | agree found offered confirms agreed room flow =>
    have hne : id ≠ cmd.id := fun he =>
      hread.fresh (hinv.known _ (he ▸ Dict.mem_keys_of_get? hget))
    rw [Dict.get?_set_ne _ _ hne, flow.orders_eq, hget]
  | reward fresh unrewarded limit flow => exact flow.orders_eq ▸ hget
  | @order s s' id' current order' action touch named found party reviewed opened budget done =>
    have hne : id ≠ id' := by
      rintro rfl
      refine hother action ⟨cmd.owner, cmd.value, ⟨payload, cmd.publicKey, hread.signed,
        hread.actor_eq, ?_, hread.value_eq⟩, named⟩
      rw [hread.action_eq, readAction_order haction]
    obtain ⟨available, -, hflow⟩ := Books.orderAction_flow hinv found opened done
    rw [Dict.get?_set_ne _ _ hne, (touch.trans hflow).orders_eq, hget]

end Commands

/-! ### An order along a run -/

/-- A run from before an agreement on, with the tally of the order it made. -/
inductive OrderRun (C : Codec) (config : Config) (id : String) (start : State Order) :
    State Order → Tally → Prop
  | agreed {b : State Order} {commandWire : Json} {timestamp : Int}
      (hagree : AgreeCommand C commandWire id)
      (happly : apply C start commandWire config timestamp = .ok b) :
      OrderRun C config id start b (.agreed fun o => b.balance o - start.balance o)
  | acts {b c : State Order} {t : Tally} {commandWire : Json} {timestamp : Int}
      {action : OrderAction} {order order' : Order} (hrun : OrderRun C config id start b t)
      (hacts : ActsOn C commandWire action id)
      (happly : apply C b commandWire config timestamp = .ok c)
      (hfound : b.orders.get? id = some order) (hresult : c.orders.get? id = some order') :
      OrderRun C config id start c
        (t.record (fun o => c.balance o - b.balance o) action order order')
  | other {b c : State Order} {t : Tally} {commandWire : Json} {timestamp : Int}
      (hrun : OrderRun C config id start b t)
      (hother : ∀ action, ¬ ActsOn C commandWire action id)
      (happly : apply C b commandWire config timestamp = .ok c) : OrderRun C config id start c t

variable {C : Codec} {config : Config} {id : String} {start state : State Order} {t : Tally}

theorem agreedOrder_tallied (id : String) (timestamp : Int) {proposal : Proposal}
    {listing : Listing} {terms : Terms} (hterms : termsFor config proposal listing = .ok terms)
    {moved : String → Int} (hmoved : ∀ o, moved o = 0) :
    (agreedOrder id proposal terms timestamp).Tallied (.agreed moved) := by
  simp only [termsFor, bind_ok, pure_ok] at hterms
  obtain ⟨selected, -, rfl⟩ := hterms
  constructor
  · rfl
  · exact List.nil_prefix
  · intro _
    rfl
  · intro _
    rfl
  · intro _
    rfl
  · intro hterminal
    exact absurd hterminal Status.not_terminal_working
  · intro o
    simp [Tally.agreed, hmoved, agreedOrder]

/-- **The tally of a run** is told by the record the run leads to. -/
theorem OrderRun.tallied (hreach : Reachable C config start)
    (hrun : OrderRun C config id start state t) :
    Reachable C config state ∧ ∃ order, state.orders.get? id = some order ∧ order.Tallied t := by
  induction hrun with
  | @agreed b commandWire timestamp hagree happly =>
    obtain ⟨proposal, listing, terms, hterms, hget, hbalance, -⟩ := apply_agreed hagree happly
    refine ⟨hreach.later (Later.of_apply happly), _, hget, ?_⟩
    exact agreedOrder_tallied id timestamp hterms fun o => by rw [hbalance, sub_self]
  | @acts b c t commandWire timestamp action order order' _ hacts happly hfound hresult ih =>
    obtain ⟨hreached, current, hget, htallied⟩ := ih
    obtain rfl : current = order := Option.mem_unique hget hfound
    obtain ⟨before, after, network, owner, value, s, s', hbefore, hafter, hopen, hdone, hmoved,
      -⟩ := apply_acts hreached.invariant hacts happly
    obtain rfl : before = current := Option.mem_unique hbefore hfound
    obtain rfl : after = order' := Option.mem_unique hafter hresult
    have hsound := (hreached.invariant.orders id before hfound).1
    refine ⟨hreached.later (Later.of_apply happly), after, hafter, ?_⟩
    refine (htallied.charged (before.remainingOps - 1)).step
      (hsound.charged (before.remainingOps - 1)) hopen hdone ?_
    intro o
    have := hmoved o
    show c.balance o - b.balance o = before.actionMoves after action o
    omega
  | other _ hother happly ih =>
    obtain ⟨hreached, order, hget, htallied⟩ := ih
    exact ⟨hreached.later (Later.of_apply happly), order,
      apply_other hreached.invariant hother happly hget, htallied⟩

/-! ### The parties and the judges -/

theorem judgesPaid_of_mem (hdistinct : (judges.map (·.peerId)).Nodup) {judge : Judge}
    (hjudge : judge ∈ judges) : judgesPaid judges judge.peerId = judge.fee := by
  induction judges with
  | nil => cases hjudge
  | cons head rest ih =>
    rw [List.map_cons, List.nodup_cons] at hdistinct
    simp only [judgesPaid, List.map_cons, List.sum_cons]
    rcases List.mem_cons.mp hjudge with rfl | hmem
    · have hrest : ∀ j ∈ rest, amountAt j.peerId j.fee judge.peerId = 0 := by
        intro j hj
        refine amountAt_ne _ fun he => hdistinct.1 ?_
        exact he ▸ List.mem_map_of_mem hj
      have hzero : (rest.map fun j => amountAt j.peerId j.fee judge.peerId).sum = 0 := by
        refine List.sum_eq_zero ?_
        intro x hx
        obtain ⟨j, hj, rfl⟩ := List.mem_map.mp hx
        exact hrest j hj
      rw [hzero, amountAt_self, add_zero]
    · have hne : judge.peerId ≠ head.peerId := fun he =>
        hdistinct.1 (he ▸ List.mem_map_of_mem hmem)
      rw [amountAt_ne _ hne, zero_add]
      exact ih hdistinct.2 hmem

theorem judgesPaid_of_not_mem {o : String} (h : ∀ j ∈ judges, j.peerId ≠ o) :
    judgesPaid judges o = 0 := by
  refine List.sum_eq_zero ?_
  intro x hx
  obtain ⟨j, hj, rfl⟩ := List.mem_map.mp hx
  exact amountAt_ne _ (h j hj).symm

/-- **What an order cost**, when rounds were ruled on the way and the provider
was paid so much in the end. -/
structure Order.Costs (order : Order) (rounds : List Nat) (paid : Int) (moved : String → Int) :
    Prop where
  buyer : moved order.buyer = -(paid + buyerFees order.terms.judges rounds)
  provider : moved order.provider = paid - providerFees order.terms.judges rounds
  judges : ∀ round ∈ rounds, ∀ j ∈ panel order.terms.judges round, moved j.peerId = j.fee
  others : ∀ o, o ∉ order.parties →
    (∀ round ∈ rounds, ∀ j ∈ panel order.terms.judges round, j.peerId ≠ o) → moved o = 0

section Costs

variable {order : Order}

theorem Order.Sound.rulingMoves_buyer (h : order.Sound id) (round : Nat) :
    order.rulingMoves round order.buyer =
      -((panelFee (panel order.terms.judges round) + 1) / 2) := by
  have hjudges : judgesPaid (panel order.terms.judges round) order.buyer = 0 :=
    judgesPaid_of_not_mem fun j hj =>
      (h.seated.neutral j ((panel_sublist _ round).subset hj)).1
  simp [Order.rulingMoves, hjudges, h.distinct]

theorem Order.Sound.rulingMoves_provider (h : order.Sound id) (round : Nat) :
    order.rulingMoves round order.provider =
      -(panelFee (panel order.terms.judges round) / 2) := by
  have hjudges : judgesPaid (panel order.terms.judges round) order.provider = 0 :=
    judgesPaid_of_not_mem fun j hj =>
      (h.seated.neutral j ((panel_sublist _ round).subset hj)).2
  simp [Order.rulingMoves, hjudges, h.distinct.symm]

theorem Order.rulingMoves_of_not_mem {o : String} (hparty : o ∉ order.parties)
    (hjudge : ∀ j ∈ panel order.terms.judges round, j.peerId ≠ o) :
    order.rulingMoves round o = 0 := by
  simp only [Order.parties, List.mem_cons, List.not_mem_nil, or_false, not_or] at hparty
  simp [Order.rulingMoves, judgesPaid_of_not_mem hjudge, hparty.1, hparty.2]

theorem Order.Sound.judge_not_party (h : order.Sound id) {j : Judge}
    (hj : j ∈ panel order.terms.judges round) : j.peerId ∉ order.parties := by
  have hneutral := h.seated.neutral j ((panel_sublist _ round).subset hj)
  simpa [Order.parties] using hneutral

theorem Order.Sound.rulingMoves_judge (h : order.Sound id) {j : Judge}
    (hj : j ∈ panel order.terms.judges round) : order.rulingMoves round j.peerId = j.fee := by
  have hdistinct : ((panel order.terms.judges round).map (·.peerId)).Nodup :=
    h.seated.distinct.sublist ((panel_sublist _ round).map _)
  have hparty := h.judge_not_party hj
  simp only [Order.parties, List.mem_cons, List.not_mem_nil, or_false, not_or] at hparty
  simp [Order.rulingMoves, judgesPaid_of_mem hdistinct hj, hparty.1, hparty.2]

theorem Order.Sound.rulingMoves_judge_ne (h : order.Sound id) {other : Nat}
    (hrounds : round ∈ [0, 1] ∧ other ∈ [0, 1]) (hne : other ≠ round) {j : Judge}
    (hj : j ∈ panel order.terms.judges round) : order.rulingMoves other j.peerId = 0 := by
  refine Order.rulingMoves_of_not_mem (h.judge_not_party hj) ?_
  intro k hk
  have hdisjoint := h.seated.panels_disjoint
  simp only [List.mem_cons, List.not_mem_nil, or_false] at hrounds
  rcases hrounds with ⟨rfl | rfl, rfl | rfl⟩
  · exact absurd rfl hne
  · exact (hdisjoint j hj k hk).symm
  · exact hdisjoint k hk j hj
  · exact absurd rfl hne

theorem Order.Sound.rulings_judge (h : order.Sound id) {j : Judge}
    (hj : j ∈ panel order.terms.judges round) {rounds : List Nat} (hnodup : rounds.Nodup)
    (hrounds : ∀ r ∈ rounds, r ∈ [0, 1]) (hmem : round ∈ rounds) :
    (rounds.map fun r => order.rulingMoves r j.peerId).sum = j.fee := by
  have hone : ∀ r ∈ rounds, order.rulingMoves r j.peerId = if r = round then j.fee else 0 := by
    intro r hr
    split
    · next he => rw [he, h.rulingMoves_judge hj]
    · next hne => exact h.rulingMoves_judge_ne ⟨hrounds round hmem, hrounds r hr⟩ hne hj
  rw [List.map_congr_left hone]
  clear hone hrounds
  induction rounds with
  | nil => cases hmem
  | cons head rest ih =>
    rw [List.nodup_cons] at hnodup
    rw [List.map_cons, List.sum_cons]
    rcases List.mem_cons.mp hmem with hhead | hrest
    · have hzero : (rest.map fun r => if r = round then j.fee else 0).sum = 0 := by
        refine List.sum_eq_zero ?_
        intro x hx
        obtain ⟨r, hr, rfl⟩ := List.mem_map.mp hx
        have hne : r ≠ round := fun he => hnodup.1 (hhead ▸ he ▸ hr)
        rw [if_neg hne]
      rw [if_pos hhead.symm, hzero, add_zero]
    · have hne : head ≠ round := fun he => hnodup.1 (he ▸ hrest)
      rw [if_neg hne, zero_add]
      exact ih hnodup.2 hrest

theorem sum_map_neg_int {α : Type} (items : List α) (f : α → Int) :
    (items.map fun a => -f a).sum = -(items.map f).sum := by
  induction items with
  | nil => rfl
  | cons a rest ih =>
    simp only [List.map_cons, List.sum_cons, ih]
    omega

theorem Order.Sound.costs (h : order.Sound id) {rounds : List Nat} {moved : String → Int}
    (hrounds : rounds <+: [0, 1])
    (hmoved : ∀ o, moved o =
      (rounds.map fun r => order.rulingMoves r o).sum + order.paymentMoves paid o) :
    order.Costs rounds paid moved := by
  have hsublist := hrounds.sublist
  have hnodup : rounds.Nodup := (by decide : [0, 1].Nodup).sublist hsublist
  constructor
  · have hpayment : order.paymentMoves paid order.buyer = -paid := by
      simp [Order.paymentMoves, h.distinct]
    simp only [hmoved, h.rulingMoves_buyer, sum_map_neg_int, hpayment, buyerFees]
    omega
  · have hpayment : order.paymentMoves paid order.provider = paid := by
      simp [Order.paymentMoves, h.distinct.symm]
    simp only [hmoved, h.rulingMoves_provider, sum_map_neg_int, hpayment, providerFees]
    omega
  · intro round hround j hj
    have hparty := h.judge_not_party hj
    simp only [Order.parties, List.mem_cons, List.not_mem_nil, or_false, not_or] at hparty
    rw [hmoved, h.rulings_judge hj hnodup (fun r hr => hsublist.subset hr) hround]
    simp [Order.paymentMoves, hparty.1, hparty.2]
  · intro o ho hjudges
    have hzero : (rounds.map fun r => order.rulingMoves r o).sum = 0 := by
      refine List.sum_eq_zero ?_
      intro x hx
      obtain ⟨r, hr, rfl⟩ := List.mem_map.mp hx
      exact Order.rulingMoves_of_not_mem ho (hjudges r hr)
    simp only [Order.parties, List.mem_cons, List.not_mem_nil, or_false, not_or] at ho
    rw [hmoved, hzero]
    simp [Order.paymentMoves, ho.1, ho.2]

end Costs

/-- **Settlement is conservative.**  Follow an order from its agreement along
any run of the version 2 rules.

* What its actions moved is told by the rounds that were ruled and, once it has
  ended, by the payment: the buyer bears the payment and the larger halves of the
  fees, the provider gets the payment less the smaller ones, each judge of a ruled
  round gets the quoted fee, and nobody else gains or loses.
* The payment is what is owed for the way the order ended.
* No action of an order, its agreement included, changes another order, or an
  account that is neither a party's nor, for a ruling, one of the round's judges. -/
theorem settlement_conservative (C : Codec) (config : Config) (start : State Order)
    (hreach : Reachable C config start) (id : String) :
    (∀ state t, OrderRun C config id start state t →
      ∃ order, state.orders.get? id = some order ∧ t.ruled.map Prod.fst <+: [0, 1] ∧
        (¬ order.status.Terminal → order.Costs (t.ruled.map Prod.fst) 0 t.moved) ∧
        (order.status.Terminal → ∃ action found, t.last = some (action, found) ∧
          order.paid = some (t.owed order.price action found) ∧
          order.Costs (t.ruled.map Prod.fst) (t.owed order.price action found) t.moved) ∧
        ∀ action wire timestamp next, ActsOn C wire action id →
          apply C state wire config timestamp = .ok next →
          Untouched state next id fun o => o ∈ order.parties ∨
            action = .rule ∧
              ∃ j ∈ panel order.terms.judges (order.round.getD 0), j.peerId = o) ∧
    ∀ wire timestamp next, AgreeCommand C wire id →
      apply C start wire config timestamp = .ok next →
      ∃ order, next.orders.get? id = some order ∧ Untouched start next id (· ∈ order.parties) := by
  constructor
  · intro state t hrun
    obtain ⟨hreached, order, hget, htallied⟩ := hrun.tallied hreach
    have hsound := (hreached.invariant.orders id order hget).1
    refine ⟨order, hget, htallied.rounds, ?_, ?_, ?_⟩
    · intro hopen
      refine hsound.costs htallied.rounds fun o => ?_
      rw [htallied.moved o, if_neg hopen, List.map_map]
      simp [Order.paymentMoves, amountAt, Function.comp_def]
    · intro hterminal
      obtain ⟨action, found, hlast, hpaid⟩ := htallied.paid hterminal
      refine ⟨action, found, hlast, hpaid, hsound.costs htallied.rounds fun o => ?_⟩
      rw [htallied.moved o, if_pos hterminal, List.map_map, hpaid, Option.getD_some]
      rfl
    · intro action wire timestamp next hacts happly
      obtain ⟨before, after, network, owner, value, s, s', hbefore, hafter, hopen, hdone, hmoved,
        -, huntouched⟩ := apply_acts hreached.invariant hacts happly
      obtain rfl : before = order := Option.mem_unique hbefore hget
      exact huntouched
  · intro wire timestamp next hagree happly
    obtain ⟨proposal, listing, terms, -, hget, -, huntouched⟩ := apply_agreed hagree happly
    exact ⟨_, hget, huntouched⟩

/-- An action of the examples goes on with a run. -/
theorem OrderRun.act {b c : State Order} {operation owner : String} {nonce : Int}
    {action : OrderAction} {value : List (String × Json)}
    (hrun : OrderRun .plain sampleConfig "command-5" start b t)
    (hreach : Reachable .plain sampleConfig b)
    (happly : apply .plain b (sampleAct operation owner nonce action value) sampleConfig 1000 =
      .ok c) :
    Reachable .plain sampleConfig c ∧ ∃ t', OrderRun .plain sampleConfig "command-5" start c t' ∧
      t'.ruled.length = t.ruled.length + if action = .rule then 1 else 0 := by
  have hcommand := sampleAct_order happly
  obtain ⟨order, order', happlied⟩ := apply_orderCommand hreach.invariant hcommand happly
  refine ⟨hreach.trans (Later.of_apply happly), _,
    .acts hrun ⟨_, _, hcommand⟩ happly happlied.found happlied.result, ?_⟩
  simp only [Tally.record]
  split <;> simp

/-- The provider is paid half the price, and each party pays half the fees of the
round that was ruled. -/
theorem settlement_conservative_sample : ∃ start state t order,
    OrderRun .plain sampleConfig "command-5" start state t ∧
    state.orders.get? "command-5" = some order ∧ order.status.Terminal ∧
    t.ruled.length = 1 ∧ order.paid = some 2 ∧ order.Costs (t.ruled.map Prod.fst) 2 t.moved := by
  obtain ⟨start, agreed, heard, ruled, ended, htrial⟩ := sample_trial
  obtain ⟨publicKey, hsigned⟩ := sampleCommand_carried htrial.agrees
  have hagreed : OrderRun .plain sampleConfig "command-5" start agreed _ :=
    .agreed ⟨_, publicKey, hsigned, by simp [commandPayload], by simp [commandPayload]⟩
      htrial.agrees
  have hdisputes := htrial.disputes
  have hends := htrial.ends
  simp only [applyAll, sampleDispute, sampleEnd, sampleEvidence, List.foldlM_cons,
    List.foldlM_nil, bind_ok, pure_ok] at hdisputes hends
  obtain ⟨_, happly₁, _, happly₂, _, happly₃, rfl⟩ := hdisputes
  obtain ⟨_, happly₅, _, happly₆, _, happly₇, rfl⟩ := hends
  obtain ⟨hreach, _, hrun, hruled₁⟩ :=
    hagreed.act (htrial.reaches.trans (Later.of_apply htrial.agrees)) happly₁
  obtain ⟨hreach, _, hrun, hruled₂⟩ := hrun.act hreach happly₂
  obtain ⟨hreach, _, hrun, hruled₃⟩ := hrun.act hreach happly₃
  obtain ⟨hreach, _, hrun, hruled₄⟩ := hrun.act hreach htrial.rules
  obtain ⟨hreach, _, hrun, hruled₅⟩ := hrun.act hreach happly₅
  obtain ⟨hreach, _, hrun, hruled₆⟩ := hrun.act hreach happly₆
  obtain ⟨-, t, hrun, hruled₇⟩ := hrun.act hreach happly₇
  have hruled : t.ruled.length = 1 := by
    simp [hruled₁, hruled₂, hruled₃, hruled₄, hruled₅, hruled₆, hruled₇, Tally.agreed]
  obtain ⟨order, hget, hterminal, hpaid⟩ := htrial.paid
  obtain ⟨hsettles, -⟩ :=
    settlement_conservative .plain sampleConfig start htrial.reaches "command-5"
  obtain ⟨settled, hget', -, -, hcosts, -⟩ := hsettles _ _ hrun
  obtain rfl : settled = order := Option.mem_unique hget' hget
  obtain ⟨_, _, -, howed, hcosts⟩ := hcosts hterminal
  rw [Option.mem_unique howed hpaid] at hcosts
  exact ⟨start, _, t, settled, hrun, hget, hterminal, hruled, hpaid, hcosts⟩

end Exchange
