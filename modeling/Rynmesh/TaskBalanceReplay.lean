import Rynmesh.TaskBalanceAmounts

/-!
# Replay of the task balance

`_replay` folds the signed events in the order of their time stamps, and of their
dedupe keys where these are equal; the live calls were made in another order.

* `Alike` relates a replayed state to a live one, and `Alike.step` replays the
  event of a live transition;
* `State.join` takes a state apart: an earning and an event of a hold commute,
  so only the order within each part counts (`foldl_eq_of_parts`);
* `replay_reproduces` concludes for every run whose events are `InOrder`;
* `tied_rehold` is a run in which they are not.
-/

namespace TaskBalance

open Checked

variable {α : Type}

/-! ### What is compared -/

/-- The state of a hold and what it was charged. -/
inductive Status (α : Type)
  | held
  | released
  | settled (amount : α)
  deriving DecidableEq

def Hold.status (hold : Hold α) : Status α :=
  match hold.state with
  | .held => .held
  | .released _ _ => .released
  | .settled settlement => .settled settlement.settledAmount

/-- What a hold is about and how it stands, apart from texts and times. -/
def Hold.terms (hold : Hold α) : α × Status α × Bindings :=
  (hold.amount, hold.status, hold.bindings)

theorem Hold.terms_eq {record hold : Hold α} :
    record.terms = hold.terms ↔ record.amount = hold.amount ∧ record.status = hold.status ∧
      record.bindings = hold.bindings := by
  simp [Hold.terms]

/-- An earning apart from the time it was written at. -/
def Earning.billing (earning : Earning α) : Earning α := { earning with createdAt := "" }

/-- Two snapshots with the same balances, holds and earnings. -/
structure SameBalances (s s' : State α) : Prop where
  available : s.available = s'.available
  held : s.held = s'.held
  earned : s.earned = s'.earned
  earnings : ∀ key, (s.earnings.get? key).map Earning.billing =
    (s'.earnings.get? key).map Earning.billing
  holds : ∀ taskId, (s.holds.get? taskId).map (fun hold => (hold.amount, hold.status)) =
    (s'.holds.get? taskId).map fun hold => (hold.amount, hold.status)

/-! ### Replaying a live transition -/

/-- A replayed state has what a live one has. -/
structure Alike (r s : State α) : Prop where
  available : r.available = s.available
  held : r.held = s.held
  earned : r.earned = s.earned
  earnings : ∀ key, (r.earnings.get? key).map Earning.billing =
    (s.earnings.get? key).map Earning.billing
  holds : ∀ taskId, (r.holds.get? taskId).map Hold.terms = (s.holds.get? taskId).map Hold.terms

section

variable {r s s' : State α} {taskId : String} {hold record : Hold α}

theorem Alike.refl (s : State α) : Alike s s := ⟨rfl, rfl, rfl, fun _ => rfl, fun _ => rfl⟩

theorem Alike.same (h : Alike r s) : SameBalances r s where
  available := h.available
  held := h.held
  earned := h.earned
  earnings := h.earnings
  holds taskId := by
    have hterms := congrArg (Option.map fun terms => (terms.1, terms.2.1)) (h.holds taskId)
    rwa [Option.map_map, Option.map_map] at hterms

theorem Alike.missing (h : Alike r s) (hget : s.holds.get? taskId = none) :
    r.holds.get? taskId = none := by
  have hterms := h.holds taskId
  rw [hget] at hterms
  exact Option.map_eq_none_iff.mp hterms

/-- The replayed record of a task. -/
theorem Alike.found (h : Alike r s) (hget : s.holds.get? taskId = some hold) :
    ∃ record, r.holds.get? taskId = some record ∧ record.terms = hold.terms := by
  have hterms := h.holds taskId
  rw [hget] at hterms
  exact Option.map_eq_some_iff.mp hterms

theorem Alike.put (h : Alike r s) (hterms : record.terms = hold.terms) (available held : α) :
    Alike (r.put available held taskId record) (s.put available held taskId hold) := by
  refine ⟨rfl, rfl, h.earned, h.earnings, fun other => ?_⟩
  simp only [State.put, Dict.get?_set]
  split
  · exact congrArg some hterms
  · exact h.holds other

theorem Hold.released_of_status (h : hold.status = .released) :
    ∃ reason releasedAt, hold.state = .released reason releasedAt := by
  unfold Hold.status at h
  split at h
  · cases h
  · next reason releasedAt hstate => exact ⟨reason, releasedAt, hstate⟩
  · cases h

theorem Hold.held_of_status (h : hold.status = .held) : hold.state = .held := by
  unfold Hold.status at h
  split at h
  · next hstate => exact hstate
  · cases h
  · cases h

theorem Hold.status_of_held (h : hold.state = .held) : hold.status = .held := by
  simp [Hold.status, h]

variable [Zero α] [LE α] [DecidableLE α] [DecidableEq α] [Arithmetic α]

/-- **The event of a live transition is replayed to the same effect.** -/
theorem Alike.step (h : Alike r s) {entry : Entry α} (hstep : Transition s s' (some entry))
    (stamp : String) : Alike (replayEvent r { entry with createdAt := stamp }) s' := by
  cases hstep with
  | hold keyed fresh _ fits available_eq held_eq =>
    simp only [replayEvent, applyEvent, keyed]
    rw [applyHold_new (h.missing fresh) (h.available ▸ fits) (h.available ▸ available_eq)
      (h.held ▸ held_eq)]
    refine h.put ?_ _ _
    rfl
  | rehold keyed found released fits available_eq held_eq =>
    obtain ⟨record, hget, hterms⟩ := h.found found
    obtain ⟨hamount, hstatus, hbindings⟩ := Hold.terms_eq.mp hterms
    obtain ⟨reason, releasedAt, hstate⟩ := Hold.released_of_status
      (hstatus.trans (by simp [Hold.status, released]))
    rw [← hamount] at fits available_eq held_eq ⊢
    simp only [replayEvent, applyEvent, keyed]
    rw [← hbindings, applyHold_retry hget hstate (h.available ▸ fits)
      (h.available ▸ available_eq) (h.held ▸ held_eq)]
    refine h.put (Hold.terms_eq.mpr ?_) _ _
    exact ⟨hamount, rfl, hbindings⟩
  | settle found state _ fits refund_eq held_eq available_eq =>
    obtain ⟨record, hget, hterms⟩ := h.found found
    obtain ⟨hamount, hstatus, hbindings⟩ := Hold.terms_eq.mp hterms
    have hstate := Hold.held_of_status (hstatus.trans (Hold.status_of_held state))
    rw [← hamount] at fits refund_eq held_eq
    simp only [replayEvent, applyEvent]
    rw [applySettle_held hget hstate fits refund_eq (h.held ▸ held_eq)
      (h.available ▸ available_eq)]
    refine h.put (Hold.terms_eq.mpr ?_) _ _
    exact ⟨hamount, rfl, hbindings⟩
  | release found state held_eq available_eq =>
    obtain ⟨record, hget, hterms⟩ := h.found found
    obtain ⟨hamount, hstatus, hbindings⟩ := Hold.terms_eq.mp hterms
    have hstate := Hold.held_of_status (hstatus.trans (Hold.status_of_held state))
    rw [← hamount] at held_eq available_eq ⊢
    simp only [replayEvent, applyEvent]
    rw [applyRelease_held hget hstate (h.held ▸ held_eq) (h.available ▸ available_eq)]
    refine h.put (Hold.terms_eq.mpr ?_) _ _
    exact ⟨hamount, rfl, hbindings⟩
  | @earning taskId _ _ _ _ _ _ fresh _ earned_eq =>
    have hget := h.earnings (earningKey taskId)
    rw [fresh] at hget
    simp only [replayEvent, applyEvent]
    rw [applyEarning_new (Option.map_eq_none_iff.mp hget) (h.earned ▸ earned_eq)]
    refine ⟨h.available, h.held, rfl, fun key => ?_, h.holds⟩
    show ((r.earnings.set _ _).get? key).map _ = ((s.earnings.set _ _).get? key).map _
    simp only [Dict.get?_set]
    split
    · rfl
    · exact h.earnings key

end

/-! ### The two parts of a balance -/

/-- The event is about the holds. -/
def Detail.escrows : Detail α → Bool
  | .earning _ _ _ => false
  | _ => true

/-- The event is about the earnings; the opening grant is about both. -/
def Detail.earns : Detail α → Bool
  | .opening _ => true
  | .earning _ _ _ => true
  | _ => false

/-- The events are about one part of the balance. -/
def Detail.meets (a b : Detail α) : Bool := a.escrows && b.escrows || a.earns && b.earns

theorem Detail.meets_self (detail : Detail α) : detail.meets detail := by
  cases detail <;> rfl

/-- The holds of one state with the earnings of another. -/
def State.join (s m : State α) : State α := { s with earned := m.earned, earnings := m.earnings }

/-- The event is no opening grant. -/
def Detail.Moves (detail : Detail α) : Prop := ∀ earned, detail ≠ .opening earned

section

variable [Zero α] [LE α] [DecidableLE α] [DecidableEq α] [Arithmetic α]

omit [DecidableEq α] in
/-- A frozen amount does not depend on what was earned. -/
theorem freeze_join (s m : State α) (record : Hold α) (entry : Entry α) :
    (match Prod.fst <$> freeze (s.join m) record entry with
      | .ok state => state
      | .error raised => raised.state) =
    (match Prod.fst <$> freeze s record entry with
      | .ok state => state
      | .error raised => raised.state).join m := by
  simp only [freeze, State.join, require, Checked.require]
  by_cases hfits : entry.amount ≤ s.available
  · simp only [hfits, if_true]
    cases minus s.available entry.amount with
    | none => rfl
    | some available => cases plus s.held entry.amount <;> rfl
  · simp only [hfits, if_false]
    rfl

/-- An event of a hold changes the holds only, whatever was earned. -/
theorem replayEvent_escrows (s m : State α) {event : CreditEvent α} (hmoves : event.detail.Moves)
    (hescrows : event.detail.escrows) :
    replayEvent (s.join m) event = (replayEvent s event).join m := by
  cases hdetail : event.detail with
  | opening earned => exact absurd hdetail (hmoves earned)
  | earning => simp [Detail.escrows, hdetail] at hescrows
  | hold bindings =>
    simp only [replayEvent, applyEvent, hdetail, applyHold]
    have hjoin : (s.join m).holds = s.holds := rfl
    rw [hjoin]
    cases s.holds.get? event.taskId with
    | none => exact freeze_join ..
    | some previous =>
      by_cases hterms : previous.bindings = bindings.keyed event.taskId ∧
          previous.amount = event.amount
      · simp only [require, Checked.require, if_pos hterms]
        cases previous.state with
        | released reason releasedAt => exact freeze_join ..
        | _ => rfl
      · simp only [require, Checked.require, if_neg hterms]
        rfl
  | settle serviceId providerPeerId usage =>
    simp only [replayEvent, applyEvent, hdetail, applySettle, State.join, require, Checked.require]
    cases s.holds.get? event.taskId with
    | none => rfl
    | some previous =>
      simp only [Checked.demand_some, ok_bind]
      cases previous.state with
      | held =>
        by_cases hfits : event.amount ≤ previous.amount
        · simp only [hfits, if_true]
          cases minus previous.amount event.amount with
          | none => rfl
          | some refund =>
            cases minus s.held previous.amount with
            | none => rfl
            | some held =>
              simp only [checked_some, ok_bind]
              cases plus s.available refund <;> rfl
        · simp only [hfits, if_false]
          rfl
      | _ => rfl
  | release reason =>
    simp only [replayEvent, applyEvent, hdetail, applyRelease, State.join]
    cases s.holds.get? event.taskId with
    | none => rfl
    | some previous =>
      simp only [Checked.demand_some, ok_bind]
      cases previous.state with
      | held =>
        cases minus s.held previous.amount with
        | none => rfl
        | some held => cases plus s.available previous.amount <;> rfl
      | _ => rfl

/-- An earning changes the earnings only, whatever is held. -/
theorem replayEvent_earns (s m : State α) {event : CreditEvent α}
    (hearns : ¬ event.detail.escrows) :
    replayEvent (s.join m) event = s.join (replayEvent m event) := by
  cases hdetail : event.detail with
  | earning serviceId consumerPeerId usage =>
    simp only [replayEvent, applyEvent, hdetail, applyEarning, State.join]
    cases m.earnings.get? (earningKey event.taskId) with
    | some earning => rfl
    | none => cases plus m.earned event.amount <;> rfl
  | _ => exact absurd (by simp [Detail.escrows, hdetail]) hearns

variable {events listed : List (CreditEvent α)}

/-- Each part of a balance is replayed from its own events. -/
theorem foldl_join (hmoves : ∀ event ∈ events, event.detail.Moves) (s m : State α) :
    events.foldl replayEvent (s.join m) =
      ((events.filter (·.detail.escrows)).foldl replayEvent s).join
        ((events.filter (!·.detail.escrows)).foldl replayEvent m) := by
  induction events generalizing s m with
  | nil => rfl
  | cons event events ih =>
    have hrest : ∀ e ∈ events, e.detail.Moves := fun e he => hmoves e (.tail _ he)
    rw [List.foldl_cons]
    cases hescrows : event.detail.escrows with
    | true =>
      rw [replayEvent_escrows s m (hmoves event (.head _)) hescrows, ih hrest]
      simp [hescrows]
    | false =>
      rw [replayEvent_earns s m (by simp [hescrows]), ih hrest]
      simp [hescrows]

/-- Two histories with the same events of each part are replayed alike. -/
theorem foldl_eq_of_parts (hmoves : ∀ event ∈ events, event.detail.Moves)
    (hlisted : ∀ event ∈ listed, event.detail.Moves)
    (hescrows : listed.filter (·.detail.escrows) = events.filter (·.detail.escrows))
    (hearns : listed.filter (!·.detail.escrows) = events.filter (!·.detail.escrows)) (s : State α) :
    listed.foldl replayEvent s = events.foldl replayEvent s := by
  have hself : s.join s = s := rfl
  rw [← hself, foldl_join hlisted, foldl_join hmoves, hescrows, hearns]

end

/-! ### The order of a history -/

/-- The event sorts after the earlier ones of its time stamp that are about the same part
of the balance. -/
def InOrder (events : List (CreditEvent α)) (event : CreditEvent α) : Prop :=
  ∀ earlier ∈ events, earlier.createdAt = event.createdAt → earlier.detail.meets event.detail →
    earlier.dedupeKey < event.dedupeKey

instance (events : List (CreditEvent α)) (event : CreditEvent α) :
    Decidable (InOrder events event) :=
  List.decidableBAll ..

/-- The events of each part are in the order of replay. -/
def Chronicle (events : List (CreditEvent α)) : Prop :=
  events.Pairwise fun a b => a.detail.meets b.detail → a.before b ∧ ¬ b.before a

section

variable {events listed : List (CreditEvent α)}

theorem Chronicle.append (h : Chronicle events) (event : CreditEvent α)
    (hclock : ∀ earlier ∈ events, earlier.createdAt ≤ event.createdAt)
    (hordered : InOrder events event) : Chronicle (events ++ [event]) := by
  refine List.pairwise_append.mpr ⟨h, List.pairwise_singleton _ _, ?_⟩
  intro earlier hearlier last hlast
  rw [List.mem_singleton.mp hlast]
  intro hmeets
  rw [before_iff, before_iff]
  by_cases heq : earlier.createdAt = event.createdAt
  · have hkey := hordered earlier hearlier heq hmeets
    grind
  · grind

/-- A sorted list is the only one of its members. -/
theorem eq_of_sorted (hperm : listed.Perm events) (hlisted : listed.Pairwise fun a b => a.before b)
    (hevents : events.Pairwise fun a b => a.before b ∧ ¬ b.before a) : listed = events := by
  have hantisymm : ∀ a ∈ events, ∀ b ∈ events, a.before b → b.before a → a = b := by
    refine List.Pairwise.forall_of_forall_of_flip (fun _ _ _ _ => rfl) ?_ ?_
    · exact hevents.imp fun hab _ hba => absurd hba hab.2
    · exact hevents.imp fun hab hba _ => absurd hba hab.2
  exact hperm.eq_of_pairwise (fun a b ha hb => hantisymm a (hperm.subset ha) b hb) hlisted
    (hevents.imp And.left)

/-- **Sorting keeps the order of each part.** -/
theorem Chronicle.filter_eq (h : Chronicle events) (hperm : listed.Perm events)
    (part : CreditEvent α → Bool)
    (hmeets : ∀ a b, part a → part b → a.detail.meets b.detail) :
    (categoryEvents listed).filter part = events.filter part := by
  refine eq_of_sorted (((List.mergeSort_perm _ _).trans hperm).filter part)
    ((categoryEvents_sorted listed).sublist List.filter_sublist) ?_
  refine (h.sublist List.filter_sublist).imp_of_mem fun ha hb hab => hab ?_
  exact hmeets _ _ (List.mem_filter.mp ha).2 (List.mem_filter.mp hb).2

end

/-! ### Runs -/

section

variable [Zero α] [LE α] [DecidableLE α] [DecidableEq α] [Arithmetic α]

/-- A run of answered calls on a ledger-backed balance from its opening grant.
Time stamps never decrease, and each recorded event meets the condition. -/
inductive LedgerRun (condition : List (CreditEvent α) → CreditEvent α → Prop) :
    TaskBalance α → Prop
  | opened {initial : Number} {grant : α} (openedAt : String)
      (amount : amountOf initial = .ok grant) :
      LedgerRun condition (openLedgerBacked grant openedAt none [])
  | answered {t : TaskBalance α} {env : Environment} {call : Call} {state : State α}
      {staged answer : Answer α} (before : LedgerRun condition t)
      (stage : t.stage env call = .ok (state, staged, none))
      (answers : (t.execute env call).1 = .ok answer) : LedgerRun condition (t.execute env call).2
  | recorded {t : TaskBalance α} {env : Environment} {call : Call} {state : State α}
      {staged answer : Answer α} {entry : Entry α} {events : List (CreditEvent α)}
      (before : LedgerRun condition t) (signed : t.events = some events)
      (stage : t.stage env call = .ok (state, staged, some entry))
      (answers : (t.execute env call).1 = .ok answer)
      (clock : ∀ event ∈ events, event.createdAt ≤ env.signedAt)
      (meets : condition events { entry with createdAt := env.signedAt }) :
      LedgerRun condition (t.execute env call).2

variable {t : TaskBalance α} {env : Environment} {call : Call} {state : State α}
  {staged answer : Answer α} {entry : Entry α} {events listed : List (CreditEvent α)}

theorem execute_answered (hstage : t.stage env call = .ok (state, staged, none))
    (hanswer : (t.execute env call).1 = .ok answer) :
    (t.execute env call).2 = { t with snapshot := state, foldedEvents := t.folded } := by
  simp only [execute, hstage, write] at hanswer ⊢
  split at hanswer
  · cases hanswer
  · next hwrites => rw [if_neg hwrites]

theorem execute_recorded (hsigned : t.events = some events)
    (hstage : t.stage env call = .ok (state, staged, some entry))
    (hanswer : (t.execute env call).1 = .ok answer) :
    (t.execute env call).2 = {
      snapshot := state
      foldedEvents := t.folded + 1
      events := some (recordEvent events { entry with createdAt := env.signedAt })
      folded := t.folded + 1 } := by
  unfold execute at hanswer ⊢
  cases hrecord : env.recordFails with
  | true => simp [hstage, appendCredit, hsigned, hrecord] at hanswer
  | false =>
    cases hwrite : env.writeFails with
    | true =>
      simp [hstage, appendCredit, hsigned, hrecord, write, hwrite, pure, Except.pure] at hanswer
    | false => simp [hstage, appendCredit, hsigned, hrecord, write, hwrite, pure, Except.pure]

omit [DecidableLE α] [DecidableEq α] in
/-- An event that a transition records is no opening grant. -/
theorem Transition.moves {s s' : State α} (hstep : Transition s s' (some entry)) :
    entry.detail.Moves := by
  cases hstep <;> exact fun _ h => by cases h

/-- **What every such run keeps**: the grant is the first event, and the events replayed
in the order of the calls give the live snapshot. -/
theorem LedgerRun.history (h : LedgerRun InOrder t) :
    ∃ grant openedAt moves, 0 ≤ grant ∧ t.events = some (openingEvent grant openedAt :: moves) ∧
      (∀ event ∈ moves, event.detail.Moves) ∧
      Chronicle (openingEvent grant openedAt :: moves) ∧
      Alike (moves.foldl replayEvent (.fresh grant)) t.snapshot := by
  induction h with
  | @opened initial grant openedAt amount =>
    refine ⟨grant, openedAt, [], amountOf_nonneg amount, rfl, by simp, ?_, .refl _⟩
    exact List.pairwise_singleton _ _
  | answered before stage answers ih =>
    rw [execute_answered stage answers]
    cases stage_transition stage
    exact ih
  | @recorded t env call state staged answer entry events before signed stage answers clock
      meets ih =>
    obtain ⟨grant, openedAt, moves, hgrant, hevents, hmoves, hchronicle, halike⟩ := ih
    obtain rfl := Option.mem_unique signed hevents
    have hstep := stage_transition stage
    have hnew : (⟨entry, env.signedAt⟩ : CreditEvent α) ∉ openingEvent grant openedAt :: moves :=
      fun hmem => String.lt_irrefl _ (meets _ hmem rfl (Detail.meets_self _))
    rw [execute_recorded signed stage answers, recordEvent, if_neg hnew]
    refine ⟨grant, openedAt, moves ++ [⟨entry, env.signedAt⟩], hgrant, rfl, ?_, ?_, ?_⟩
    · simpa [or_imp, forall_and] using ⟨hmoves, hstep.moves⟩
    · exact hchronicle.append _ clock meets
    · rw [List.foldl_append]
      exact halike.step hstep _

/-- **Listed in whatever order, such a history is replayed in the order of the calls.** -/
theorem replay_chronicle {grant : α} {openedAt : String} {moves : List (CreditEvent α)}
    (hgrant : 0 ≤ grant) (hmoves : ∀ event ∈ moves, event.detail.Moves)
    (hchronicle : Chronicle (openingEvent grant openedAt :: moves))
    (hperm : listed.Perm (openingEvent grant openedAt :: moves)) :
    replay listed = moves.foldl replayEvent (.fresh grant) := by
  have hescrows := hchronicle.filter_eq hperm (·.detail.escrows) fun a b ha hb => by
    simp [Detail.meets, ha, hb]
  have hearns := hchronicle.filter_eq hperm (·.detail.earns) fun a b ha hb => by
    simp [Detail.meets, ha, hb]
  have hsorted : (categoryEvents listed).Perm (openingEvent grant openedAt :: moves) :=
    (List.mergeSort_perm _ _).trans hperm
  have hopening : (openingEvent grant openedAt).detail.escrows = true ∧
      (openingEvent grant openedAt).detail.earns = true := ⟨rfl, rfl⟩
  -- every event is of some part, and the grant is the first of each
  obtain ⟨rest, hrest⟩ : ∃ rest, categoryEvents listed = openingEvent grant openedAt :: rest := by
    cases hcase : categoryEvents listed with
    | nil => exact absurd (hcase ▸ hsorted).nil_eq (by simp)
    | cons first rest =>
      refine ⟨rest, congrArg (· :: rest) ?_⟩
      rw [hcase] at hescrows hearns
      cases hfirst : first.detail.escrows with
      | true =>
        simp only [List.filter_cons, hfirst, hopening, if_true] at hescrows
        exact (List.cons.inj hescrows).1
      | false =>
        have hearn : first.detail.earns := by
          cases hdetail : first.detail <;> simp_all [Detail.escrows, Detail.earns]
        simp only [List.filter_cons, hearn, hopening, if_true] at hearns
        exact (List.cons.inj hearns).1
  rw [hrest] at hescrows hearns hsorted
  have hlisted : ∀ event ∈ rest, event.detail.Moves :=
    fun event hevent => hmoves event (hsorted.cons_inv.subset hevent)
  have hparts : ∀ event : CreditEvent α, event.detail.Moves →
      event.detail.earns = !event.detail.escrows := by
    intro event hevent
    cases hdetail : event.detail with
    | opening earned => exact absurd hdetail (hevent earned)
    | _ => rfl
  have hopened : replayEvent (.fresh 0) (openingEvent grant openedAt) = .fresh grant := by
    simp [replayEvent, applyEvent, openingEvent, State.fresh, Arithmetic.zero_plus hgrant]
  rw [replay, hrest, List.foldl_cons, hopened]
  refine foldl_eq_of_parts hmoves hlisted (List.cons.inj hescrows).2 ?_ _
  rw [← List.filter_congr fun event hevent => hparts event (hlisted event hevent),
    ← List.filter_congr fun event hevent => hparts event (hmoves event hevent)]
  exact (List.cons.inj hearns).2

end

/-- **Replay equals the live snapshot.**  In every run of answered calls whose recorded
events are `InOrder`, replaying the signed events, in whatever order they are listed,
gives the same balances, earnings and holds as the live snapshot, and so does reopening
with a snapshot that is lost or has not folded all of them. -/
theorem replay_reproduces {t : TaskBalance Amount} (h : LedgerRun InOrder t) :
    ∃ events, t.events = some events ∧ ∀ listed, listed.Perm events →
      SameBalances (replay listed) t.snapshot ∧
      ∀ initial signedAt existing,
        (∀ state folded, existing = some (state, folded) → folded ≠ listed.length) →
        SameBalances (openLedgerBacked initial signedAt existing listed).snapshot t.snapshot := by
  obtain ⟨grant, openedAt, moves, hgrant, hevents, hmoves, hchronicle, halike⟩ := h.history
  refine ⟨_, hevents, fun listed hperm => ?_⟩
  have hreplay : SameBalances (replay listed) t.snapshot :=
    replay_chronicle hgrant hmoves hchronicle hperm ▸ halike.same
  refine ⟨hreplay, fun initial signedAt existing hstale => ?_⟩
  have hlisted : listed ≠ [] := fun hnil => absurd (hnil ▸ hperm).nil_eq (by simp)
  cases existing with
  | none =>
    simp only [openLedgerBacked, hlisted, if_false]
    exact hreplay
  | some stored =>
    simp only [openLedgerBacked, hstale _ _ rfl, if_false]
    exact hreplay

/-! ### Runs with equal time stamps -/

/-- A call at a time, with nothing failing. -/
def sampleEnvironment (signedAt : String) : Environment :=
  { now := signedAt, signedAt, readFails := false, recordFails := false, writeFails := false }

/-- A call that is answered and recorded extends a run. -/
theorem LedgerRun.extend {condition : List (CreditEvent Amount) → CreditEvent Amount → Prop}
    [∀ events event, Decidable (condition events event)] {t : TaskBalance Amount}
    (h : LedgerRun condition t) (signedAt : String) (call : Call) (hsigned : t.events.isSome)
    (hanswers : (t.execute (sampleEnvironment signedAt) call).1.toOption.isSome)
    (hclock : ∀ event ∈ t.events.getD [], event.createdAt ≤ signedAt)
    (hmeets : (t.stage (sampleEnvironment signedAt) call).toOption.any fun staged =>
      staged.2.2.any fun entry => condition (t.events.getD []) ⟨entry, signedAt⟩) :
    LedgerRun condition (t.execute (sampleEnvironment signedAt) call).2 := by
  obtain ⟨events, hevents⟩ := Option.isSome_iff_exists.mp hsigned
  rw [hevents, Option.getD_some] at hclock hmeets
  obtain ⟨⟨state, staged, _ | entry⟩, hstage, hrecorded⟩ := toOption_any hmeets
  · cases hrecorded
  · obtain ⟨answer, hanswer⟩ := toOption_isSome hanswers
    exact .recorded h hevents hstage hanswer hclock (of_decide_eq_true hrecorded)

def sampleHold : Call := .hold "task" (.finite 4) ⟨"service", "provider", "", "print"⟩

def sampleRelease : Call := .release "task" "retry"

def sampleSettle : Call := .settle "task" (.finite 3) ⟨1, 2, 3⟩ "service" "provider"

def sampleEarn : Call := .earn "task" (.finite 7) ⟨1, 1, 1⟩ "service" "consumer"

def sampleAmount (value : ℚ) : Amount := (Amount.of value).getD 0

theorem amountOf_sample {value : ℚ} (h : (Amount.of value).isSome) :
    amountOf (.finite value) = .ok (sampleAmount value) := by
  obtain ⟨amount, hamount⟩ := Option.isSome_iff_exists.mp h
  rw [sampleAmount, hamount]
  exact demand_ok.mpr hamount

/-- What calls at given times leave of a new balance of ten. -/
def sampleRun (calls : List (String × Call)) : TaskBalance Amount :=
  (openLedgerBacked (sampleAmount 10) "0" none []).after
    (calls.map fun call => (sampleEnvironment call.1, call.2))

/-- A task held, released and held again, at three times. -/
def sampleReheld (first second third : String) : TaskBalance Amount :=
  sampleRun [(first, sampleHold), (second, sampleRelease), (third, sampleHold)]

/-- The events of such a task at one time, as replay reads them. -/
def sampleTied : List (CreditEvent Amount) :=
  let hold (dedupeKey : String) : CreditEvent Amount :=
    { taskId := "task", amount := sampleAmount 4, dedupeKey
      detail := .hold ⟨"service", "provider", "task", "print"⟩, createdAt := "1" }
  [openingEvent (sampleAmount 10) "0", hold "hold:task", hold "hold:task:1",
    { taskId := "task", amount := sampleAmount 4, dedupeKey := "release:task:0"
      detail := .release "retry", createdAt := "1" }]

/-- **Equal time stamps lose a re-hold.**  The task is held, released and held
again at one time; replay reads the two holds before the release. -/
theorem tied_rehold : ∃ t events, LedgerRun (fun _ _ => True) t ∧
    t.events = some events ∧ ¬ SameBalances (α := Amount) (replay events) t.snapshot := by
  have h0 : LedgerRun (fun _ _ => True) (sampleRun []) :=
    .opened "0" (amountOf_sample (by decide +kernel))
  have h1 := h0.extend "1" sampleHold rfl (by decide +kernel) (by decide +kernel)
    (by decide +kernel)
  have h2 := h1.extend "1" sampleRelease (by decide +kernel) (by decide +kernel) (by decide +kernel)
    (by decide +kernel)
  have h3 := h2.extend "1" sampleHold (by decide +kernel) (by decide +kernel) (by decide +kernel)
    (by decide +kernel)
  refine ⟨sampleReheld "1" "1" "1", (sampleReheld "1" "1" "1").events.getD [], h3,
    by decide +kernel, fun hsame => ?_⟩
  have hsorted : categoryEvents ((sampleReheld "1" "1" "1").events.getD []) = sampleTied :=
    eq_of_sorted ((List.mergeSort_perm _ _).trans (by decide +kernel)) (categoryEvents_sorted _)
      (by decide +kernel)
  have havailable := hsame.available
  rw [replay, hsorted] at havailable
  exact absurd havailable (by decide +kernel)

/-- A task is held and settled at the time another part of the balance earns. -/
def sampleCharged : TaskBalance Amount :=
  sampleRun [("1", sampleHold), ("1", sampleSettle), ("1", sampleEarn)]

theorem replay_reproduces_sample :
    sampleCharged.snapshot.available = sampleAmount 7 ∧
      ∀ listed, listed.Perm (sampleCharged.events.getD []) →
        SameBalances (replay listed) sampleCharged.snapshot := by
  have h0 : LedgerRun InOrder (sampleRun []) := .opened "0" (amountOf_sample (by decide +kernel))
  have h1 := h0.extend "1" sampleHold rfl (by decide +kernel) (by decide +kernel)
    (by decide +kernel)
  have h2 := h1.extend "1" sampleSettle (by decide +kernel) (by decide +kernel) (by decide +kernel)
    (by decide +kernel)
  have h3 : LedgerRun InOrder sampleCharged :=
    h2.extend "1" sampleEarn (by decide +kernel) (by decide +kernel) (by decide +kernel)
      (by decide +kernel)
  obtain ⟨events, hevents, hreplay⟩ := replay_reproduces h3
  refine ⟨by decide +kernel, fun listed hperm => (hreplay listed ?_).1⟩
  rwa [hevents] at hperm

end TaskBalance
