import Rynmesh.TaskBalance

/-!
# Conservation of the task balance

In exact decimals: an amount is a number of units of `10⁻⁸`.

* `Balanced` is the invariant: what is available, frozen and charged adds up to
  the opening balance;
* `Lasting` is what later states keep: a task's terms, a settled record, an
  earning;
* `raised_stored_iff` says which calls that raise leave the stored state alone;
* `balance_conserved` carries all of it along every run of live calls, and
  `refused_hold_charged` is a call that raises and is charged.
-/

namespace TaskBalance

open Checked

/-! ### Exact decimals -/

/-- A number of units that `_amount` accepts. -/
def units (n : Int) : Option Int := if 0 ≤ n then some n else none

@[simp] theorem units_some {n a : Int} : units n = some a ↔ n = a ∧ 0 ≤ a := by
  unfold units
  split <;> simp <;> omega

@[simp] theorem units_none {n : Int} : units n = none ↔ n < 0 := by
  simp [units]

instance : Arithmetic Int where
  amount q := units (Rounding.roundHalfEven (q * 10 ^ 8))
  plus a b := units (a + b)
  minus a b := units (a - b)
  amount_nonneg h := (units_some.mp h).2
  zero_plus h := units_some.mpr ⟨Int.zero_add _, h⟩

@[simp] theorem plus_int {a b : Int} : plus a b = units (a + b) := rfl

@[simp] theorem minus_int {a b : Int} : minus a b = units (a - b) := rfl

variable {s s' : State Int} {opening : Int}

/-- What is frozen for a hold. -/
def Hold.frozen (hold : Hold Int) : Int :=
  match hold.state with
  | .held => hold.amount
  | _ => 0

/-- What a hold was charged. -/
def Hold.charged (hold : Hold Int) : Int :=
  match hold.state with
  | .settled settlement => settlement.settledAmount
  | _ => 0

/-! ### The books -/

/-- **The books of a task balance.** -/
structure Balanced (opening : Int) (s : State Int) : Prop where
  conserved : s.available + s.held + s.holds.sumBy Hold.charged = opening
  frozen : s.held = s.holds.sumBy Hold.frozen
  available_nonneg : 0 ≤ s.available
  amounts : ∀ taskId hold, s.holds.get? taskId = some hold → 0 ≤ hold.amount
  settlements : ∀ taskId hold settlement, s.holds.get? taskId = some hold →
    hold.state = .settled settlement →
    0 ≤ settlement.settledAmount ∧ settlement.settledAmount ≤ hold.amount

theorem Balanced.held_nonneg (h : Balanced opening s) : 0 ≤ s.held := by
  rw [h.frozen]
  refine Dict.sumBy_nonneg fun taskId hold hget => ?_
  have hamount := h.amounts taskId hold hget
  unfold Hold.frozen
  split
  · exact hamount
  · exact le_refl 0

theorem Balanced.fresh (hopening : 0 ≤ opening) : Balanced opening (.fresh opening) where
  conserved := by simp [State.fresh]
  frozen := by simp [State.fresh]
  available_nonneg := hopening
  amounts taskId hold hget := by cases hget
  settlements taskId hold settlement hget := by cases hget

/-- **Writing one record keeps the books**, when the balances move by what the
record's share changes. -/
theorem Balanced.put (h : Balanced opening s) {taskId : String} {record : Hold Int}
    {available held : Int} (havailable : 0 ≤ available) (hamount : 0 ≤ record.amount)
    (hsettled : ∀ settlement, record.state = .settled settlement →
      0 ≤ settlement.settledAmount ∧ settlement.settledAmount ≤ record.amount)
    (hheld : held = s.held - ((s.holds.get? taskId).map Hold.frozen).getD 0 + record.frozen)
    (hsum : available + record.frozen + record.charged =
      s.available + ((s.holds.get? taskId).map Hold.frozen).getD 0 +
        ((s.holds.get? taskId).map Hold.charged).getD 0) :
    Balanced opening (s.put available held taskId record) := by
  have hconserved := h.conserved
  have hfrozen := h.frozen
  refine ⟨?_, ?_, havailable, Dict.forall_get?_set hamount h.amounts,
    fun id hold settlement hget hstate => ?_⟩
  · show available + held + (s.holds.set taskId record).sumBy Hold.charged = opening
    rw [Dict.sumBy_set_int]
    omega
  · show held = (s.holds.set taskId record).sumBy Hold.frozen
    rw [Dict.sumBy_set_int]
    omega
  · exact Dict.forall_get?_set hsettled (fun other found hfound state =>
      h.settlements other found state hfound) id hold hget settlement hstate

/-- **A transition keeps the books.** -/
theorem Transition.balanced {entry : Option (Entry Int)} (hstep : Transition s s' entry)
    (h : Balanced opening s) : Balanced opening s' := by
  cases hstep with
  | kept => exact h
  | hold _ fresh amount_nonneg fits available_eq held_eq =>
    obtain ⟨rfl, havailable⟩ := units_some.mp available_eq
    obtain ⟨rfl, -⟩ := units_some.mp held_eq
    refine h.put havailable amount_nonneg ?_ ?_ ?_
    · nofun
    · simp [fresh, Hold.frozen, Hold.new]
    · simp [fresh, Hold.frozen, Hold.charged, Hold.new]
  | rehold _ found released fits available_eq held_eq =>
    have hamount := h.amounts _ _ found
    obtain ⟨rfl, havailable⟩ := units_some.mp available_eq
    obtain ⟨rfl, -⟩ := units_some.mp held_eq
    refine h.put havailable hamount ?_ ?_ ?_
    · nofun
    · simp [found, Hold.frozen, Hold.retry, released]
    · simp [found, Hold.frozen, Hold.charged, Hold.retry, released]
  | settle found state amount_nonneg fits refund_eq held_eq available_eq =>
    have hamount := h.amounts _ _ found
    obtain ⟨rfl, -⟩ := units_some.mp refund_eq
    obtain ⟨rfl, -⟩ := units_some.mp held_eq
    obtain ⟨rfl, havailable⟩ := units_some.mp available_eq
    refine h.put havailable hamount ?_ ?_ ?_
    · intro settlement hstate
      obtain rfl := HoldState.settled.inj hstate
      exact ⟨amount_nonneg, fits⟩
    · simp [found, Hold.frozen, Hold.settle, state]
    · simp only [found, Hold.frozen, Hold.charged, Hold.settle, state, Option.map_some,
        Option.getD_some]
      omega
  | release found state held_eq available_eq =>
    have hamount := h.amounts _ _ found
    obtain ⟨rfl, -⟩ := units_some.mp held_eq
    obtain ⟨rfl, havailable⟩ := units_some.mp available_eq
    refine h.put havailable hamount ?_ ?_ ?_
    · nofun
    · simp [found, Hold.frozen, Hold.release, state]
    · simp [found, Hold.frozen, Hold.charged, Hold.release, state]
  | earning => exact ⟨h.conserved, h.frozen, h.available_nonneg, h.amounts, h.settlements⟩

/-! ### What lasts -/

/-- What later states keep of a state. -/
structure Lasting (s s' : State Int) : Prop where
  terms : ∀ taskId hold, s.holds.get? taskId = some hold →
    ∃ hold', s'.holds.get? taskId = some hold' ∧ hold'.amount = hold.amount ∧
      hold'.bindings = hold.bindings
  settled : ∀ taskId hold settlement, s.holds.get? taskId = some hold →
    hold.state = .settled settlement → s'.holds.get? taskId = some hold
  earnings : ∀ key earning, s.earnings.get? key = some earning →
    s'.earnings.get? key = some earning

theorem Lasting.refl (s : State Int) : Lasting s s where
  terms _ hold hget := ⟨hold, hget, rfl, rfl⟩
  settled _ _ _ hget _ := hget
  earnings _ _ hget := hget

theorem Lasting.trans {s'' : State Int} (h : Lasting s s') (h' : Lasting s' s'') :
    Lasting s s'' where
  terms taskId hold hget := by
    obtain ⟨hold', hget', hamount, hbindings⟩ := h.terms taskId hold hget
    obtain ⟨hold'', hget'', hamount', hbindings'⟩ := h'.terms taskId hold' hget'
    exact ⟨hold'', hget'', hamount'.trans hamount, hbindings'.trans hbindings⟩
  settled taskId hold settlement hget hstate :=
    h'.settled taskId hold settlement (h.settled taskId hold settlement hget hstate) hstate
  earnings key earning hget := h'.earnings key earning (h.earnings key earning hget)

theorem Lasting.put {taskId : String} {record : Hold Int} {available held : Int}
    (hrecord : ∀ previous, s.holds.get? taskId = some previous →
      record.amount = previous.amount ∧ record.bindings = previous.bindings ∧
        ∀ settlement, previous.state ≠ .settled settlement) :
    Lasting s (s.put available held taskId record) where
  terms id hold hget := by
    rw [State.put, Dict.get?_set]
    by_cases hid : id = taskId
    · subst hid
      obtain ⟨hamount, hbindings, -⟩ := hrecord hold hget
      exact ⟨record, by simp, hamount, hbindings⟩
    · exact ⟨hold, by simp [hid, hget], rfl, rfl⟩
  settled id hold settlement hget hstate := by
    rw [State.put, Dict.get?_set]
    by_cases hid : id = taskId
    · subst hid
      exact absurd hstate ((hrecord hold hget).2.2 settlement)
    · simp [hid, hget]
  earnings _ _ hget := hget

theorem Transition.lasting {entry : Option (Entry Int)} (hstep : Transition s s' entry) :
    Lasting s s' := by
  cases hstep with
  | kept => exact .refl s
  | hold _ fresh =>
    refine .put fun previous hget => ?_
    rw [fresh] at hget
    cases hget
  | rehold _ found released =>
    refine .put fun previous hget => ?_
    obtain rfl := Option.mem_unique found hget
    exact ⟨rfl, rfl, by simp [released]⟩
  | settle found state | release found state =>
    refine .put fun previous hget => ?_
    obtain rfl := Option.mem_unique found hget
    exact ⟨rfl, rfl, by simp [state]⟩
  | @earning taskId _ _ _ _ _ _ fresh =>
    refine ⟨fun id hold hget => ⟨hold, hget, rfl, rfl⟩, fun _ _ _ hget _ => hget,
      fun key earning hget => ?_⟩
    rw [State.earn, Dict.get?_set_ne]
    · exact hget
    · rintro rfl
      rw [fresh] at hget
      cases hget

theorem Transition.earned {entry : Option (Entry Int)} (hstep : Transition s s' entry) :
    s'.earned = s.earned ∨ ∃ taskId earning, s.earnings.get? (earningKey taskId) = none ∧
      s'.earned = s.earned + earning.amount ∧ earning.taskId = taskId ∧
      s'.earnings.get? (earningKey taskId) = some earning := by
  cases hstep with
  | @earning taskId serviceId consumerPeerId stamp amount _ usage fresh _ earned_eq =>
    exact .inr ⟨taskId, { taskId, serviceId, consumerPeerId, usage, amount, createdAt := stamp },
      fresh, (units_some.mp earned_eq).1.symm, rfl, Dict.get?_set_self ..⟩
  | _ => exact .inl rfl

/-! ### Live calls -/

/-- The stored state is the same: the snapshot file and the signed events. -/
def SameStored (balance balance' : TaskBalance Int) : Prop :=
  balance'.snapshot = balance.snapshot ∧ balance'.foldedEvents = balance.foldedEvents ∧
    balance'.events = balance.events

variable {balance : TaskBalance Int} {env : Environment} {call : Call}

/-- The call signs a new event, and then the snapshot cannot be written. -/
def Torn (balance : TaskBalance Int) (env : Environment) (call : Call) : Prop :=
  env.recordFails = false ∧ env.writeFails = true ∧
    ∃ state answer entry events, balance.stage env call = .ok (state, answer, some entry) ∧
      balance.events = some events ∧
      ({ entry with createdAt := env.signedAt } : CreditEvent Int) ∉ events

/-- **A call that raises leaves the stored state alone**, except where its event is signed
and the snapshot is not written. -/
theorem raised_stored_iff {e : Failure} (hraised : (balance.execute env call).1 = .error e) :
    SameStored balance (balance.execute env call).2 ↔ ¬ Torn balance env call := by
  constructor
  · rintro ⟨-, -, hsame⟩ ⟨hrecord, hwrite, state, answer, entry, events, hstage, hevents, hnew⟩
    have hlonger : (balance.execute env call).2.events =
        some (events ++ [{ entry with createdAt := env.signedAt }]) := by
      simp [execute, hstage, appendCredit, hevents, hrecord, write, hwrite, recordEvent, hnew, pure,
        Except.pure]
    rw [hlonger, hevents] at hsame
    simp at hsame
  · intro hwhole
    rcases execute_cases balance env call with ⟨_, hsame⟩ | ⟨_, _, _, _, hanswer, _⟩ |
        ⟨state, answer, entry, events, hstage, hevents, hrecord, hwrite, hleft⟩
    · rw [hsame]
      exact ⟨rfl, rfl, rfl⟩
    · rw [hanswer] at hraised
      cases hraised
    · have hold : ({ entry with createdAt := env.signedAt } : CreditEvent Int) ∈ events := by
        by_contra hnew
        exact hwhole ⟨hrecord, hwrite, state, answer, entry, events, hstage, hevents, hnew⟩
      rw [hleft, recordEvent, if_pos hold]
      exact ⟨rfl, rfl, hevents.symm⟩

/-! ### Runs of live calls -/

theorem after_lasting (balance : TaskBalance Int) (calls : List (Environment × Call)) :
    Lasting balance.snapshot (balance.after calls).snapshot :=
  after_induction (fun _ _ _ hstep h => h.trans hstep.lasting) (.refl _) calls

/-! ### Openings -/

/-- The grants among signed events. -/
def grants (events : List (CreditEvent Int)) : Int :=
  (events.map fun event => match event.detail with
    | .opening _ => event.amount
    | _ => 0).sum

/-! ### Replay -/

/-- A transition that raises leaves balanced books as they were. -/
theorem applyEvent_onlyFails (h : Balanced opening s) {event : CreditEvent Int}
    (hamount : 0 ≤ event.amount) (hother : ∀ earned, event.detail ≠ .opening earned) :
    OnlyFails (fun raised => raised.state = s) (applyEvent s event) := by
  have hheld := h.held_nonneg
  have hplus : ¬ s.held + event.amount < 0 := by omega
  have havailable := h.available_nonneg
  unfold applyEvent
  split
  · next earned hdetail => exact absurd hdetail (hother earned)
  · rw [onlyFails_map]
    unfold applyHold
    split
    · refine onlyFails_bind.mpr ⟨by simp [require], fun _ _ => ?_⟩
      split
      · simp [freeze, require, checked, hplus]
      · simp
    · simp [freeze, require, checked, hplus]
  · rw [onlyFails_map]
    simp only [applySettle, onlyFails_bind, onlyFails_demand]
    refine ⟨fun _ => trivial, fun hold hget => ?_⟩
    split
    · simp
    · simp
    · simp [require, checked]
      omega
  · rw [onlyFails_map]
    simp only [applyRelease, onlyFails_bind, onlyFails_demand]
    refine ⟨fun _ => trivial, fun hold hget => ?_⟩
    have hsum := h.amounts _ _ (demand_ok.mp hget)
    split
    · simp [checked]
      omega
    · simp
  · rw [onlyFails_map]
    unfold applyEarning
    split
    · simp
    · simp [checked]

theorem applyEvent_transition {event : CreditEvent Int} (hamount : 0 ≤ event.amount)
    (hother : ∀ earned, event.detail ≠ .opening earned) (h : applyEvent s event = .ok s') :
    ∃ entry, Transition s s' entry := by
  unfold applyEvent at h
  split at h
  · next earned hdetail => exact absurd hdetail (hother earned)
  all_goals
    obtain ⟨⟨_, _, entry⟩, happly, rfl⟩ := map_ok.mp h
  · exact ⟨entry, applyHold_transition hamount (Bindings.keyed_keyed ..) happly⟩
  · exact ⟨entry, applySettle_transition hamount happly⟩
  · exact ⟨entry, applyRelease_transition happly⟩
  · exact ⟨entry, applyEarning_transition hamount happly⟩

theorem replayEvent_opening (hnonneg : 0 ≤ s.available) {event : CreditEvent Int}
    {earned : Option Int} (hamount : 0 ≤ event.amount) (hdetail : event.detail = .opening earned) :
    replayEvent s event = { s with
      available := s.available + event.amount, earned := earned.getD s.earned } := by
  have hsum : units (s.available + event.amount) = some (s.available + event.amount) :=
    units_some.mpr ⟨rfl, by omega⟩
  cases earned with
  | none => simp [replayEvent, applyEvent, hdetail, hsum, checked, demand]
  | some earned => simp [replayEvent, applyEvent, hdetail, hsum]

theorem replayEvent_balanced (h : Balanced opening s) {event : CreditEvent Int}
    (hamount : 0 ≤ event.amount) : Balanced (opening + grants [event]) (replayEvent s event) := by
  by_cases hgrant : ∃ earned, event.detail = .opening earned
  · obtain ⟨earned, hdetail⟩ := hgrant
    have hconserved := h.conserved
    have hnonneg := h.available_nonneg
    rw [replayEvent_opening hnonneg hamount hdetail]
    have hgrants : grants [event] = event.amount := by simp [grants, hdetail]
    refine ⟨?_, h.frozen, ?_, h.amounts, h.settlements⟩
    · simp only [hgrants]
      omega
    · show 0 ≤ s.available + event.amount
      omega
  · have hother : ∀ earned, event.detail ≠ .opening earned :=
      fun earned hdetail => hgrant ⟨earned, hdetail⟩
    have hgrants : grants [event] = 0 := by
      cases hdetail : event.detail with
      | opening earned => exact absurd hdetail (hother earned)
      | _ => simp [grants, hdetail]
    rw [hgrants, add_zero]
    unfold replayEvent
    split
    · next s' happly =>
      obtain ⟨entry, hstep⟩ := applyEvent_transition hamount hother happly
      exact hstep.balanced h
    · next raised happly =>
      rw [applyEvent_onlyFails h hamount hother raised happly]
      exact h

theorem grants_append (events more : List (CreditEvent Int)) :
    grants (events ++ more) = grants events + grants more := by
  simp [grants]

/-- **A replay has balanced books**, whatever history it reads. -/
theorem replay_balanced {listed : List (CreditEvent Int)}
    (hamounts : ∀ event ∈ listed, 0 ≤ event.amount) :
    Balanced (grants listed) (replay listed) := by
  have hperm : (categoryEvents listed).Perm listed := List.mergeSort_perm _ _
  have hgrants : grants listed = grants (categoryEvents listed) :=
    ((hperm.map _).sum_eq).symm
  have hall : ∀ event ∈ categoryEvents listed, 0 ≤ event.amount :=
    fun event hevent => hamounts event (hperm.subset hevent)
  suffices hfold : ∀ (events : List (CreditEvent Int)) (opening : Int) (s : State Int),
      (∀ event ∈ events, 0 ≤ event.amount) → Balanced opening s →
      Balanced (opening + grants events) (events.foldl replayEvent s) by
    have h := hfold (categoryEvents listed) 0 (.fresh 0) hall (.fresh (le_refl 0))
    rw [hgrants]
    simpa [replay] using h
  intro events
  induction events with
  | nil =>
    intro opening s _ h
    simpa [grants] using h
  | cons event rest ih =>
    intro opening s hevents h
    have hstep := replayEvent_balanced h (hevents event (by simp))
    have hrest := ih _ _ (fun e he => hevents e (.tail _ he)) hstep
    rwa [add_assoc, ← grants_append] at hrest

/-- A balance that was just opened, and with what grants: over a new file, over
a new signed history, or replayed from any signed history. -/
inductive Opened : TaskBalance Int → Int → Prop
  | standalone {initial : Number} {grant : Int} (h : amountOf initial = .ok grant) :
      Opened (openStandalone grant none) grant
  | backed {initial : Number} {grant : Int} (signedAt : String) (h : amountOf initial = .ok grant) :
      Opened (openLedgerBacked grant signedAt none []) grant
  | replayed {listed : List (CreditEvent Int)} (initial : Int) (signedAt : String)
      (stored : listed ≠ []) (amounts : ∀ event ∈ listed, 0 ≤ event.amount) :
      Opened (openLedgerBacked initial signedAt none listed) (grants listed)

theorem Opened.balanced {balance : TaskBalance Int} (h : Opened balance opening) :
    Balanced opening balance.snapshot := by
  cases h with
  | standalone h | backed signedAt h => exact .fresh (amountOf_nonneg h)
  | replayed initial signedAt stored amounts =>
    simp only [openLedgerBacked, stored, if_false]
    exact replay_balanced amounts

/-- **Conservation and exactly-once charging.**  In every run of live calls, with
any arguments, in any order, repeated, and raising or not:

* available, held and charged amounts add up to the opening balance, and held is
  what the held records freeze; neither balance is ever negative;
* a settled record was charged at most its frozen amount, and no later call
  changes it; the frozen amount of a task never changes;
* the balance earned grows only by an earning that its task did not have, which
  it then has for good;
* a call that raises leaves the snapshot and the signed events unchanged exactly when it
  is not torn between the two. -/
theorem balance_conserved {balance : TaskBalance Int} {opening : Int} (h : Opened balance opening)
    (calls : List (Environment × Call)) :
    let s := (balance.after calls).snapshot
    (s.available + s.held + s.holds.sumBy Hold.charged = opening ∧
      s.held = s.holds.sumBy Hold.frozen ∧ 0 ≤ s.available ∧ 0 ≤ s.held) ∧
    (∀ taskId hold settlement, s.holds.get? taskId = some hold →
      hold.state = .settled settlement →
      0 ≤ settlement.settledAmount ∧ settlement.settledAmount ≤ hold.amount ∧
      ∀ more, (balance.after (calls ++ more)).snapshot.holds.get? taskId = some hold) ∧
    (∀ taskId hold, s.holds.get? taskId = some hold → ∀ more,
      ∃ hold', (balance.after (calls ++ more)).snapshot.holds.get? taskId = some hold' ∧
        hold'.amount = hold.amount) ∧
    (∀ env call, let s' := ((balance.after calls).execute env call).2.snapshot
      s'.earned = s.earned ∨ ∃ taskId earning, s.earnings.get? (earningKey taskId) = none ∧
        s'.earned = s.earned + earning.amount ∧ earning.taskId = taskId ∧
        ∀ more, (balance.after (calls ++ (env, call) :: more)).snapshot.earnings.get?
          (earningKey taskId) = some earning) ∧
    (∀ env call e, ((balance.after calls).execute env call).1 = .error e →
      (SameStored (balance.after calls) ((balance.after calls).execute env call).2 ↔
        ¬ Torn (balance.after calls) env call)) := by
  have hbooks : Balanced opening (balance.after calls).snapshot :=
    after_induction (fun _ _ _ hstep => hstep.balanced) h.balanced calls
  refine ⟨⟨hbooks.conserved, hbooks.frozen, hbooks.available_nonneg, hbooks.held_nonneg⟩, ?_, ?_,
    ?_, ?_⟩
  · intro taskId hold settlement hget hstate
    obtain ⟨hnonneg, hle⟩ := hbooks.settlements taskId hold settlement hget hstate
    refine ⟨hnonneg, hle, fun more => ?_⟩
    rw [after_append]
    exact (after_lasting _ more).settled taskId hold settlement hget hstate
  · intro taskId hold hget more
    rw [after_append]
    obtain ⟨hold', hget', hamount, -⟩ := (after_lasting _ more).terms taskId hold hget
    exact ⟨hold', hget', hamount⟩
  · intro env call
    rcases execute_snapshot (balance.after calls) env call with
      ⟨_, -, hsame⟩ | ⟨_, entry, -, hstep⟩
    · exact .inl (by rw [hsame])
    · rcases hstep.earned with hsame | ⟨taskId, earning, hnone, hearned, htask, hget⟩
      · exact .inl hsame
      · refine .inr ⟨taskId, earning, hnone, hearned, htask, fun more => ?_⟩
        rw [after_append]
        exact (after_lasting _ more).earnings _ _ hget
  · intro env call e herror
    exact raised_stored_iff herror

/-- A fresh balance of ten, of which a task froze four and was charged three. -/
def sampleCalls : List (Environment × Call) :=
  let env : Environment :=
    { now := "1", signedAt := "1", readFails := false, recordFails := false, writeFails := false }
  [(env, .hold "task" (.finite 4) ⟨"service", "provider", "", "print"⟩),
    (env, .settle "task" (.finite 3) ⟨1, 2, 3⟩ "service" "provider")]

theorem amountOf_ten : amountOf (.finite 10) = .ok (10 * 10 ^ 8 : Int) := by decide +kernel

theorem balance_conserved_sample :
    let s := ((openStandalone (10 * 10 ^ 8 : Int) none).after sampleCalls).snapshot
    s.available = 7 * 10 ^ 8 ∧ s.held = 0 ∧
      s.available + s.held + s.holds.sumBy Hold.charged = 10 * 10 ^ 8 := by
  obtain ⟨⟨hsum, -⟩, -⟩ := balance_conserved (.standalone amountOf_ten) sampleCalls
  exact ⟨by decide +kernel, by decide +kernel, hsum⟩

/-- The disk is full when the snapshot is written. -/
def sampleFull : Environment :=
  { now := "1", signedAt := "1", readFails := false, recordFails := false, writeFails := true }

def sampleRefused : Except Failure (Answer Int) × TaskBalance Int :=
  (openLedgerBacked (10 * 10 ^ 8) "0" none []).execute sampleFull
    (.hold "task" (.finite 4) ⟨"service", "provider", "", "print"⟩)

/-- **A refused hold is charged**: it raises, but it is signed, and the replay of the next
opening has it frozen. -/
theorem refused_hold_charged :
    ¬ (∀ (balance : TaskBalance Int) opening, Opened balance opening → ∀ calls env call e,
      ((balance.after calls).execute env call).1 = .error e →
        SameStored (balance.after calls) ((balance.after calls).execute env call).2) ∧
    sampleRefused.2.snapshot.held = 0 ∧
    (openLedgerBacked (10 * 10 ^ 8) "2"
      (some (sampleRefused.2.snapshot, sampleRefused.2.foldedEvents))
      (sampleRefused.2.events.getD [])).snapshot.held = 4 * 10 ^ 8 := by
  refine ⟨fun hall => ?_, by decide +kernel, ?_⟩
  · cases hraised : sampleRefused.1 with
    | error e =>
      have hsame := hall _ _ (.backed "0" amountOf_ten) [] sampleFull _ _ hraised
      have hlength : (sampleRefused.2.events.getD []).length = 1 :=
        congrArg (fun events => (events.getD []).length) hsame.2.2
      exact absurd hlength (by decide +kernel)
    | ok answer =>
      have hraises : sampleRefused.1.toOption.isSome = false := by decide +kernel
      rw [hraised] at hraises
      cases hraises
  · have hopened : openLedgerBacked (10 * 10 ^ 8) "2"
        (some (sampleRefused.2.snapshot, sampleRefused.2.foldedEvents))
        (sampleRefused.2.events.getD []) = openReplayed (sampleRefused.2.events.getD []) :=
      if_neg (by decide +kernel)
    rw [hopened, openReplayed, replay_of_sorted (by decide +kernel)]
    decide +kernel

end TaskBalance
