import Rynmesh.TaskBalanceReplay

/-!
# Migrating a standalone balance

`_migrate_legacy` turns a v1 file into signed events and a snapshot: the
balances and the open holds, without the settled and released records and the
earnings.

* `migrateLegacy` is the migration, and `migrateLegacy_refrozen` says when it
  succeeds and what it keeps;
* `Similar` relates a standalone state to the migrated one, whose index may lack
  records that the standalone state has; `stage_mirrors` and `stage_apart` say
  when a call tells the two apart;
* `migration_preserves_iff` concludes for every run of later calls, and
  `migration_forgets_earning` is a run that is told apart.
-/

namespace TaskBalance

open Checked

set_option linter.unusedSectionVars false

variable {α : Type} [Zero α] [LE α] [DecidableLE α] [DecidableEq α] [Arithmetic α]

/-! ### The migration -/

/-- The time stamp a migrated hold gets. -/
def Hold.stamp (hold : Hold α) (env : Environment) : String :=
  if hold.createdAt = "" then env.now else hold.createdAt

/-- The loop of `_migrate_legacy` over the holds; only an open one is applied. -/
def migrateHold (env : Environment) (progress : State α × TaskBalance α)
    (row : String × Hold α) : Except Failure (State α × TaskBalance α) :=
  match row.2.state with
  | .held => do
      let (state, _, entry) ← answering .hold
        (applyHold progress.1 row.1 row.2.amount (row.2.bindings.keyed row.1) (row.2.stamp env))
      match entry with
      | none => pure (state, progress.2)
      | some entry => do
          let balance ← progress.2.appendCredit env entry
          pure (state, balance)
  | _ => pure progress

/-- `sorted(holds.items())`. -/
def State.sortedHolds (legacy : State α) : List (String × Hold α) :=
  legacy.holds.entries.insertionSort fun a b => a.1 ≤ b.1

def migratedEntry (opening earned : α) : Entry α :=
  ⟨"", opening, "opening:migrated", .opening (some earned)⟩

/-- The end of the migration: the snapshot is written. -/
def finishMigration (env : Environment) (progress : State α × TaskBalance α) :
    Except Failure (TaskBalance α) :=
  if env.writeFails then .error .storage
  else pure { progress.2 with snapshot := progress.1, foldedEvents := progress.2.folded }

/-- `_migrate_legacy`, on a ledger without events of the category.  A stored amount is
its own `_amount`. -/
def migrateLegacy (env : Environment) (legacy : State α) : Except Failure (TaskBalance α) := do
  let opening ← demand (.taskBalance amountError) (plus legacy.available legacy.held)
  let empty : TaskBalance α :=
    { snapshot := legacy, foldedEvents := 0, events := some [], folded := 0 }
  let balance ← empty.appendCredit env (migratedEntry opening legacy.earned)
  let progress ← legacy.sortedHolds.foldlM (migrateHold env)
    ({ State.fresh opening with earned := legacy.earned }, balance)
  finishMigration env progress

/-- No operation on a file or the credit ledger fails. -/
structure Environment.Quiet (env : Environment) : Prop where
  reads : env.readFails = false
  records : env.recordFails = false
  writes : env.writeFails = false

variable {s s' m m' : State α} {taskId stamp stamp' : String} {amount : α} {bindings : Bindings}
  {record record' : Hold α} {env env' : Environment} {t u : TaskBalance α} {call : Call}

/-! ### Similar states -/

/-- The balances agree; what the second state knows the first knows alike, and a
hold it does not know is not open. -/
structure Similar (s m : State α) : Prop where
  available : s.available = m.available
  held : s.held = m.held
  earned : s.earned = m.earned
  known : ∀ taskId record', m.holds.get? taskId = some record' →
    ∃ record, s.holds.get? taskId = some record ∧ record.terms = record'.terms
  dropped : ∀ taskId record, s.holds.get? taskId = some record →
    m.holds.get? taskId = none → record.status ≠ .held
  earnings : ∀ key, s.earnings.get? key = none → m.earnings.get? key = none

theorem Similar.put (h : Similar s m) (hterms : record.terms = record'.terms)
    (available held : α) :
    Similar (s.put available held taskId record) (m.put available held taskId record') := by
  refine ⟨rfl, rfl, h.earned, ?_, ?_, h.earnings⟩
  · intro other found hget
    simp only [State.put, Dict.get?_set] at hget ⊢
    by_cases heq : other = taskId
    · rw [if_pos heq] at hget ⊢
      obtain rfl := Option.some.inj hget
      exact ⟨record, rfl, hterms⟩
    · rw [if_neg heq] at hget ⊢
      exact h.known other found hget
  · intro other found hget hnone
    simp only [State.put, Dict.get?_set] at hget hnone
    by_cases heq : other = taskId
    · simp [heq] at hnone
    · rw [if_neg heq] at hget hnone
      exact h.dropped other found hget hnone

theorem Similar.missing (h : Similar s m) (hget : s.holds.get? taskId = none) :
    m.holds.get? taskId = none := by
  cases hmig : m.holds.get? taskId with
  | none => rfl
  | some record' =>
    obtain ⟨record, hfound, -⟩ := h.known taskId record' hmig
    rw [hget] at hfound
    cases hfound

/-! ### Calls on similar states -/

/-- A transition as a live call answers it. -/
abbrev Staged (α : Type) := Except Failure (State α × Answer α × Option (Entry α))

/-- What is compared of an answer: the state of the hold. -/
def Answer.view : Answer α → Option (Status α)
  | .hold record => some record.status
  | .earning _ => none

/-- What a caller sees of a transition: the balances and the state of the hold, or the error. -/
def observe : Staged α → Except Failure (α × α × α × Option (Status α))
  | .error e => .error e
  | .ok (state, answer, _) => .ok (state.available, state.held, state.earned, answer.view)

/-- Two transitions with one error, or with similar states and answers. -/
inductive Mirrors : Staged α → Staged α → Prop
  | failed (e : Failure) : Mirrors (.error e) (.error e)
  | done {s m : State α} {answer answer' : Answer α} {entry entry' : Option (Entry α)}
      (similar : Similar s m) (same : answer.view = answer'.view) :
      Mirrors (.ok (s, answer, entry)) (.ok (m, answer', entry'))

/-- A later hold either finds the record, or is the same hold of a released task. -/
def SparedHold (s m : State α) (taskId : String) (amount : α) (bindings : Bindings) : Prop :=
  ∀ record, s.holds.get? taskId = some record → m.holds.get? taskId = none →
    record.status = .released ∧ record.bindings = bindings ∧ record.amount = amount

theorem Similar.freeze (h : Similar s m) (hterms : record.terms = record'.terms)
    {key key' : String} {detail detail' : Detail α} :
    Mirrors (answering .hold (freeze s record ⟨taskId, amount, key, detail⟩))
      (answering .hold (freeze m record' ⟨taskId, amount, key', detail'⟩)) := by
  simp only [TaskBalance.freeze, ← h.available, ← h.held, require, Checked.require]
  split
  · cases minus s.available amount with
    | none => exact .failed _
    | some available =>
      cases plus s.held amount with
      | none => exact .failed _
      | some held =>
        exact .done (h.put hterms available held) (congrArg some (Hold.terms_eq.mp hterms).2.1)
  · exact .failed _

theorem Similar.hold (h : Similar s m) (hspared : SparedHold s m taskId amount bindings) :
    Mirrors (answering .hold (applyHold s taskId amount bindings stamp))
      (answering .hold (applyHold m taskId amount bindings stamp')) := by
  unfold applyHold
  cases hget' : m.holds.get? taskId with
  | none =>
    cases hget : s.holds.get? taskId with
    | none =>
      refine h.freeze ?_
      rfl
    | some record =>
      -- the released record is forgotten, and the hold starts a new one
      obtain ⟨hstatus, hbindings, hamount⟩ := hspared record hget hget'
      obtain ⟨reason, releasedAt, hstate⟩ := Hold.released_of_status hstatus
      simp only [require, Checked.require, hbindings, hamount, and_self, if_true, hstate]
      exact h.freeze (by simp [Hold.terms, Hold.retry, Hold.new, Hold.status, hamount, hbindings])
  | some record' =>
    obtain ⟨record, hget, hterms⟩ := h.known taskId record' hget'
    obtain ⟨hamount, hstatus, hbindings⟩ := Hold.terms_eq.mp hterms
    simp only [hget, require, Checked.require, hamount, hbindings]
    by_cases hsame : record'.bindings = bindings ∧ record'.amount = amount
    · simp only [hsame, and_self, if_true]
      cases hstate : record.state <;> cases hstate' : record'.state <;>
        simp only [Hold.status, hstate, hstate', reduceCtorEq] at hstatus
      case released.released =>
        exact h.freeze (by simp [Hold.terms, Hold.retry, Hold.status, hamount, hbindings])
      all_goals exact .done h (congrArg some (Hold.terms_eq.mp hterms).2.1)
    · simp only [hsame, if_false]
      exact .failed _

/-- What freezing an amount comes to: an error of its own, or the record. -/
theorem freeze_outcome (state : State α) (record : Hold α) (entry : Entry α) :
    (∃ message left, freeze state record entry = .error ⟨message, left⟩ ∧
      message ≠ "task idempotency conflict") ∨
    ∃ state', freeze state record entry = .ok (state', record, some entry) := by
  unfold freeze
  by_cases hfits : entry.amount ≤ state.available
  · simp only [require, Checked.require_of hfits, ok_bind]
    cases minus state.available entry.amount with
    | none => exact .inl ⟨_, _, rfl, by decide⟩
    | some available =>
      cases plus state.held entry.amount with
      | none => exact .inl ⟨_, _, rfl, by decide⟩
      | some held => exact .inr ⟨_, rfl⟩
  · simp only [require, Checked.require, if_neg hfits]
    exact .inl ⟨_, _, rfl, by decide⟩

/-- A hold that meets a forgotten record answers differently otherwise. -/
theorem Similar.hold_apart (h : Similar s m)
    (hspared : ¬ SparedHold s m taskId amount bindings) :
    observe (answering .hold (applyHold s taskId amount bindings stamp)) ≠
      observe (answering .hold (applyHold m taskId amount bindings stamp')) := by
  unfold SparedHold at hspared
  push Not at hspared
  obtain ⟨record, hget, hget', hdiffers⟩ := hspared
  have hopen := h.dropped taskId record hget hget'
  simp only [applyHold, hget, hget', require, Checked.require]
  by_cases hterms : record.bindings = bindings ∧ record.amount = amount
  · -- the settled record is returned, where the migrated balance freezes anew
    have hstatus : record.status ≠ .released := fun hreleased =>
      hdiffers hreleased hterms.1 hterms.2
    cases hstate : record.state with
    | held => exact absurd (Hold.status_of_held hstate) hopen
    | released => exact absurd (by simp [Hold.status, hstate]) hstatus
    | settled settlement =>
      simp only [if_pos hterms, ok_bind]
      rcases freeze_outcome m (.new taskId amount bindings stamp')
        ⟨taskId, amount, holdKey taskId 0, .hold bindings⟩ with ⟨_, _, hfails, -⟩ | ⟨_, hok⟩
      · simp [hfails, observe, answering, pure, Except.pure]
      · rw [hok]
        simp [observe, answering, pure, Except.pure, Answer.view, Hold.status, hstate, Hold.new]
  · simp only [if_neg hterms]
    rcases freeze_outcome m (.new taskId amount bindings stamp')
      ⟨taskId, amount, holdKey taskId 0, .hold bindings⟩ with ⟨_, _, hfails, hother⟩ | ⟨_, hok⟩
    · simpa [hfails, observe, answering] using hother.symm
    · simp [hok, observe, answering]

section

variable {usage : Usage} {serviceId providerPeerId reason : String}

/-- A settlement meets no forgotten record. -/
theorem Similar.settle (h : Similar s m)
    (hspared : m.holds.get? taskId = none → s.holds.get? taskId = none) :
    Mirrors
      (answering .hold (applySettle s taskId amount usage serviceId providerPeerId stamp))
      (answering .hold (applySettle m taskId amount usage serviceId providerPeerId stamp')) := by
  unfold applySettle
  cases hget' : m.holds.get? taskId with
  | none =>
    rw [hspared hget']
    exact .failed _
  | some record' =>
    obtain ⟨record, hget, hterms⟩ := h.known taskId record' hget'
    obtain ⟨hamount, hstatus, hbindings⟩ := Hold.terms_eq.mp hterms
    simp only [hget, demand_some, ok_bind]
    cases hstate : record.state <;> cases hstate' : record'.state <;>
      simp only [Hold.status, hstate, hstate', reduceCtorEq] at hstatus
    case held.held =>
      simp only [hamount, ← h.available, ← h.held, require, Checked.require]
      split
      · cases minus record'.amount amount with
        | none => exact .failed _
        | some refund =>
          simp only [checked_some, ok_bind]
          cases minus s.held record'.amount with
          | none => exact .failed _
          | some held =>
            cases plus s.available refund with
            | none => exact .failed _
            | some available =>
              refine .done (h.put ?_ available held) rfl
              simp [Hold.terms, Hold.settle, Hold.status, hamount, hbindings]
      · exact .failed _
    case released.released => exact .failed _
    all_goals exact .done h (congrArg some (Hold.terms_eq.mp hterms).2.1)

theorem Similar.settle_apart (h : Similar s m) (hget' : m.holds.get? taskId = none)
    (hspared : s.holds.get? taskId ≠ none) :
    observe (answering .hold (applySettle s taskId amount usage serviceId providerPeerId stamp)) ≠
      observe
        (answering .hold (applySettle m taskId amount usage serviceId providerPeerId stamp')) := by
  obtain ⟨record, hget⟩ := Option.ne_none_iff_exists'.mp hspared
  have hopen := h.dropped taskId record hget hget'
  unfold applySettle
  simp only [hget, hget', demand_some, ok_bind]
  cases hstate : record.state with
  | held => exact absurd (Hold.status_of_held hstate) hopen
  | settled settlement => simp [observe, answering, demand, pure, Except.pure]
  | released reason releasedAt => simp [observe, answering, demand]

theorem Similar.release (h : Similar s m)
    (hspared : m.holds.get? taskId = none → s.holds.get? taskId = none) :
    Mirrors (answering .hold (applyRelease s taskId reason stamp))
      (answering .hold (applyRelease m taskId reason stamp')) := by
  unfold applyRelease
  cases hget' : m.holds.get? taskId with
  | none =>
    rw [hspared hget']
    exact .failed _
  | some record' =>
    obtain ⟨record, hget, hterms⟩ := h.known taskId record' hget'
    obtain ⟨hamount, hstatus, hbindings⟩ := Hold.terms_eq.mp hterms
    simp only [hget, demand_some, ok_bind]
    cases hstate : record.state <;> cases hstate' : record'.state <;>
      simp only [Hold.status, hstate, hstate', reduceCtorEq] at hstatus
    case held.held =>
      simp only [hamount, ← h.available, ← h.held]
      cases minus s.held record'.amount with
      | none => exact .failed _
      | some held =>
        cases plus s.available record'.amount with
        | none => exact .failed _
        | some available =>
          refine .done (h.put ?_ available held) rfl
          simp [Hold.terms, Hold.release, Hold.status, hamount, hbindings]
    all_goals exact .done h (congrArg some (Hold.terms_eq.mp hterms).2.1)

theorem Similar.release_apart (h : Similar s m) (hget' : m.holds.get? taskId = none)
    (hspared : s.holds.get? taskId ≠ none) :
    observe (answering .hold (applyRelease s taskId reason stamp)) ≠
      observe (answering .hold (applyRelease m taskId reason stamp')) := by
  obtain ⟨record, hget⟩ := Option.ne_none_iff_exists'.mp hspared
  have hopen := h.dropped taskId record hget hget'
  unfold applyRelease
  simp only [hget, hget', demand_some, ok_bind]
  cases hstate : record.state with
  | held => exact absurd (Hold.status_of_held hstate) hopen
  | _ => simp [observe, answering, demand, pure, Except.pure]

/-- An earning finds the earlier one, or leaves the balance earned as it is. -/
def SparedEarning (s m : State α) (taskId : String) (amount : α) : Prop :=
  s.earnings.get? (earningKey taskId) ≠ none → m.earnings.get? (earningKey taskId) = none →
    plus s.earned amount = some s.earned

theorem Similar.earn (h : Similar s m) (hspared : SparedEarning s m taskId amount) :
    Mirrors
      (answering .earning (applyEarning s taskId amount usage serviceId providerPeerId stamp))
      (answering .earning
        (applyEarning m taskId amount usage serviceId providerPeerId stamp')) := by
  unfold applyEarning
  cases hget : s.earnings.get? (earningKey taskId) with
  | none =>
    rw [h.earnings _ hget, ← h.earned]
    cases plus s.earned amount with
    | none => exact .failed _
    | some earned =>
      refine .done ⟨h.available, h.held, rfl, h.known, h.dropped, fun key hnone => ?_⟩ rfl
      simp only [State.earn, Dict.get?_set] at hnone ⊢
      split at hnone
      · cases hnone
      · next hkey => rw [if_neg hkey, h.earnings key hnone]
  | some earning =>
    cases hget' : m.earnings.get? (earningKey taskId) with
    | some earning' => exact .done h rfl
    | none =>
      have hsame := hspared (by simp [hget]) hget'
      simp only [← h.earned, hsame]
      refine .done ⟨h.available, h.held, rfl, h.known, h.dropped, fun key hnone => ?_⟩ rfl
      simp only [State.earn, Dict.get?_set]
      split
      · next hkey =>
        rw [hkey, hget] at hnone
        cases hnone
      · exact h.earnings key hnone

theorem Similar.earn_apart (h : Similar s m) (hspared : ¬ SparedEarning s m taskId amount) :
    observe
        (answering .earning (applyEarning s taskId amount usage serviceId providerPeerId stamp)) ≠
      observe (answering .earning
        (applyEarning m taskId amount usage serviceId providerPeerId stamp')) := by
  unfold SparedEarning at hspared
  push Not at hspared
  obtain ⟨hget, hget', hdiffers⟩ := hspared
  obtain ⟨earning, hget⟩ := Option.ne_none_iff_exists'.mp hget
  simp only [applyEarning, hget, hget', ← h.earned]
  cases hearned : plus s.earned amount with
  | none => simp [observe, answering, pure, Except.pure, checked, demand]
  | some earned =>
    have hother : s.earned ≠ earned := fun hsame => hdiffers (by rw [hearned, hsame])
    simp [observe, answering, pure, Except.pure, State.earn, hother]

end

/-! ### Live calls -/

/-- A later call names no record that the migration dropped: where the standalone
state knows a task and the migrated one does not, only a hold of a released task on
its own terms, or an earning that leaves the balance earned as it is, may follow. -/
def Spared (s m : State α) : Call → Prop
  | .hold taskId amount bindings => ∀ value, amountOf amount = .ok value → taskId ≠ "" →
      SparedHold s m taskId value (bindings.keyed taskId)
  | .settle taskId amount _ _ _ => ∀ value : α, amountOf amount = .ok value →
      m.holds.get? taskId = none → s.holds.get? taskId = none
  | .release taskId _ => m.holds.get? taskId = none → s.holds.get? taskId = none
  | .earn taskId amount _ _ _ => ∀ value, amountOf amount = .ok value →
      SparedEarning s m taskId value

theorem read_quiet (h : env.Quiet) : t.read env = .ok t.snapshot := by
  simp [read, h.reads]

/-- **One call.**  A spared call has the same outcome on similar states. -/
theorem stage_mirrors (hq : env.Quiet) (hq' : env'.Quiet) (h : Similar t.snapshot u.snapshot)
    (hspared : Spared t.snapshot u.snapshot call) :
    Mirrors (t.stage env call) (u.stage env' call) := by
  cases call with
  | hold taskId amount bindings =>
    simp only [stage, read_quiet hq, read_quiet hq', ok_bind]
    cases hamount : (amountOf amount : Except Failure α) with
    | error e => exact .failed e
    | ok value =>
      by_cases htask : taskId ≠ ""
      · simp only [ok_bind, Checked.require_of htask]
        exact h.hold (hspared value hamount htask)
      · simp only [ok_bind, Checked.require, if_neg htask]
        exact .failed _
  | settle taskId amount usage serviceId providerPeerId =>
    simp only [stage, read_quiet hq, read_quiet hq', ok_bind]
    cases hamount : (amountOf amount : Except Failure α) with
    | error e => exact .failed e
    | ok value => exact h.settle (hspared value hamount)
  | release taskId reason =>
    simp only [stage, read_quiet hq, read_quiet hq', ok_bind]
    exact h.release hspared
  | earn taskId amount usage serviceId consumerPeerId =>
    simp only [stage, read_quiet hq, read_quiet hq', ok_bind]
    cases hamount : (amountOf amount : Except Failure α) with
    | error e => exact .failed e
    | ok value => exact h.earn (hspared value hamount)

theorem stage_apart (hq : env.Quiet) (hq' : env'.Quiet) (h : Similar t.snapshot u.snapshot)
    (hspared : ¬ Spared t.snapshot u.snapshot call) :
    observe (t.stage env call) ≠ observe (u.stage env' call) := by
  cases call with
  | hold taskId amount bindings =>
    unfold Spared at hspared
    push Not at hspared
    obtain ⟨value, hamount, htask, hspared⟩ := hspared
    simp only [stage, read_quiet hq, read_quiet hq', ok_bind, hamount, Checked.require_of htask]
    exact h.hold_apart hspared
  | settle taskId amount usage serviceId providerPeerId =>
    unfold Spared at hspared
    push Not at hspared
    obtain ⟨value, hamount, hget', hspared⟩ := hspared
    simp only [stage, read_quiet hq, read_quiet hq', ok_bind, hamount]
    exact h.settle_apart hget' hspared
  | release taskId reason =>
    unfold Spared at hspared
    push Not at hspared
    simp only [stage, read_quiet hq, read_quiet hq', ok_bind]
    exact h.release_apart hspared.1 hspared.2
  | earn taskId amount usage serviceId consumerPeerId =>
    unfold Spared at hspared
    push Not at hspared
    obtain ⟨value, hamount, hspared⟩ := hspared
    simp only [stage, read_quiet hq, read_quiet hq', ok_bind, hamount]
    exact h.earn_apart hspared

theorem appendCredit_quiet (h : env.Quiet) (t : TaskBalance α) (entry : Entry α) :
    ∃ u, t.appendCredit env entry = .ok u := by
  cases hevents : t.events with
  | none => exact ⟨t, by simp [appendCredit, hevents, pure, Except.pure]⟩
  | some events => exact ⟨_, by simp [appendCredit, hevents, h.records, pure, Except.pure]; rfl⟩

/-- A call in a quiet environment answers as its stage does. -/
theorem execute_quiet (h : env.Quiet) (t : TaskBalance α) (call : Call) :
    (∃ e, t.stage env call = .error e ∧ t.execute env call = (.error e, t)) ∨
    ∃ state answer entry, t.stage env call = .ok (state, answer, entry) ∧
      (t.execute env call).1 = .ok answer ∧ (t.execute env call).2.snapshot = state := by
  cases hstage : t.stage env call with
  | error e => exact .inl ⟨e, rfl, by simp only [execute, hstage]⟩
  | ok staged =>
    obtain ⟨state, answer, entry⟩ := staged
    refine .inr ⟨state, answer, entry, rfl, ?_⟩
    cases entry with
    | none => simp [execute, hstage, write, h.writes]
    | some entry =>
      obtain ⟨u, hu⟩ := appendCredit_quiet h t entry
      simp [execute, hstage, hu, write, h.writes]

/-! ### Later calls -/

/-- The balances of two snapshots agree. -/
def SameSummary (s m : State α) : Prop :=
  s.available = m.available ∧ s.held = m.held ∧ s.earned = m.earned

/-- The state of the hold that a call returned, or its error. -/
def answered : Except Failure (Answer α) → Except Failure (Option (Status α))
  | .error e => .error e
  | .ok answer => .ok answer.view

/-- A later call, with what is outside it in the two runs. -/
abbrev Later : Type := Environment × Environment × Call

/-- The two balances agree now and after every later call, and answer each alike. -/
def Agree (t m : TaskBalance α) : List Later → Prop
  | [] => SameSummary t.snapshot m.snapshot
  | (env, env', call) :: later =>
      SameSummary t.snapshot m.snapshot ∧
        answered (t.execute env call).1 = answered (m.execute env' call).1 ∧
        Agree (t.execute env call).2 (m.execute env' call).2 later

/-- Every later call is spared, in the states it meets. -/
def Spares (t m : TaskBalance α) : List Later → Prop
  | [] => True
  | (env, env', call) :: later =>
      Spared t.snapshot m.snapshot call ∧
        Spares (t.execute env call).2 (m.execute env' call).2 later

theorem Agree.now {later : List Later} (h : Agree t u later) :
    SameSummary t.snapshot u.snapshot := by
  cases later with
  | nil => exact h
  | cons step later => exact h.1

/-- A call that mirrors keeps the states similar, and is answered alike. -/
theorem Mirrors.execute (hq : env.Quiet) (hq' : env'.Quiet) (h : Similar t.snapshot u.snapshot)
    (hmirrors : Mirrors (t.stage env call) (u.stage env' call)) :
    answered (t.execute env call).1 = answered (u.execute env' call).1 ∧
      Similar (t.execute env call).2.snapshot (u.execute env' call).2.snapshot := by
  rcases execute_quiet hq t call with ⟨e, hs, ht⟩ | ⟨s', a, _, hs, ha, ht⟩ <;>
    rcases execute_quiet hq' u call with ⟨e', hm, hu⟩ | ⟨m', a', _, hm, ha', hu⟩ <;>
    rw [hs, hm] at hmirrors <;> cases hmirrors
  · rw [ht, hu]
    exact ⟨rfl, h⟩
  · next similar same =>
    rw [ha, ha', ht, hu]
    exact ⟨congrArg Except.ok same, similar⟩

/-- Calls that are answered alike and leave the same balances have the same outcome. -/
theorem observe_execute (hq : env.Quiet) (hq' : env'.Quiet)
    (hanswers : answered (t.execute env call).1 = answered (u.execute env' call).1)
    (hsummary : SameSummary (t.execute env call).2.snapshot (u.execute env' call).2.snapshot) :
    observe (t.stage env call) = observe (u.stage env' call) := by
  obtain ⟨havailable, hheld, hearned⟩ := hsummary
  rcases execute_quiet hq t call with ⟨e, hs, ht⟩ | ⟨s', a, _, hs, ha, ht⟩ <;>
    rcases execute_quiet hq' u call with ⟨e', hm, hu⟩ | ⟨m', a', _, hm, ha', hu⟩
  · rw [ht, hu] at hanswers
    rw [hs, hm]
    injection hanswers with hanswers
    rw [hanswers]
  · rw [ht, ha'] at hanswers
    cases hanswers
  · rw [ha, hu] at hanswers
    cases hanswers
  · rw [ha, ha'] at hanswers
    rw [ht, hu] at havailable hheld hearned
    injection hanswers with hanswers
    rw [hs, hm]
    simp only [observe, havailable, hheld, hearned, hanswers]

/-- **Runs.**  Two similar balances agree over later calls exactly when these are spared. -/
theorem Similar.agree_iff (h : Similar t.snapshot u.snapshot) {later : List Later}
    (hquiet : ∀ step ∈ later, step.1.Quiet ∧ step.2.1.Quiet) :
    Agree t u later ↔ Spares t u later := by
  induction later generalizing t u with
  | nil => exact iff_of_true ⟨h.available, h.held, h.earned⟩ trivial
  | cons step later ih =>
    obtain ⟨env, env', call⟩ := step
    obtain ⟨hq, hq'⟩ := hquiet _ (.head _)
    have hrest := fun step hstep => hquiet step (.tail _ hstep)
    by_cases hspared : Spared t.snapshot u.snapshot call
    · -- the states stay similar, and the rest is the induction
      obtain ⟨hanswers, hsimilar⟩ := (stage_mirrors hq hq' h hspared).execute hq hq' h
      have hsummary : SameSummary t.snapshot u.snapshot := ⟨h.available, h.held, h.earned⟩
      simp only [Agree, Spares, hsummary, hanswers, hspared, true_and]
      exact ih hsimilar hrest
    · -- the call is told apart
      simp only [Spares, hspared, false_and, iff_false]
      rintro ⟨-, hanswers, hafter⟩
      exact stage_apart hq hq' h hspared (observe_execute hq hq' hanswers hafter.now)

/-! ### What the migration keeps -/

/-- The records carry their idempotency keys. -/
def Keyed (s : State α) : Prop :=
  ∀ taskId record, s.holds.get? taskId = some record →
    record.bindings.keyed taskId = record.bindings

theorem Transition.keyed {entry : Option (Entry α)} (hstep : Transition s s' entry)
    (h : Keyed s) : Keyed s' := by
  cases hstep with
  | kept => exact h
  | hold keyed | rehold keyed => exact Dict.forall_get?_set keyed h
  | settle found | release found =>
    have hkeyed := h _ _ found
    exact Dict.forall_get?_set hkeyed h
  | earning => exact h

/-- The record a migrated hold gets. -/
def Hold.migrated (hold : Hold α) (taskId : String) (env : Environment) : Hold α :=
  .new taskId hold.amount (hold.bindings.keyed taskId) (hold.stamp env)

/-- The open amount of a hold is frozen again, if it fits. -/
def refreezeHold (balances : α × α) (row : String × Hold α) : Option (α × α) :=
  match row.2.state with
  | .held =>
      if row.2.amount ≤ balances.1 then do
        let available ← minus balances.1 row.2.amount
        let held ← plus balances.2 row.2.amount
        pure (available, held)
      else none
  | _ => some balances

/-- The available and held balances, when everything is put back and the open amounts are
frozen again in the order of their tasks. -/
def State.refrozen (s : State α) : Option (α × α) := do
  let opening ← plus s.available s.held
  s.sortedHolds.foldlM refreezeHold (opening, 0)

/-- Freezing the open amounts again gives the balances back. -/
def Refreezes (s : State α) : Prop := s.refrozen = some (s.available, s.held)

instance (s : State α) : Decidable (Refreezes s) :=
  inferInstanceAs (Decidable (s.refrozen = some (s.available, s.held)))

/-- The holds of the migrated state: the open ones among the rows, made anew. -/
def Remade (env : Environment) (rows : List (String × Hold α)) (s m : State α) : Prop :=
  ∀ taskId, (∃ hold, (taskId, hold) ∈ rows ∧ hold.state = .held ∧
      m.holds.get? taskId = some (hold.migrated taskId env)) ∨
    (∀ hold, (taskId, hold) ∈ rows → hold.state ≠ .held) ∧
      m.holds.get? taskId = s.holds.get? taskId

/-- One row: skipped, refused, or put. -/
theorem migrateHold_cases (hq : env.Quiet) (t : TaskBalance α) {hold : Hold α}
    (hget : s.holds.get? taskId = none) :
    (hold.state ≠ .held ∧ migrateHold env (s, t) (taskId, hold) = .ok (s, t) ∧
      ∀ balances, refreezeHold balances (taskId, hold) = some balances) ∨
    hold.state = .held ∧
      ((refreezeHold (s.available, s.held) (taskId, hold) = none ∧
        ∃ e, migrateHold env (s, t) (taskId, hold) = .error e) ∨
      ∃ available held u, refreezeHold (s.available, s.held) (taskId, hold) =
          some (available, held) ∧
        migrateHold env (s, t) (taskId, hold) =
          .ok (s.put available held taskId (hold.migrated taskId env), u)) := by
  cases hstate : hold.state with
  | held =>
    refine .inr ⟨rfl, ?_⟩
    simp only [migrateHold, refreezeHold, hstate, applyHold, hget, freeze, require, Checked.require]
    by_cases hfits : hold.amount ≤ s.available
    · simp only [hfits, if_true]
      cases hminus : minus s.available hold.amount with
      | none => exact .inl ⟨rfl, _, rfl⟩
      | some available =>
        cases hplus : plus s.held hold.amount with
        | none => exact .inl ⟨rfl, _, rfl⟩
        | some held =>
          obtain ⟨u, hu⟩ := appendCredit_quiet hq t
            ⟨taskId, hold.amount, holdKey taskId 0, .hold (hold.bindings.keyed taskId)⟩
          refine .inr ⟨available, held, u, rfl, ?_⟩
          simp only [answering, checked_some, ok_bind, pure, Except.pure, hu]
          rfl
    · simp only [hfits, if_false]
      exact .inl ⟨trivial, _, rfl⟩
  | _ => exact .inl ⟨by simp, by simp [migrateHold, hstate, pure, Except.pure],
      fun _ => by simp [refreezeHold, hstate]⟩

theorem Remade.skip {rows : List (String × Hold α)} {hold : Hold α} (h : Remade env rows s m)
    (hstate : hold.state ≠ .held) : Remade env ((taskId, hold) :: rows) s m := by
  intro id
  rcases h id with ⟨found, hmem, hopen, hget⟩ | ⟨hclosed, hget⟩
  · exact .inl ⟨found, .tail _ hmem, hopen, hget⟩
  · refine .inr ⟨fun found hmem => ?_, hget⟩
    rcases List.mem_cons.mp hmem with heq | hmem
    · exact (Prod.mk.inj heq).2 ▸ hstate
    · exact hclosed found hmem

theorem Remade.put {rows : List (String × Hold α)} {hold : Hold α} {available held : α}
    (h : Remade env rows (s.put available held taskId (hold.migrated taskId env)) m)
    (hstate : hold.state = .held) : Remade env ((taskId, hold) :: rows) s m := by
  intro id
  rcases h id with ⟨found, hmem, hopen, hget⟩ | ⟨hclosed, hget⟩
  · exact .inl ⟨found, .tail _ hmem, hopen, hget⟩
  · rw [State.put, Dict.get?_set] at hget
    by_cases hid : id = taskId
    · subst hid
      exact .inl ⟨hold, .head _, hstate, hget.trans (if_pos rfl)⟩
    · refine .inr ⟨fun found hmem => ?_, hget.trans (if_neg hid)⟩
      rcases List.mem_cons.mp hmem with heq | hmem
      · exact absurd (Prod.mk.inj heq).1 hid
      · exact hclosed found hmem

/-- **The loop of the migration** freezes the open amounts again. -/
theorem migrateHolds_cases (hq : env.Quiet) {rows : List (String × Hold α)}
    (hnodup : (rows.map Prod.fst).Nodup) (hfresh : ∀ row ∈ rows, s.holds.get? row.1 = none)
    (t : TaskBalance α) :
    (rows.foldlM refreezeHold (s.available, s.held) = none ∧
      ∃ e, rows.foldlM (migrateHold env) (s, t) = .error e) ∨
    ∃ m u, rows.foldlM (migrateHold env) (s, t) = .ok (m, u) ∧
      rows.foldlM refreezeHold (s.available, s.held) = some (m.available, m.held) ∧
      m.earned = s.earned ∧ m.earnings = s.earnings ∧ Remade env rows s m := by
  induction rows generalizing s t with
  | nil =>
    refine .inr ⟨s, t, rfl, rfl, rfl, rfl, fun taskId => .inr ⟨fun hold hmem => ?_, rfl⟩⟩
    cases hmem
  | cons row rows ih =>
    obtain ⟨taskId, hold⟩ := row
    obtain ⟨hnew, hnodup⟩ := List.nodup_cons.mp hnodup
    have hrest : ∀ row ∈ rows, s.holds.get? row.1 = none :=
      fun row hrow => hfresh row (.tail _ hrow)
    have hother : ∀ row ∈ rows, row.1 ≠ taskId := fun row hrow heq =>
      hnew (List.mem_map.mpr ⟨row, hrow, heq⟩)
    rw [List.foldlM_cons, List.foldlM_cons]
    rcases migrateHold_cases hq t (hfresh (taskId, hold) (.head _)) with
      ⟨hstate, hstep, hskip⟩ | ⟨hstate, ⟨hnone, e, hstep⟩ | ⟨available, held, u, hsome, hstep⟩⟩
    · rw [hstep, hskip]
      rcases ih hnodup hrest t with hfails | ⟨m, u, hok, hbalances, hearned, hearnings, hremade⟩
      · exact .inl hfails
      · exact .inr ⟨m, u, hok, hbalances, hearned, hearnings, hremade.skip hstate⟩
    · rw [hstep, hnone]
      exact .inl ⟨rfl, e, rfl⟩
    · rw [hstep, hsome]
      have hput : ∀ row ∈ rows, (s.put available held taskId (hold.migrated taskId env)).holds.get?
          row.1 = none := by
        intro row hrow
        rw [State.put, Dict.get?_set_ne _ _ (hother row hrow)]
        exact hrest row hrow
      rcases ih hnodup hput u with hfails | ⟨m, u, hok, hbalances, hearned, hearnings, hremade⟩
      · exact .inl hfails
      · exact .inr ⟨m, u, hok, hbalances, hearned, hearnings, hremade.put hstate⟩

theorem State.sortedHolds_perm (s : State α) : s.sortedHolds.Perm s.holds.entries :=
  List.perm_insertionSort _ _

/-- **The migration succeeds when the open amounts can be frozen again**, with the balances
that this gives. -/
theorem migrateLegacy_cases (hq : env.Quiet) (s : State α) :
    (s.refrozen = none ∧ ∃ e, migrateLegacy env s = .error e) ∨
    ∃ u, migrateLegacy env s = .ok u ∧
      s.refrozen = some (u.snapshot.available, u.snapshot.held) ∧
      u.snapshot.earned = s.earned ∧ u.snapshot.earnings = .empty ∧
      Remade env s.sortedHolds (.fresh 0) u.snapshot := by
  unfold State.refrozen migrateLegacy
  cases hopening : plus s.available s.held with
  | none => exact .inl ⟨rfl, _, rfl⟩
  | some opening =>
    obtain ⟨t, ht⟩ := appendCredit_quiet hq
      { snapshot := s, foldedEvents := 0, events := some [], folded := 0 }
      (migratedEntry opening s.earned)
    have hnodup : (s.sortedHolds.map Prod.fst).Nodup :=
      ((s.sortedHolds_perm.map _).nodup_iff).mpr s.holds.keys_nodup
    simp only [demand_some, ok_bind, ht]
    rcases migrateHolds_cases (s := { State.fresh opening with earned := s.earned }) hq hnodup
      (fun _ _ => rfl) t with
      ⟨hnone, e, hfails⟩ | ⟨m, u, hok, hbalances, hearned, hearnings, hremade⟩
    · exact .inl ⟨hnone, e, by rw [hfails]; rfl⟩
    · refine .inr ⟨{ u with snapshot := m, foldedEvents := u.folded }, ?_, hbalances, hearned,
        hearnings, hremade⟩
      rw [hok]
      simp [finishMigration, hq.writes, pure, Except.pure]

/-- The migrated state is similar to the standalone one, if its balances are the same. -/
theorem Remade.similar (h : Remade env s.sortedHolds (.fresh 0) m) (hkeyed : Keyed s)
    (havailable : s.available = m.available) (hheld : s.held = m.held)
    (hearned : s.earned = m.earned) (hearnings : m.earnings = .empty) : Similar s m := by
  have hmem : ∀ {taskId hold}, (taskId, hold) ∈ s.sortedHolds ↔
      s.holds.get? taskId = some hold := by
    intro taskId hold
    rw [s.sortedHolds_perm.mem_iff, Dict.get?_eq_some_iff]
  refine ⟨havailable, hheld, hearned, fun id record' hget => ?_, fun id record hget hnone => ?_,
    fun key _ => by rw [hearnings]; rfl⟩
  · rcases h id with ⟨hold, hfound, hopen, hmade⟩ | ⟨-, hfresh⟩
    · obtain rfl := Option.mem_unique hmade hget
      refine ⟨hold, hmem.mp hfound, Hold.terms_eq.mpr ⟨rfl, Hold.status_of_held hopen, ?_⟩⟩
      exact (hkeyed id hold (hmem.mp hfound)).symm
    · cases hfresh.symm.trans hget
  · rcases h id with ⟨hold, hfound, hopen, hmade⟩ | ⟨hclosed, -⟩
    · cases hnone.symm.trans hmade
    · exact fun hstatus => hclosed record (hmem.mpr hget) (Hold.held_of_status hstatus)

/-- The state that standalone calls reach from a new file. -/
def standaloneAfter (grant : α) (calls : List (Environment × Call)) : TaskBalance α :=
  (openStandalone grant none).after calls

/-- **The migration of a reachable v1 file** goes on like the standalone balance exactly
when freezing the open amounts again gives the balances back and the later calls spare
what was dropped. -/
theorem migration_preserves_iff (grant : Amount) (calls : List (Environment × Call))
    {env : Environment} (hq : env.Quiet) {later : List Later}
    (hlater : ∀ step ∈ later, step.1.Quiet ∧ step.2.1.Quiet) :
    (∃ u, migrateLegacy env (standaloneAfter grant calls).snapshot = .ok u ∧
      Agree (standaloneAfter grant calls) u later) ↔
    Refreezes (standaloneAfter grant calls).snapshot ∧
      ∀ u, migrateLegacy env (standaloneAfter grant calls).snapshot = .ok u →
        Spares (standaloneAfter grant calls) u later := by
  have hkeyed : Keyed (standaloneAfter grant calls).snapshot := by
    refine after_induction (fun _ _ _ hstep h => hstep.keyed h) (fun taskId record hget => ?_) calls
    cases hget
  generalize standaloneAfter grant calls = t at hkeyed
  rcases migrateLegacy_cases hq t.snapshot with ⟨hnone, e, hfails⟩ |
      ⟨u, hok, hrefrozen, hearned, hearnings, hremade⟩
  · refine iff_of_false ?_ ?_
    · rintro ⟨u, hok, -⟩
      rw [hfails] at hok
      cases hok
    · rintro ⟨hsame, -⟩
      cases hnone.symm.trans hsame
  · have hsimilar : Refreezes t.snapshot → Similar t.snapshot u.snapshot := by
      intro hsame
      have hbalances := Option.mem_unique hrefrozen hsame
      exact hremade.similar hkeyed (Prod.mk.inj hbalances).1.symm (Prod.mk.inj hbalances).2.symm
        hearned.symm hearnings
    constructor
    · rintro ⟨u', hok', hagree⟩
      obtain rfl := Except.ok.inj (hok.symm.trans hok')
      obtain ⟨havailable, hheld, -⟩ := hagree.now
      have hsame : Refreezes t.snapshot := by rw [Refreezes, hrefrozen, havailable, hheld]
      refine ⟨hsame, fun u' hok' => ?_⟩
      obtain rfl := Except.ok.inj (hok.symm.trans hok')
      exact ((hsimilar hsame).agree_iff hlater).mp hagree
    · rintro ⟨hsame, hspares⟩
      exact ⟨u, hok, ((hsimilar hsame).agree_iff hlater).mpr (hspares u hok)⟩

/-! ### An earning credited twice -/

theorem sampleEnvironment_quiet (stamp : String) : (sampleEnvironment stamp).Quiet :=
  ⟨rfl, rfl, rfl⟩

def sampleEarns : List (Environment × Call) :=
  [(sampleEnvironment "1", sampleEarn), (sampleEnvironment "2", sampleHold)]

/-- A balance of ten on which a task was earned and another is held. -/
def sampleEarned : TaskBalance Amount := standaloneAfter (sampleAmount 10) sampleEarns

/-- A later call with nothing failing in either run. -/
def sampleLater (call : Call) : List Later := [(sampleEnvironment "4", sampleEnvironment "4", call)]

theorem sampleLater_quiet (call : Call) :
    ∀ step ∈ sampleLater call, step.1.Quiet ∧ step.2.1.Quiet := by
  intro step hstep
  rw [List.mem_singleton.mp hstep]
  exact ⟨sampleEnvironment_quiet "4", sampleEnvironment_quiet "4"⟩

/-- What is checked of the migrated balance holds of it. -/
theorem sampleEarned_migrated {u : TaskBalance Amount} {p : TaskBalance Amount → Bool}
    (hu : migrateLegacy (sampleEnvironment "3") sampleEarned.snapshot = .ok u)
    (h : (migrateLegacy (sampleEnvironment "3") sampleEarned.snapshot).toOption.any p) : p u := by
  rwa [hu] at h

/-- The open hold is settled in both runs. -/
theorem migration_preserves_iff_sample :
    ∃ u, migrateLegacy (sampleEnvironment "3") sampleEarned.snapshot = .ok u ∧
      Agree sampleEarned u (sampleLater sampleSettle) := by
  refine (migration_preserves_iff (sampleAmount 10) sampleEarns (sampleEnvironment_quiet "3")
    (sampleLater_quiet sampleSettle)).mpr ⟨by decide +kernel, fun u hu => ⟨?_, trivial⟩⟩
  intro value _ hnone
  have hheld := sampleEarned_migrated (p := fun u => (u.snapshot.holds.get? "task").isSome) hu
    (by decide +kernel)
  rw [hnone] at hheld
  cases hheld

/-- **An earning is credited again** on the migrated balance. -/
theorem migration_forgets_earning : ¬ ∀ (grant : Amount) calls env, env.Quiet →
    ∀ later : List Later, (∀ step ∈ later, step.1.Quiet ∧ step.2.1.Quiet) →
      ∃ u, migrateLegacy env (standaloneAfter grant calls).snapshot = .ok u ∧
        Agree (standaloneAfter grant calls) u later := by
  intro hall
  obtain ⟨u, hu, -, -, hagree⟩ := hall (sampleAmount 10) sampleEarns _
    (sampleEnvironment_quiet "3") _ (sampleLater_quiet sampleEarn)
  have hearned := sampleEarned_migrated (p := fun u => decide
    ((sampleEarned.execute (sampleEnvironment "4") sampleEarn).2.snapshot.earned ≠
      (u.execute (sampleEnvironment "4") sampleEarn).2.snapshot.earned)) hu (by decide +kernel)
  exact of_decide_eq_true hearned hagree.2.2

end TaskBalance
