import Rynmesh.CheckedComputation
import Mathlib.Algebra.Order.Ring.Rat
import Mathlib.Order.Monotone.Basic
import Mathlib.Tactic.Linarith

/-!
# Switching between routes

`RouteManager` of `peer_transit.py` decides at each request whether it goes
directly or through a transit peer.

* `Number` has the values of a float, with exact arithmetic on the finite ones;
* `RoutePolicy.fromEnv` reads the thresholds, `degraded` and `transitBetter` are
  the two questions that `RouteManager.update` asks;
* `Inv` is what a state says of the updates so far, and `inv_update` carries it
  along;
* `route_hysteresis` is the result.
-/

namespace Route

open Checked

/-! ### Numbers -/

/-- The values of a float. -/
inductive Number
  | nan
  | negInf
  | finite (value : Rat)
  | posInf
  deriving DecidableEq

namespace Number

/-- `a <= b`. -/
def le : Number → Number → Bool
  | nan, _ | _, nan => false
  | negInf, _ | _, posInf => true
  | finite a, finite b => a ≤ b
  | _, _ => false

/-- `a < b`. -/
def lt : Number → Number → Bool
  | nan, _ | _, nan | posInf, _ | _, negInf => false
  | finite a, finite b => a < b
  | _, _ => true

/-- `max(a, b)`. -/
def max (a b : Number) : Number := if a.lt b then b else a

/-- `min(a, b)`. -/
def min (a b : Number) : Number := if b.lt a then b else a

def neg : Number → Number
  | nan => nan
  | negInf => posInf
  | finite a => finite (-a)
  | posInf => negInf

def add : Number → Number → Number
  | nan, _ | _, nan => nan
  | finite a, finite b => finite (a + b)
  | finite _, b => b
  | a, finite _ => a
  | negInf, negInf => negInf
  | posInf, posInf => posInf
  | _, _ => nan

def mul : Number → Number → Number
  | nan, _ | _, nan => nan
  | finite a, finite b => finite (a * b)
  | a, b =>
      if a = finite 0 ∨ b = finite 0 then nan
      else if a.lt (finite 0) = b.lt (finite 0) then posInf else negInf

/-- A bound that is reached stays reached. -/
theorem le_mono {a : Number} {x y : Rat} (h : a.le (finite x) = true) (hxy : x ≤ y) :
    a.le (finite y) = true := by
  cases a with
  | nan => cases h
  | negInf => rfl
  | posInf => cases h
  | finite a =>
    simp only [le, decide_eq_true_eq] at h ⊢
    exact h.trans hxy

/-- Two bounds that are reached one after the other. -/
theorem add_le {a b : Number} {x y : Rat} (ha : a.le (finite x) = true)
    (hb : b.le (finite y) = true) : (a.add b).le (finite (x + y)) = true := by
  cases a with
  | nan | posInf => cases ha
  | negInf =>
    cases b with
    | nan | posInf => cases hb
    | negInf | finite b => rfl
  | finite a =>
    cases b with
    | nan | posInf => cases hb
    | negInf => rfl
    | finite b =>
      simp only [le, add, decide_eq_true_eq] at ha hb ⊢
      linarith

end Number

/-! ### Policies -/

structure RoutePolicy where
  hardFailureCount : Int
  lossThreshold : Number
  latencyThresholdMs : Number
  transitImprovementRatio : Number
  degradedHoldS : Number
  transitMinHoldS : Number
  recoveryHoldS : Number
  recoveryProbeCount : Int
  deriving DecidableEq

/-- The environment, and what `int` and `float` make of a text. -/
structure Environment where
  get : String → Option String
  int : String → Option Int
  float : String → Option Number

variable (env : Environment)

/-- An integer of the environment, or its default. -/
def integer (name : String) (default minimum : Int) : Except String Int := do
  let value ← demand (name ++ " must be an integer")
    (match env.get name with
      | some text => env.int text
      | none => some default)
  require (name ++ " must be >= " ++ toString minimum) (minimum ≤ value)
  return value

/-- A number of the environment, or its default; the minimum is written as its text. -/
def number (name : String) (default minimum : Rat) (text : String) : Except String Number := do
  let value ← demand (name ++ " must be numeric")
    (match env.get name with
      | some text => env.float text
      | none => some (.finite default))
  require (name ++ " must be >= " ++ text) (¬ value.lt (.finite minimum))
  return value

/-- `from_env`. -/
def RoutePolicy.fromEnv : Except String RoutePolicy := do
  let loss ← number env "RYNMESH_TRANSIT_LOSS_THRESHOLD" 0.08 0 "0.0"
  let improvement ← number env "RYNMESH_TRANSIT_IMPROVEMENT_RATIO" 0.25 0 "0.0"
  require "transit loss and improvement ratios must be <= 1"
    (¬ Number.lt (.finite 1) loss ∧ ¬ Number.lt (.finite 1) improvement)
  let hardFailureCount ← integer env "RYNMESH_TRANSIT_HARD_FAILURE_COUNT" 3 1
  let latencyThresholdMs ← number env "RYNMESH_TRANSIT_LATENCY_THRESHOLD_MS" 250 1 "1.0"
  let degradedHoldS ← number env "RYNMESH_TRANSIT_DEGRADED_HOLD_S" 30 0 "0.0"
  let transitMinHoldS ← number env "RYNMESH_TRANSIT_MIN_HOLD_S" 60 0 "0.0"
  let recoveryHoldS ← number env "RYNMESH_TRANSIT_RECOVERY_HOLD_S" 120 0 "0.0"
  let recoveryProbeCount ← integer env "RYNMESH_TRANSIT_RECOVERY_PROBES" 5 1
  return ⟨hardFailureCount, loss, latencyThresholdMs, improvement, degradedHoldS,
    transitMinHoldS, recoveryHoldS, recoveryProbeCount⟩

/-! ### Updates -/

structure PathMetrics where
  reachable : Bool
  rttP95Ms : Number
  lossRatio : Number
  consecutiveFailures : Int

/-- `score`. -/
def PathMetrics.score (m : PathMetrics) : Number :=
  if m.reachable then
    (Number.max (.finite 0) m.rttP95Ms).add
      (Number.mul (.finite 2000) (Number.max (.finite 0) (Number.min (.finite 1) m.lossRatio)))
  else .posInf

/-- The arguments of one `update`. -/
structure Update where
  direct : PathMetrics
  transit : Option PathMetrics
  now : Rat

def degraded (policy : RoutePolicy) (u : Update) : Bool :=
  !u.direct.reachable || policy.hardFailureCount ≤ u.direct.consecutiveFailures ||
    policy.lossThreshold.lt u.direct.lossRatio || policy.latencyThresholdMs.lt u.direct.rttP95Ms

/-- The transit path beats the direct one by the ratio of the policy. -/
def betterBy (policy : RoutePolicy) (direct transit : PathMetrics) : Bool :=
  transit.score.le
    (direct.score.mul ((Number.finite 1).add policy.transitImprovementRatio.neg))

def transitBetter (policy : RoutePolicy) (u : Update) : Bool :=
  match u.transit with
  | none => false
  | some transit =>
      transit.reachable && (!u.direct.reachable || betterBy policy u.direct transit)

inductive RouteState
  | direct
  | degraded
  | peerTransit
  | recovering
  deriving DecidableEq

inductive PathMode
  | direct
  | peerTransit
  deriving DecidableEq

structure RouteEvent where
  source : RouteState
  target : RouteState
  time : Rat
  reason : String

structure RouteManager where
  state : RouteState
  changedAt : Rat
  degradedSince : Option Rat
  recoverySince : Option Rat
  recoveryProbes : Int
  events : List RouteEvent

namespace RouteManager

def new : RouteManager := ⟨.direct, 0, none, none, 0, []⟩

variable (policy : RoutePolicy) (m : RouteManager) (u : Update)

/-- `path_mode`. -/
def pathMode : PathMode :=
  match m.state with
  | .peerTransit => .peerTransit
  | .recovering => .peerTransit
  | _ => .direct

/-- `_change`. -/
def change (state : RouteState) (time : Rat) (reason : String) : RouteManager :=
  { m with state, changedAt := time, events := m.events ++ [⟨m.state, state, time, reason⟩] }

/-- So much time has passed since then. -/
def held (since : Option Rat) (now : Rat) (hold : Number) : Bool :=
  match since with
  | none => false
  | some since => hold.le (.finite (now - since))

def updateDirect : RouteManager :=
  if degraded policy u then
    let m := { m with degradedSince := some u.now }.change .degraded u.now "direct_degraded"
    if transitBetter policy u ∧ policy.hardFailureCount ≤ u.direct.consecutiveFailures then
      m.change .peerTransit u.now "hard_failure"
    else m
  else m

def updateDegraded : RouteManager :=
  if ¬ degraded policy u then
    { m with degradedSince := none }.change .direct u.now "direct_recovered_before_switch"
  else if transitBetter policy u ∧ m.degradedSince.isSome ∧
      (policy.hardFailureCount ≤ u.direct.consecutiveFailures ∨
        held m.degradedSince u.now policy.degradedHoldS) then
    m.change .peerTransit u.now "transit_better"
  else m

def updatePeerTransit : RouteManager :=
  if ¬ degraded policy u ∧ held (some m.changedAt) u.now policy.transitMinHoldS then
    { m with recoverySince := some u.now, recoveryProbes := 1 }.change .recovering u.now
      "direct_recovery_started"
  else m

def updateRecovering : RouteManager :=
  if degraded policy u then
    { m with recoverySince := none, recoveryProbes := 0 }.change .peerTransit u.now
      "direct_recovery_failed"
  else
    let m := { m with recoveryProbes := m.recoveryProbes + 1 }
    if held m.recoverySince u.now policy.recoveryHoldS ∧
        policy.recoveryProbeCount ≤ m.recoveryProbes then
      { m with degradedSince := none, recoverySince := none, recoveryProbes := 0 }.change .direct
        u.now "direct_recovered"
    else m

/-- `update`. -/
def update : RouteManager :=
  match m.state with
  | .direct => m.updateDirect policy u
  | .degraded => m.updateDegraded policy u
  | .peerTransit => m.updatePeerTransit policy u
  | .recovering => m.updateRecovering policy u

end RouteManager

/-! ### Histories -/

/-- The manager before the update of a number. -/
def managerAt (policy : RoutePolicy) (updates : Nat → Update) : Nat → RouteManager
  | 0 => .new
  | n + 1 => (managerAt policy updates n).update policy (updates n)

/-- The update of this number changes the path to `mode`. -/
def ChangesTo (policy : RoutePolicy) (updates : Nat → Update) (mode : PathMode) (n : Nat) : Prop :=
  (managerAt policy updates n).pathMode ≠ mode ∧
    (managerAt policy updates (n + 1)).pathMode = mode

instance (policy : RoutePolicy) (updates : Nat → Update) (mode : PathMode) (n : Nat) :
    Decidable (ChangesTo policy updates mode n) := by
  unfold ChangesTo
  infer_instance

/-! ### One update -/

/-- **What one update can do**, by the state that it leads to. -/
structure Follows (policy : RoutePolicy) (m : RouteManager) (u : Update) (next : RouteManager) :
    Prop where
  direct : next.state = .direct → m.state = .direct ∨ m.state = .degraded ∨
    m.state = .recovering ∧ degraded policy u = false ∧
      RouteManager.held m.recoverySince u.now policy.recoveryHoldS = true ∧
      policy.recoveryProbeCount ≤ m.recoveryProbes + 1
  waits : next.state = .degraded → degraded policy u = true ∧
    (m.state = .direct ∧ next.degradedSince = some u.now ∨
      m.state = .degraded ∧ next.degradedSince = m.degradedSince)
  peerTransit : next.state = .peerTransit →
    m.state = .peerTransit ∧ next.changedAt = m.changedAt ∨
    next.changedAt = u.now ∧ (m.state = .recovering ∨
      degraded policy u = true ∧ transitBetter policy u = true ∧
        (policy.hardFailureCount ≤ u.direct.consecutiveFailures ∨ m.state = .degraded ∧
          RouteManager.held m.degradedSince u.now policy.degradedHoldS = true))
  recovering : next.state = .recovering → degraded policy u = false ∧
    (m.state = .peerTransit ∧
        RouteManager.held (some m.changedAt) u.now policy.transitMinHoldS = true ∧
        next.recoverySince = some u.now ∧ next.recoveryProbes = 1 ∨
      m.state = .recovering ∧ next.recoverySince = m.recoverySince ∧
        next.recoveryProbes = m.recoveryProbes + 1)

theorem update_follows (policy : RoutePolicy) (m : RouteManager) (u : Update) :
    Follows policy m u (m.update policy u) := by
  unfold RouteManager.update
  cases hstate : m.state with
  | direct =>
    simp only [RouteManager.updateDirect]
    split_ifs <;> constructor <;> simp_all [RouteManager.change]
  | degraded =>
    simp only [RouteManager.updateDegraded]
    split_ifs <;> constructor <;> simp_all [RouteManager.change]
  | peerTransit =>
    simp only [RouteManager.updatePeerTransit]
    split_ifs <;> constructor <;> simp_all [RouteManager.change]
  | recovering =>
    simp only [RouteManager.updateRecovering]
    split_ifs <;> constructor <;> simp_all [RouteManager.change]

/-! ### The invariant -/

variable {policy : RoutePolicy} {updates : Nat → Update}

/-- Every update of these numbers found the direct path degraded, or none did. -/
def Throughout (policy : RoutePolicy) (updates : Nat → Update) (first last : Nat) (answer : Bool) :
    Prop :=
  ∀ i, first ≤ i → i ≤ last → degraded policy (updates i) = answer

/-- **What the state says of the updates before it.** -/
structure Inv (policy : RoutePolicy) (updates : Nat → Update) (n : Nat) : Prop where
  waits : (managerAt policy updates n).state = .degraded → ∃ j < n,
    (managerAt policy updates n).degradedSince = some (updates j).now ∧
      Throughout policy updates j (n - 1) true
  peerTransit : (managerAt policy updates n).state = .peerTransit →
    ∀ k < n, ChangesTo policy updates .peerTransit k →
      (updates k).now ≤ (managerAt policy updates n).changedAt
  recovering : (managerAt policy updates n).state = .recovering → ∃ j < n,
    (managerAt policy updates n).recoverySince = some (updates j).now ∧
      (managerAt policy updates n).recoveryProbes = ((n - j : Nat) : Int) ∧
      Throughout policy updates j (n - 1) false ∧
      ∀ k < n, ChangesTo policy updates .peerTransit k →
        policy.transitMinHoldS.le (.finite ((updates j).now - (updates k).now)) = true

theorem pathMode_peerTransit {m : RouteManager} (h : m.pathMode = .peerTransit) :
    m.state = .peerTransit ∨ m.state = .recovering := by
  unfold RouteManager.pathMode at h
  cases hstate : m.state <;> simp_all

theorem pathMode_direct {m : RouteManager} (h : m.pathMode = .direct) :
    m.state = .direct ∨ m.state = .degraded := by
  unfold RouteManager.pathMode at h
  cases hstate : m.state <;> simp_all

theorem Throughout.succ {j n : Nat} {answer : Bool}
    (h : Throughout policy updates j (n - 1) answer)
    (hlast : degraded policy (updates n) = answer) :
    Throughout policy updates j n answer := by
  intro i hji hin
  by_cases heq : i = n
  · rw [heq]
    exact hlast
  · exact h i hji (by omega)

theorem Throughout.single {n : Nat} {answer : Bool}
    (hlast : degraded policy (updates n) = answer) :
    Throughout policy updates n n answer := by
  intro i hji hin
  rw [show i = n by omega]
  exact hlast

theorem not_changes {n : Nat} (h : (managerAt policy updates n).pathMode = .peerTransit) :
    ¬ ChangesTo policy updates .peerTransit n := fun hchange => hchange.1 h

theorem inv_succ (hmono : Monotone fun n => (updates n).now) {n : Nat}
    (h : Inv policy updates n) : Inv policy updates (n + 1) := by
  have hfollows := update_follows policy (managerAt policy updates n) (updates n)
  refine ⟨fun hstate => ?_, fun hstate => ?_, fun hstate => ?_⟩
  · obtain ⟨hdegraded, ⟨-, hsince⟩ | ⟨hbefore, hsince⟩⟩ := hfollows.waits hstate
    · exact ⟨n, Nat.lt_succ_self n, hsince, .single hdegraded⟩
    · obtain ⟨j, hj, hold, hall⟩ := h.waits hbefore
      exact ⟨j, Nat.lt_succ_of_lt hj, hsince.trans hold, hall.succ hdegraded⟩
  · intro k hk hchange
    rcases hfollows.peerTransit hstate with ⟨hbefore, hchanged⟩ | ⟨hchanged, -⟩
    · have hpath : (managerAt policy updates n).pathMode = .peerTransit := by
        rw [RouteManager.pathMode, hbefore]
      have hne : k ≠ n := fun heq => not_changes hpath (heq ▸ hchange)
      exact (h.peerTransit hbefore k (by omega) hchange).trans_eq hchanged.symm
    · exact (hmono (Nat.lt_succ_iff.mp hk)).trans_eq hchanged.symm
  · obtain ⟨hfine, ⟨hbefore, hheld, hsince, hprobes⟩ | ⟨hbefore, hsince, hprobes⟩⟩ :=
      hfollows.recovering hstate
    · have hpath : (managerAt policy updates n).pathMode = .peerTransit := by
        rw [RouteManager.pathMode, hbefore]
      refine ⟨n, Nat.lt_succ_self n, hsince, ?_, .single hfine, fun k hk hchange => ?_⟩
      · rw [Nat.add_sub_cancel_left]
        exact hprobes
      · have hne : k ≠ n := fun heq => not_changes hpath (heq ▸ hchange)
        have hle := h.peerTransit hbefore k (by omega) hchange
        exact Number.le_mono hheld (by linarith)
    · obtain ⟨j, hj, hold, hcount, hall, hmin⟩ := h.recovering hbefore
      have hpath : (managerAt policy updates n).pathMode = .peerTransit := by
        rw [RouteManager.pathMode, hbefore]
      refine ⟨j, Nat.lt_succ_of_lt hj, hsince.trans hold, ?_, hall.succ hfine,
        fun k hk hchange => ?_⟩
      · refine hprobes.trans ?_
        omega
      · have hne : k ≠ n := fun heq => not_changes hpath (heq ▸ hchange)
        exact hmin k (by omega) hchange

theorem inv (policy : RoutePolicy) (hmono : Monotone fun n => (updates n).now) (n : Nat) :
    Inv policy updates n := by
  induction n with
  | zero =>
    refine ⟨fun hstate => ?_, fun hstate => ?_, fun hstate => ?_⟩ <;> cases hstate
  | succ n ih => exact inv_succ hmono ih

/-! ### Changes of the path -/

theorem held_some {since now : Rat} {hold : Number}
    (h : RouteManager.held (some since) now hold = true) :
    hold.le (.finite (now - since)) = true := h

/-- **A change to the transit path** is to a better one, after hard failures or a hold. -/
theorem change_to_peerTransit (hmono : Monotone fun n => (updates n).now) {n : Nat}
    (h : ChangesTo policy updates .peerTransit n) :
    transitBetter policy (updates n) = true ∧
      (policy.hardFailureCount ≤ (updates n).direct.consecutiveFailures ∨
        ∃ j ≤ n, policy.degradedHoldS.le (.finite ((updates n).now - (updates j).now)) = true ∧
          Throughout policy updates j n true) := by
  have hfollows := update_follows policy (managerAt policy updates n) (updates n)
  have hbefore : (managerAt policy updates n).state ≠ .peerTransit ∧
      (managerAt policy updates n).state ≠ .recovering := by
    refine ⟨fun hstate => h.1 ?_, fun hstate => h.1 ?_⟩
    · rw [RouteManager.pathMode, hstate]
    · rw [RouteManager.pathMode, hstate]
  rcases pathMode_peerTransit h.2 with hstate | hstate
  · rcases hfollows.peerTransit hstate with ⟨hpeer, -⟩ |
      ⟨-, hrecovering | ⟨hdegraded, hbetter, hwhy⟩⟩
    · exact absurd hpeer hbefore.1
    · exact absurd hrecovering hbefore.2
    · refine ⟨hbetter, hwhy.imp_right fun hheld => ?_⟩
      obtain ⟨j, hj, hsince, hall⟩ := (inv policy hmono n).waits hheld.1
      have hhold := hheld.2
      rw [hsince] at hhold
      exact ⟨j, hj.le, held_some hhold, hall.succ hdegraded⟩
  · rcases (hfollows.recovering hstate).2 with ⟨hpeer, -⟩ | ⟨hrecovering, -⟩
    · exact absurd hpeer hbefore.1
    · exact absurd hrecovering hbefore.2

/-- **A change back to the direct path** comes after both holds and enough probes. -/
theorem change_to_direct (hmono : Monotone fun n => (updates n).now) {n : Nat}
    (h : ChangesTo policy updates .direct n) :
    (∀ k ≤ n, ChangesTo policy updates .peerTransit k →
      (policy.transitMinHoldS.add policy.recoveryHoldS).le
        (.finite ((updates n).now - (updates k).now)) = true) ∧
      ∃ j ≤ n, policy.recoveryProbeCount ≤ ((n + 1 - j : Nat) : Int) ∧
        policy.recoveryHoldS.le (.finite ((updates n).now - (updates j).now)) = true ∧
        Throughout policy updates j n false := by
  have hfollows := update_follows policy (managerAt policy updates n) (updates n)
  have hbefore : (managerAt policy updates n).state ≠ .direct ∧
      (managerAt policy updates n).state ≠ .degraded := by
    refine ⟨fun hstate => h.1 ?_, fun hstate => h.1 ?_⟩
    · rw [RouteManager.pathMode, hstate]
    · rw [RouteManager.pathMode, hstate]
  rcases pathMode_direct h.2 with hstate | hstate
  · rcases hfollows.direct hstate with hdirect | hdegraded | ⟨hrecovering, hfine, hheld, hprobes⟩
    · exact absurd hdirect hbefore.1
    · exact absurd hdegraded hbefore.2
    · obtain ⟨j, hj, hsince, hcount, hall, hmin⟩ := (inv policy hmono n).recovering hrecovering
      rw [hsince] at hheld
      have hpath : (managerAt policy updates n).pathMode = .peerTransit := by
        rw [RouteManager.pathMode, hrecovering]
      refine ⟨fun k hk hchange => ?_, j, hj.le, ?_, held_some hheld, hall.succ hfine⟩
      · have hne : k ≠ n := fun heq => not_changes hpath (heq ▸ hchange)
        have hboth := Number.add_le (hmin k (by omega) hchange) (held_some hheld)
        exact Number.le_mono hboth (by linarith)
      · rw [hcount] at hprobes
        omega
  · rcases (hfollows.waits hstate).2 with ⟨hdirect, -⟩ | ⟨hdegraded, -⟩
    · exact absurd hdirect hbefore.1
    · exact absurd hdegraded hbefore.2

theorem change_between {k n : Nat} (hkn : k < n) (hk : ChangesTo policy updates .peerTransit k)
    (hn : ChangesTo policy updates .peerTransit n) :
    ∃ i, k < i ∧ i < n ∧ ChangesTo policy updates .direct i := by
  by_contra hnone
  push Not at hnone
  have hstays : ∀ d, k + 1 + d ≤ n →
      (managerAt policy updates (k + 1 + d)).pathMode = .peerTransit := by
    intro d
    induction d with
    | zero => exact fun _ => hk.2
    | succ d ih =>
      intro hd
      have hbefore := ih (by omega)
      by_contra hafter
      have hdirect : (managerAt policy updates (k + 1 + d + 1)).pathMode = .direct := by
        cases hmode : (managerAt policy updates (k + 1 + d + 1)).pathMode with
        | direct => rfl
        | peerTransit => exact absurd hmode hafter
      refine hnone (k + 1 + d) (by omega) (by omega) ⟨?_, hdirect⟩
      rw [hbefore]
      decide
  obtain ⟨d, rfl⟩ : ∃ d, n = k + 1 + d := ⟨n - (k + 1), by omega⟩
  exact hn.1 (hstays d (Nat.le_refl _))

/-- **Route switching has hysteresis.**  For every policy that the environment
gives and every sequence of updates whose times do not fall:

* a change to the transit path is to a better one, after hard failures or while
  the direct path was degraded throughout the hold;
* a change back comes after both holds and after enough probes in a row that
  found the direct path fine, through the recovery hold;
* two changes to the transit path are both holds apart. -/
theorem route_hysteresis {env : Environment} {policy : RoutePolicy}
    (_hpolicy : RoutePolicy.fromEnv env = .ok policy) {updates : Nat → Update}
    (hmono : Monotone fun n => (updates n).now) :
    (∀ n, ChangesTo policy updates .peerTransit n →
      (∃ transit, (updates n).transit = some transit ∧ transit.reachable = true ∧
        ((updates n).direct.reachable = false ∨
          betterBy policy (updates n).direct transit = true)) ∧
      (policy.hardFailureCount ≤ (updates n).direct.consecutiveFailures ∨
        ∃ j ≤ n, policy.degradedHoldS.le (.finite ((updates n).now - (updates j).now)) = true ∧
          Throughout policy updates j n true)) ∧
    (∀ n, ChangesTo policy updates .direct n →
      (∀ k ≤ n, ChangesTo policy updates .peerTransit k →
        (policy.transitMinHoldS.add policy.recoveryHoldS).le
          (.finite ((updates n).now - (updates k).now)) = true) ∧
      ∃ j ≤ n, policy.recoveryProbeCount ≤ ((n + 1 - j : Nat) : Int) ∧
        policy.recoveryHoldS.le (.finite ((updates n).now - (updates j).now)) = true ∧
        Throughout policy updates j n false) ∧
    ∀ k n, k < n → ChangesTo policy updates .peerTransit k →
      ChangesTo policy updates .peerTransit n →
      (policy.transitMinHoldS.add policy.recoveryHoldS).le
        (.finite ((updates n).now - (updates k).now)) = true := by
  refine ⟨fun n h => ?_, fun n h => change_to_direct hmono h, fun k n hkn hk hn => ?_⟩
  · obtain ⟨hbetter, hwhy⟩ := change_to_peerTransit hmono h
    refine ⟨?_, hwhy⟩
    unfold transitBetter at hbetter
    cases htransit : (updates n).transit with
    | none =>
      rw [htransit] at hbetter
      cases hbetter
    | some transit =>
      rw [htransit] at hbetter
      simp only [Bool.and_eq_true, Bool.or_eq_true, Bool.not_eq_true'] at hbetter
      exact ⟨transit, rfl, hbetter⟩
  · obtain ⟨i, hki, hin, hdirect⟩ := change_between hkn hk hn
    have hback := (change_to_direct hmono hdirect).1 k hki.le hk
    have hlater : (updates i).now ≤ (updates n).now := hmono hin.le
    exact Number.le_mono hback (by linarith)

/-- An environment that sets nothing. -/
def sampleEnvironment : Environment := ⟨fun _ => none, fun _ => none, fun _ => none⟩

def samplePolicy : RoutePolicy :=
  ⟨3, .finite 0.08, .finite 250, .finite 0.25, .finite 30, .finite 60, .finite 120, 5⟩

/-- The direct path has failed three times, and is fine at every later minute. -/
def sampleUpdates (n : Nat) : Update :=
  if n = 0 then
    ⟨⟨false, .posInf, .finite 1, 3⟩, some ⟨true, .finite 20, .finite 0, 0⟩, 0⟩
  else ⟨⟨true, .finite 20, .finite 0, 0⟩, none, 60 * n⟩

theorem route_hysteresis_sample :
    ChangesTo samplePolicy sampleUpdates .peerTransit 0 ∧
      ChangesTo samplePolicy sampleUpdates .direct 5 ∧
      (samplePolicy.transitMinHoldS.add samplePolicy.recoveryHoldS).le
        (.finite ((sampleUpdates 5).now - (sampleUpdates 0).now)) = true := by
  have hmono : Monotone fun n => (sampleUpdates n).now := by
    refine monotone_nat_of_le_succ fun n => ?_
    cases n with
    | zero => decide +kernel
    | succ n =>
      simp only [sampleUpdates, Nat.add_eq_zero_iff, one_ne_zero, and_false, if_false]
      push_cast
      linarith
  have hpeer : ChangesTo samplePolicy sampleUpdates .peerTransit 0 := by decide +kernel
  have hdirect : ChangesTo samplePolicy sampleUpdates .direct 5 := by decide +kernel
  have hpolicy : RoutePolicy.fromEnv sampleEnvironment = .ok samplePolicy := by
    decide +kernel
  exact ⟨hpeer, hdirect, ((route_hysteresis hpolicy hmono).2.1 5 hdirect).1 0 (by omega) hpeer⟩

end Route
