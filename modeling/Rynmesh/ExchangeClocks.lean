import Rynmesh.ExchangeAgreement

/-!
# Deadlines are judged by a correct clock

A block needs a quorum, a quorum has a correct validator, and a correct
validator casts its first vote for an order action only when its own clock
admits it.  So no proposer can date a payout forward or an appeal back.
-/

namespace Exchange

open Checked

variable {C : Codec}

/-! ### What a first vote has checked -/

/-- The local clock's verdict on a first vote for an order action. -/
structure ClockChecked (order : Order) (action : OrderAction) (timestamp now : Int) : Prop where
  skew : |timestamp - now| ≤ CLOCK_SKEW
  guard : clockGuard order now action = .ok ()

variable {timestamp : Int} {action : OrderAction}

theorem ClockChecked.ended {order : Order} {now : Int} (h : ClockChecked order action timestamp now)
    (haction : opensAtDeadline order action) : ∃ ends, order.deadline = .ok ends ∧ ends ≤ now := by
  have hguard := h.guard
  simp only [clockGuard, bind_ok, whenever_ok, require_ok] at hguard
  obtain ⟨_, -, _, -, hopens⟩ := hguard
  obtain ⟨ends, hends, hle⟩ := hopens haction
  exact ⟨ends, hends, hle⟩

theorem ClockChecked.before_end {order : Order} {now : Int}
    (h : ClockChecked order action timestamp now) (haction : action.endsAtDeadline) :
    ∃ ends, order.deadline = .ok ends ∧ now < ends := by
  have hguard := h.guard
  simp only [clockGuard, bind_ok, whenever_ok, require_ok] at hguard
  obtain ⟨_, hends, -⟩ := hguard
  obtain ⟨ends, hends, hlt⟩ := hends haction
  exact ⟨ends, hends, hlt⟩

variable {chain : Chain}

/-- **A first vote for an order action has passed the local clock.** -/
theorem admitVote_clock {now size : Int} {proposal wire value : Json} {state : State Order}
    {id owner : String} {order : Order} (h : admitVote now size chain proposal = .ok ())
    (hstate : chain.state = .current state) (hcommand : proposal.get? "command" = some wire)
    (htime : proposal.get? "timestamp" = some (.int timestamp))
    (horder : OrderCommand C wire action id owner value)
    (hfound : state.orders.get? id = some order) (hopen : ¬ order.status.Terminal) :
    ClockChecked order action timestamp now := by
  simp only [admitVote, bind_ok, demand_ok, require_ok, need_ok, Checked.demand_ok] at h
  obtain ⟨timestamp', htimestamp, -, hskew, payload, hpayload, state', hcurrent, _, hdeadlines,
    -⟩ := h
  obtain rfl : timestamp = timestamp' := by simpa [htime, Json.asInt?] using htimestamp
  obtain rfl : state = state' := by simpa [hstate, RulesState.current?] using hcurrent
  obtain ⟨⟨signed, publicKey, hsigned, -, haction, hvalue⟩, hnamed⟩ := horder
  have hwire : wire.get? "payload" = some payload := by simpa [hcommand] using hpayload
  simp only [voteDeadlines, bind_ok, need_ok] at hdeadlines
  obtain ⟨action', haction', value', hvalue', found, hfind, h⟩ := hdeadlines
  obtain rfl : signed = payload := by
    have hdict := (signature_ok hsigned).1
    rw [hwire] at hdict
    exact Json.dict?_of_get? haction' hdict
  obtain rfl := Option.mem_unique haction haction'
  obtain rfl := Option.mem_unique hvalue hvalue'
  obtain rfl : some (id, order) = found := by
    simpa [hnamed, find, hfound] using hfind
  simp only [hopen, if_false, readAction_name, ok_bind] at h
  exact ⟨hskew, h⟩

/-! ### Blocks and the votes behind them -/

variable {config : Config}

/-- **Histories of one network with the same head at the same height are the
same chain.** -/
theorem History.eq_of_head (hinj : Function.Injective C.sha256) {rows : List (Nat × Block)}
    (h : History C config rows chain) :
    ∀ {rows' chain'}, History C config rows' chain' → chain.height = chain'.height →
      chain.head = chain'.head → chain = chain' := by
  induction h with
  | start =>
    intro rows' chain' h' hheight hhead
    cases h' with
    | start => rfl
    | block before replayed =>
      obtain ⟨_, _, -, -, hnext, -, rfl⟩ := replayBlock_ok.mp replayed
      simp only [Chain.start] at hheight
      omega
  | @block _ _ _ row before replayed ih =>
    intro rows' chain' h' hheight hhead
    obtain ⟨_, proposal, hverify, hcarries, hnext, hhash, rfl⟩ := replayBlock_ok.mp replayed
    cases h' with
    | start =>
      simp only [Chain.start] at hheight
      omega
    | @block _ _ _ row' before' replayed' =>
      obtain ⟨_, proposal', hverify', hcarries', hnext', hhash', rfl⟩ :=
        replayBlock_ok.mp replayed'
      obtain rfl : proposal = proposal' := hinj (hhash.symm.trans (hhead.trans hhash'))
      obtain ⟨p, hcertified⟩ := verify_ok hverify
      obtain rfl := Option.mem_unique hcarries hcertified.carries
      obtain ⟨p', hcertified'⟩ := verify_ok hverify'
      obtain rfl := Option.mem_unique hcarries' hcertified'.carries
      obtain ⟨_, _, hproposed⟩ := checkProposal_ok hcertified.checked
      obtain ⟨_, _, hproposed'⟩ := checkProposal_ok hcertified'.checked
      have hparent := hproposed.parent.symm.trans hproposed'.parent
      have hheights : row.1 = row'.1 := hheight
      obtain rfl := ih before' (by omega) (by simpa using hparent)
      exact replayBlock_unique hinj replayed replayed' hhead

section Votes

variable {correct : String → Prop} [DecidablePred correct] {s : System}

/-- **Behind every block stands a correct validator's first vote** for its
proposal, cast on the chain the block extends. -/
theorem System.Sound.correct_cast (hinj : Function.Injective C.sha256) (h : s.Sound C correct)
    (haccepted : config.Accepted) (hfew : FewFaulty correct config) {before : List (Nat × Block)}
    {prior : Chain} {row : Nat × Block} {proposal : Json} {next : RulesState}
    (hprior : History C config before prior) (hchecked : checkProposal C prior proposal = .ok next)
    (hheight : row.1 = prior.height + 1) (hhash : row.2.hash = C.sha256 proposal)
    (hbacked : Backed C correct s.casts config row.1 row.2.hash) :
    ∃ cast ∈ s.casts, correct cast.voter ∧ cast.voter ∈ config.validatorKeys ∧
      cast.proposal = proposal ∧ cast.chain = prior ∧ cast.Admitted C := by
  obtain ⟨signers, hsub, hquorum, hcasts⟩ := hbacked
  obtain ⟨key, hkey, hcorrect⟩ := hfew.overlapping.correct hsub hquorum
  obtain ⟨cast, hcast, rfl, hfor⟩ := hcasts key hkey (not_not.mp hcorrect)
  obtain ⟨hvoter, hadmitted⟩ := h.admitted cast hcast
  obtain ⟨rows, hhistory⟩ := hadmitted.history
  have hproposal : cast.proposal = proposal := hinj (hfor.hash.trans hhash)
  have hconfig : cast.chain.config = config :=
    hadmitted.accepted.eq_of_network hinj haccepted (hhistory.config_eq.2.symm.trans hfor.network)
  obtain ⟨_, hcast'⟩ := hadmitted.checked
  obtain ⟨_, _, hproposed⟩ := checkProposal_ok hcast'
  obtain ⟨_, _, hproposed'⟩ := checkProposal_ok hchecked
  have hparent := hproposed.parent
  rw [hproposal, hproposed'.parent] at hparent
  refine ⟨cast, hcast, hvoter, List.mem_toFinset.mp (hsub hkey), hproposal, ?_, hadmitted⟩
  refine History.eq_of_head hinj (hconfig ▸ hhistory) hprior ?_ (by simpa using hparent.symm)
  have := hfor.height
  omega

end Votes

/-! ### Certified times -/

/-- The time of a rules state. -/
def RulesState.time : RulesState → Int
  | current state | legacy state => state.time

theorem RulesState.apply_time {state next : RulesState} {wire : Json}
    (h : state.apply C wire config timestamp = .ok next) :
    state.time ≤ timestamp ∧ next.time = timestamp := by
  cases state with
  | current state =>
    simp only [RulesState.apply, map_ok] at h
    obtain ⟨state', happly, rfl⟩ := h
    obtain ⟨_, _, _, _, happlied⟩ := apply_ok happly
    exact ⟨happlied.read.time_le, by rw [RulesState.time, happlied.result, recorded_time]⟩
  | legacy state =>
    simp only [RulesState.apply, map_ok, LegacyV1.apply, bind_ok] at h
    obtain ⟨state', ⟨cmd, hread, _, -, _, -, hfinish⟩, rfl⟩ := h
    obtain ⟨_, hread⟩ := readCommand_ok hread
    obtain ⟨hresult, -, -⟩ := finish_ok.mp hfinish
    exact ⟨hread.time_le, by rw [RulesState.time, hresult, recorded_time]⟩

/-- The certified timestamp of a block. -/
def Block.timestamp? (block : Block) : Option Int :=
  ((block.certificate.get? "proposal").bind (·.get? "timestamp")).bind Json.asInt?

theorem History.timestamps {rows : List (Nat × Block)} (h : History C config rows chain) :
    ∃ times : List Int, rows.map (·.2.timestamp?) = times.map some ∧
      times.Pairwise (· ≤ ·) ∧ ∀ t ∈ times, t ≤ chain.state.time := by
  induction h with
  | start => exact ⟨[], rfl, .nil, by simp⟩
  | @block _ _ _ row before replayed ih =>
    obtain ⟨times, htimes, hsorted, hle⟩ := ih
    obtain ⟨state, proposal, hverify, hcarries, -, -, rfl⟩ := replayBlock_ok.mp replayed
    obtain ⟨p, hcertified⟩ := verify_ok hverify
    obtain rfl := Option.mem_unique hcarries hcertified.carries
    obtain ⟨command, timestamp, hproposed⟩ := checkProposal_ok hcertified.checked
    obtain ⟨hforward, hnow⟩ := RulesState.apply_time hproposed.applied
    refine ⟨times ++ [timestamp], ?_, ?_, fun t ht => ?_⟩
    · have hrow : row.2.timestamp? = some timestamp := by
        simp [Block.timestamp?, hcarries, hproposed.timestamp_eq, Json.asInt?]
      simp [htimes, hrow]
    · refine List.pairwise_append.mpr ⟨hsorted, by simp, fun a ha b hb => ?_⟩
      rw [List.mem_singleton.mp hb]
      exact (hle a ha).trans hforward
    · rcases List.mem_append.mp ht with ht | ht
      · exact ((hle t ht).trans hforward).trans hnow.ge
      · rw [List.mem_singleton.mp ht, hnow]

/-! ### Deadlines -/

theorem vote_again {key : String} {ledger : Ledger} {prior : VoteRow}
    (hrunning : ledger.chain = some chain)
    (hprior : ledger.db.votes.get? (chain.height + 1) = some prior) (proposal : Json)
    (now now' size size' : Int) :
    vote C key now size ledger proposal = vote C key now' size' ledger proposal := by
  simp [vote, writable, ready, hrunning, demand, Checked.demand, hprior]

/-- A correct validator of the roster cast its first vote for the proposal at a
local time that stands in a relation to the order's deadline, and within the
allowed skew of the certified timestamp. -/
def JudgedBy (C : Codec) (correct : String → Prop) (casts : List Cast) (config : Config)
    (proposal : Json) (timestamp : Int) (order : Order) (judged : Int → Int → Prop) : Prop :=
  ∃ cast ∈ casts, correct cast.voter ∧ cast.voter ∈ config.validatorKeys ∧
    cast.proposal = proposal ∧ cast.Admitted C ∧ |timestamp - cast.now| ≤ CLOCK_SKEW ∧
    ∃ ends, order.deadline = .ok ends ∧ judged ends cast.now

/-- **Deadlines are judged by a correct clock.**  Take any run of the correct
ledgers against an adversary who holds at most a third of the validators, less
one, and any correct ledger of it.

* A certified timeout, or settlement with fewer than two waivers, was voted for
  by a correct validator whose clock had reached the order's deadline.
* A certified delivery, dispute, evidence, ruling or appeal was voted for by a
  correct validator whose clock had not.
* The certified timestamp is within the skew of that clock, and certified
  timestamps never decrease along the chain.
* Replay reads the tables only, and a stored vote is returned again, whatever
  the clock says. -/
theorem deadlines_judged_by_correct_clocks (C : Codec) (hinj : Function.Injective C.sha256)
    (correct : String → Prop) [DecidablePred correct] {start s : System} (hstart : start.Initial)
    (hs : Reaches C correct start s) {key : String} (hkey : correct key) {chain : Chain}
    (hchain : (s.process key).chain? C = some chain) (hfew : FewFaulty correct chain.config) :
    (∀ before row after, (s.process key).db.blocks.entries = before ++ row :: after →
      ∀ proposal wire timestamp, row.2.certificate.get? "proposal" = some proposal →
        proposal.get? "command" = some wire →
        proposal.get? "timestamp" = some (.int timestamp) →
      ∀ action id owner value, OrderCommand C wire action id owner value →
        ∃ prior state order, History C chain.config before prior ∧
          prior.state = .current state ∧ state.orders.get? id = some order ∧
          (action = .timeout ∨ action = .finalize ∧ order.waivers.length < 2 →
            JudgedBy C correct s.casts chain.config proposal timestamp order
              fun ends now => ends ≤ now) ∧
          (action ∈ [.deliver, .dispute, .evidence, .rule, .appeal] →
            JudgedBy C correct s.casts chain.config proposal timestamp order
              fun ends now => now < ends)) ∧
    (∃ times : List Int, (s.process key).db.blocks.entries.map (·.2.timestamp?) = times.map some ∧
      times.Pairwise (· ≤ ·)) ∧
    openLedger C (s.process key).db = .ok ⟨(s.process key).db, some chain⟩ ∧
    (∀ prior, (s.process key).db.votes.get? (chain.height + 1) = some prior →
      ∀ proposal now now' size size',
        vote C key now size ⟨(s.process key).db, some chain⟩ proposal =
          vote C key now' size' ⟨(s.process key).db, some chain⟩ proposal) := by
  have hsound : s.Sound C correct := hs.sound hinj hstart.sound
  have hfollows := (hsound.recovers key hkey).follows hchain
  refine ⟨?_, ?_, ?_, ?_⟩
  · intro before row after hrows proposal wire timestamp hcarries hcommand htime action id owner
      value horder
    obtain ⟨prior, next, hprior, hrow, -⟩ :=
      History.split (hrows ▸ hfollows.history : History C chain.config (before ++ row :: after) _)
    obtain ⟨rules, proposal', hverify, hcarries', hheight, hhash, -⟩ := replayBlock_ok.mp hrow
    obtain ⟨p, hcertified⟩ := verify_ok hverify
    obtain rfl := Option.mem_unique hcarries hcertified.carries
    obtain rfl := Option.mem_unique hcarries hcarries'
    have hget : (s.process key).db.blocks.get? row.1 = some row.2 :=
      Dict.get?_eq_some_iff.mpr (by rw [hrows]; simp)
    have hbacked := hsound.backed key hkey chain hfollows row.1 row.2 hget
    obtain ⟨cast, hcast, hvoter, hvalidator, hproposal, hsame, hadmitted⟩ :=
      hsound.correct_cast hinj hfollows.accepted hfew hprior hcertified.checked hheight hhash
        hbacked
    -- The vote was cast under the current rules, so the order is on record there.
    obtain ⟨size, hadm⟩ := hadmitted.admitted
    obtain ⟨command, time, hproposed⟩ := checkProposal_ok hcertified.checked
    obtain rfl := Option.mem_unique hproposed.command_eq hcommand
    have happlied := hproposed.applied
    rw [hproposal, hsame] at hadm
    cases hstate : prior.state with
    | legacy state =>
      simp [admitVote, bind_ok, hstate, RulesState.current?, Checked.demand] at hadm
    | current state =>
      rw [hstate] at happlied
      simp only [RulesState.apply, map_ok] at happlied
      obtain ⟨state', happly, -⟩ := happlied
      have hinvariant := (hprior.reachable hstate).invariant
      rw [hprior.config_eq.1] at happly
      obtain ⟨order, order', horderApplied⟩ := apply_orderCommand hinvariant horder happly
      have hclock := admitVote_clock hadm hstate hcommand htime horder horderApplied.found
        horderApplied.opened
      refine ⟨prior, state, order, hprior, hstate, horderApplied.found, fun haction => ?_,
        fun haction => ?_⟩
      · obtain ⟨ends, hends, hle⟩ := hclock.ended (haction.imp_right fun h => ⟨h.1, by omega⟩)
        exact ⟨cast, hcast, hvoter, hvalidator, hproposal, hadmitted, hclock.skew, ends, hends, hle⟩
      · obtain ⟨ends, hends, hlt⟩ := hclock.before_end (by
          simp only [List.mem_cons, List.not_mem_nil, or_false] at haction
          tauto)
        exact ⟨cast, hcast, hvoter, hvalidator, hproposal, hadmitted, hclock.skew, ends, hends, hlt⟩
  · obtain ⟨times, htimes, hsorted, -⟩ := hfollows.history.timestamps
    exact ⟨times, htimes, hsorted⟩
  · have hconsistent : Consistent C ⟨(s.process key).db, some chain⟩ := hfollows
    exact openLedger_consistent hconsistent
  · intro prior hprior proposal now now' size size'
    exact vote_again rfl hprior proposal now now' size size'

/-- The first block of the sample system is dated, and its ledger reopens to
the same chain whatever the clock says. -/
theorem deadlines_judged_by_correct_clocks_sample : ∃ s : System, ∃ block chain,
    (s.process (sampleKey 'M')).db.blocks.get? 1 = some block ∧
    (∃ times : List Int, (s.process (sampleKey 'M')).db.blocks.entries.map (·.2.timestamp?) =
      times.map some ∧ times.Pairwise (· ≤ ·)) ∧
    openLedger .sample (s.process (sampleKey 'M')).db =
      .ok ⟨(s.process (sampleKey 'M')).db, some chain⟩ := by
  obtain ⟨start, s, committed, block, chain, hstart, hs, hdone, hblock, hchain, hconfig⟩ :=
    sample_system
  have hM := hdone 'M' (by simp)
  have hcorrect : sampleCorrect (sampleKey 'M') :=
    List.mem_map_of_mem (a := 'M') (l := ['E', 'I', 'M', 'Y']) (by simp)
  obtain ⟨-, htimes, hopen, -⟩ := deadlines_judged_by_correct_clocks .sample
    Codec.sample_injective sampleCorrect hstart hs hcorrect (by rw [hM]; exact hchain)
    (hconfig ▸ sample_fewFaulty)
  refine ⟨s, block, chain, ?_, htimes, hopen⟩
  rw [hM]
  exact hblock

end Exchange
