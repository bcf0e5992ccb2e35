import Rynmesh.ExchangeLedger
import Rynmesh.ExchangeRuns

/-!
# Replaying a ledger

* `History` is the chain a list of stored blocks replays to, block by block;
* `History.reachable` says that a history is a run of the rules;
* `Consistent` says that a ledger's memory is the history of its tables;
* `openLedger_consistent` says that its tables then reopen to it, and
  `Follows.stage`, `Consistent.commit` and `Consistent.configure` that every
  ledger operation keeps it consistent.
-/

namespace Exchange

open Checked

/-! ### Manifests -/

variable {config : Config}

theorem genesisOf_raw {version : String} {covenant value : Json}
    (h : genesisOf version covenant value = .ok config) :
    config.raw = value ∧ config.version = version := by
  simp only [genesisOf, bind_ok, pure_ok] at h
  obtain ⟨_, -, _, -, _, -, _, -, _, -, _, -, _, -, _, -, _, -, _, -, _, -, _, -, _, -, _, -, _, -,
    _, -, _, -, _, -, rfl⟩ := h
  exact ⟨rfl, rfl⟩

theorem genesis_raw {value : Json} (h : genesis value = .ok config) : config.raw = value := by
  unfold genesis at h
  split at h
  · exact (genesisOf_raw h).1
  · exact (genesisOf_raw h).1

/-- A configuration that a manifest was accepted as. -/
def Config.Accepted (config : Config) : Prop := genesis config.raw = .ok config

theorem Config.accepted_of_genesis {value : Json} (h : genesis value = .ok config) :
    config.Accepted := by
  unfold Config.Accepted
  rw [genesis_raw h, h]

theorem Config.Accepted.eq_of_network {C : Codec} (hinj : Function.Injective C.sha256)
    {a b : Config} (ha : a.Accepted) (hb : b.Accepted) (h : network C a = network C b) : a = b := by
  have hraw : a.raw = b.raw := hinj h
  unfold Config.Accepted at ha hb
  rw [hraw, hb] at ha
  exact (Except.ok.inj ha).symm

/-! ### Histories -/

variable {C : Codec}

/-- What a verified certificate is, for the chain it extends. -/
structure Certified (C : Codec) (chain : Chain) (certificate proposal : Json)
    (next : RulesState) : Prop where
  carries : certificate.get? "proposal" = some proposal
  checked : checkProposal C chain proposal = .ok next
  approved : ∃ votes signers, certificate.get? "votes" = some (.arr votes) ∧
    votes.foldlM (checkVote C chain.config (approval chain.config.version chain.network
      (chain.height + 1) (C.sha256 proposal))) [] = .ok signers ∧
    quorum chain.config ≤ signers.length

variable {chain : Chain}

variable {certificate : Json}

/-- A certificate that is verified names its proposal. -/
theorem verify_ok {next : RulesState} (h : verify C chain certificate = .ok next) :
    ∃ proposal, Certified C chain certificate proposal next := by
  simp only [verify, bind_ok, require_ok, need_ok, demand_ok, pure_ok] at h
  obtain ⟨-, -, proposal, hproposal, next', hchecked, votes, hvotes, -, -, signers, hsigners, -,
    hquorum, rfl⟩ := h
  refine ⟨proposal, hproposal, hchecked, votes, signers, ?_, hsigners, hquorum⟩
  obtain ⟨v, hv, harr⟩ := Option.bind_eq_some_iff.mp hvotes
  cases v <;> simp_all [Json.asArr?]

/-- What an accepted proposal says, for the chain it extends. -/
structure Proposed (C : Codec) (chain : Chain) (proposal : Json) (next : RulesState)
    (command : Json) (timestamp : Int) : Prop where
  isObj : proposal.isObj = true
  height : proposal.get? "height" = some (.int (chain.height + 1))
  parent : proposal.get? "parent" = some (.str chain.head)
  timestamp_eq : proposal.get? "timestamp" = some (.int timestamp)
  command_eq : proposal.get? "command" = some command
  nonneg : 0 ≤ timestamp
  applied : chain.state.apply C command chain.config timestamp = .ok next

variable {proposal : Json}

theorem checkProposal_ok {next : RulesState} (h : checkProposal C chain proposal = .ok next) :
    ∃ command timestamp, Proposed C chain proposal next command timestamp := by
  simp only [checkProposal, bind_ok, require_ok, need_ok, demand_ok] at h
  obtain ⟨-, hkeys, -, -, -, hheight, -, hparent, _, -, _, -, -, -, timestamp, htime, -, hnonneg,
    command, hcommand, happlied⟩ := h
  refine ⟨command, timestamp, hkeys.1, hheight, hparent, ?_, hcommand, hnonneg, happlied⟩
  obtain ⟨v, hv, hint⟩ := Option.bind_eq_some_iff.mp htime
  cases v <;> simp_all [Json.asInt?]

variable {row : Nat × Block}

theorem replayBlock_ok {next : Chain} :
    replayBlock C chain row = .ok next ↔ ∃ state proposal,
      verify C chain row.2.certificate = .ok state ∧
      row.2.certificate.get? "proposal" = some proposal ∧
      row.1 = chain.height + 1 ∧ row.2.hash = C.sha256 proposal ∧
      next = { chain with state, height := row.1, head := row.2.hash } := by
  simp only [replayBlock, bind_ok, need_ok, require_ok, pure_ok]
  constructor
  · rintro ⟨state, hverify, proposal, hproposal, -, ⟨hheight, hhash⟩, rfl⟩
    exact ⟨state, proposal, hverify, hproposal, hheight, hhash, rfl⟩
  · rintro ⟨state, proposal, hverify, hproposal, hheight, hhash, rfl⟩
    exact ⟨state, hverify, proposal, hproposal, (), ⟨hheight, hhash⟩, rfl⟩

/-- **The chain that stored blocks replay to.** -/
inductive History (C : Codec) (config : Config) : List (Nat × Block) → Chain → Prop
  | start : History C config [] (.start C config)
  | block {rows : List (Nat × Block)} {chain next : Chain} {row : Nat × Block}
      (before : History C config rows chain) (replayed : replayBlock C chain row = .ok next) :
      History C config (rows ++ [row]) next

variable {rows : List (Nat × Block)}

namespace History

variable {config : Config} {rows : List (Nat × Block)} {chain : Chain}

theorem foldlM (h : History C config rows chain) :
    rows.foldlM (replayBlock C) (.start C config) = .ok chain := by
  induction h with
  | start => rfl
  | block before replayed ih => simp [List.foldlM_append, ih, replayed]

theorem config_eq (h : History C config rows chain) :
    chain.config = config ∧ chain.network = network C config := by
  induction h with
  | start => exact ⟨rfl, rfl⟩
  | block before replayed ih =>
    obtain ⟨_, _, -, -, -, -, rfl⟩ := replayBlock_ok.mp replayed
    exact ih

/-- The stored heights are exactly `1..height`. -/
theorem heights (h : History C config rows chain) :
    rows.map Prod.fst = List.range' 1 chain.height := by
  induction h with
  | start => rfl
  | block before replayed ih =>
    obtain ⟨_, _, -, -, hheight, -, rfl⟩ := replayBlock_ok.mp replayed
    simp only [List.map_append, ih, List.map_cons, List.map_nil, hheight,
      List.range'_1_concat]
    rw [Nat.add_comm 1]

theorem length_eq (h : History C config rows chain) : rows.length = chain.height := by
  simpa using congrArg List.length h.heights

theorem sorted (h : History C config rows chain) :
    rows.insertionSort (fun a b => a.1 ≤ b.1) = rows := by
  refine List.Pairwise.insertionSort_eq ?_
  have hsorted : (rows.map Prod.fst).Pairwise (· ≤ ·) := by
    rw [h.heights]
    exact (List.pairwise_lt_range' (s := 1)).imp fun hlt => le_of_lt hlt
  exact List.pairwise_map.mp hsorted

theorem of_foldlM (h : rows.foldlM (replayBlock C) (.start C config) = .ok chain) :
    History C config rows chain := by
  induction rows using List.reverseRecOn generalizing chain with
  | nil =>
    obtain rfl : Chain.start C config = chain := by simpa using h
    exact .start
  | append_singleton rows row ih =>
    rw [List.foldlM_append, bind_ok] at h
    obtain ⟨before, hbefore, hrow⟩ := h
    exact .block (ih hbefore) (by simpa using hrow)

theorem split {before after : List (Nat × Block)}
    (h : History C config (before ++ row :: after) chain) :
    ∃ prior next, History C config before prior ∧ replayBlock C prior row = .ok next ∧
      History C config (before ++ [row]) next := by
  have hfold := h.foldlM
  rw [List.foldlM_append, bind_ok] at hfold
  obtain ⟨prior, hprior, hrest⟩ := hfold
  rw [List.foldlM_cons, bind_ok] at hrest
  obtain ⟨next, hnext, -⟩ := hrest
  exact ⟨prior, next, of_foldlM hprior, hnext, .block (of_foldlM hprior) hnext⟩

end History

/-! ### What a history is -/

/-- The hash of the last row, or the network before the first. -/
def lastHash (network : String) (rows : List (Nat × Block)) : String :=
  (rows.map (·.2.hash)).getLastD network

/-- Apply the command of a certificate, trusting it. -/
def applyCertificate (C : Codec) (config : Config) (state : RulesState) (certificate : Json) :
    Except Failure RulesState := do
  let proposal ← need (certificate.get? "proposal")
  let command ← need (proposal.get? "command")
  let timestamp ← need ((proposal.get? "timestamp").bind Json.asInt?)
  state.apply C command config timestamp

/-- A stored row, after the rows before it. -/
structure Linked (C : Codec) (config : Config) (before : List (Nat × Block))
    (row : Nat × Block) : Prop where
  height : row.1 = before.length + 1
  carries : ∃ proposal, row.2.certificate.get? "proposal" = some proposal ∧
    proposal.isObj = true ∧ proposal.get? "height" = some (.int row.1) ∧
    row.2.hash = C.sha256 proposal ∧
    proposal.get? "parent" = some (.str (lastHash (network C config) before))

/-- **The chain is what the stored certificates fold to.** -/
structure Folded (C : Codec) (rows : List (Nat × Block)) (chain : Chain) : Prop where
  heights : rows.map Prod.fst = List.range' 1 chain.height
  state : (rows.map (·.2.certificate)).foldlM (applyCertificate C chain.config)
    (.initial chain.config) = .ok chain.state
  head : chain.head = lastHash (network C chain.config) rows
  linked : ∀ before row after, rows = before ++ row :: after →
    Linked C chain.config before row

namespace History

variable {config : Config} {rows : List (Nat × Block)} {chain : Chain}

theorem head_eq (h : History C config rows chain) :
    chain.head = lastHash (network C config) rows := by
  cases h with
  | start => rfl
  | block before replayed =>
    obtain ⟨_, _, -, -, -, -, rfl⟩ := replayBlock_ok.mp replayed
    simp [lastHash]

theorem state_eq (h : History C config rows chain) :
    (rows.map (·.2.certificate)).foldlM (applyCertificate C config) (.initial config) =
      .ok chain.state := by
  induction h with
  | start => rfl
  | block before replayed ih =>
    obtain ⟨state, _, hverify, -, -, -, rfl⟩ := replayBlock_ok.mp replayed
    obtain ⟨proposal, hcertified⟩ := verify_ok hverify
    obtain ⟨command, timestamp, hproposed⟩ := checkProposal_ok hcertified.checked
    rw [List.map_append, List.foldlM_append, ih]
    have happlied := hproposed.applied
    rw [before.config_eq.1] at happlied
    simp [applyCertificate, hcertified.carries, hproposed.command_eq, hproposed.timestamp_eq,
      Json.asInt?, need, happlied]

theorem linked {before after : List (Nat × Block)}
    (h : History C config (before ++ row :: after) chain) : Linked C config before row := by
  obtain ⟨prior, next, hbefore, hrow, -⟩ := h.split
  obtain ⟨state, proposal, hverify, hproposal, hheight, hhash, -⟩ := replayBlock_ok.mp hrow
  obtain ⟨proposal', hcertified⟩ := verify_ok hverify
  obtain rfl : proposal' = proposal := Option.mem_unique hcertified.carries hproposal
  obtain ⟨command, timestamp, hproposed⟩ := checkProposal_ok hcertified.checked
  refine ⟨by rw [hheight, hbefore.length_eq], proposal', hproposal, hproposed.isObj, ?_, hhash, ?_⟩
  · rw [hproposed.height, hheight]
    norm_num
  · rw [hproposed.parent, hbefore.head_eq]

theorem folded (h : History C config rows chain) : Folded C rows chain where
  heights := h.heights
  state := by rw [h.config_eq.1]; exact h.state_eq
  head := by rw [h.config_eq.1]; exact h.head_eq
  linked := by
    rintro before row after rfl
    rw [h.config_eq.1]
    exact h.linked

end History

/-! ### Histories are runs of the rules -/

/-- What a block did to a state of the current rules. -/
structure BlockApplied (C : Codec) (chain : Chain) (row : Nat × Block) (state' : State Order)
    (state : State Order) (proposal wire : Json) (timestamp : Int) : Prop where
  current : chain.state = .current state
  carries : row.2.certificate.get? "proposal" = some proposal
  command : proposal.get? "command" = some wire
  certified : proposal.get? "timestamp" = some (.int timestamp)
  applied : apply C state wire chain.config timestamp = .ok state'

theorem replayBlock_current {next : Chain} {state' : State Order}
    (h : replayBlock C chain row = .ok next) (hstate : next.state = .current state') :
    ∃ state proposal wire timestamp,
      BlockApplied C chain row state' state proposal wire timestamp := by
  obtain ⟨rules, proposal, hverify, hcarries, -, -, rfl⟩ := replayBlock_ok.mp h
  obtain ⟨p, hcertified⟩ := verify_ok hverify
  obtain rfl := Option.mem_unique hcarries hcertified.carries
  obtain ⟨wire, timestamp, hproposed⟩ := checkProposal_ok hcertified.checked
  obtain rfl : rules = .current state' := hstate
  have happlied := hproposed.applied
  cases hprior : chain.state with
  | legacy prior => simp [RulesState.apply, hprior] at happlied
  | current prior =>
    simp only [hprior, RulesState.apply, map_ok, RulesState.current.injEq,
      exists_eq_right] at happlied
    exact ⟨prior, proposal, wire, timestamp, hprior, hcarries, hproposed.command_eq,
      hproposed.timestamp_eq, happlied⟩

/-- The state of a history is reachable. -/
theorem History.reachable (h : History C config rows chain) {state : State Order}
    (hstate : chain.state = .current state) : Reachable C config state := by
  induction h generalizing state with
  | start =>
    unfold Chain.start RulesState.initial at hstate
    split at hstate
    · obtain rfl := RulesState.current.inj hstate
      exact Later.refl _
    · cases hstate
  | block before replayed ih =>
    obtain ⟨prior, _, _, _, hblock⟩ := replayBlock_current replayed hstate
    have happlied := hblock.applied
    rw [before.config_eq.1] at happlied
    exact (ih hblock.current).later (Later.of_apply happlied)

variable {chain' : Chain}

theorem History.later {more : List (Nat × Block)} {state state' : State Order}
    (h : History C config rows chain) (h' : History C config (rows ++ more) chain')
    (hstate : chain.state = .current state) (hstate' : chain'.state = .current state') :
    Later C config state state' := by
  induction more using List.reverseRecOn generalizing chain' state' with
  | nil =>
    have hfold := h'.foldlM
    rw [List.append_nil, h.foldlM] at hfold
    obtain rfl := Except.ok.inj hfold
    obtain rfl := RulesState.current.inj (hstate.symm.trans hstate')
    exact Later.refl _
  | append_singleton more row ih =>
    rw [← List.append_assoc] at h'
    obtain ⟨prior, next, hprior, hrow, hnext⟩ := h'.split
    obtain rfl : next = chain' := Except.ok.inj (hnext.foldlM.symm.trans h'.foldlM)
    obtain ⟨before, _, _, _, hblock⟩ := replayBlock_current hrow hstate'
    have happlied := hblock.applied
    rw [hprior.config_eq.1] at happlied
    exact (ih hprior hblock.current).trans (Later.of_apply happlied)

/-! ### Consistency of a ledger -/

/-- The chain in memory is the history of the tables. -/
structure Follows (C : Codec) (db : Database) (chain : Chain) : Prop where
  manifest : db.manifest = some chain.config.raw
  accepted : chain.config.Accepted
  history : History C chain.config db.blocks.entries chain
  small : chain.height < 2 ^ 63

/-- A ledger's memory and tables belong together. -/
def Consistent (C : Codec) (ledger : Ledger) : Prop :=
  match ledger.chain with
  | none => ledger.db.manifest = none ∧ ledger.db.blocks.entries = []
  | some chain => Follows C ledger.db chain

variable {ledger : Ledger}

/-- **A consistent ledger is what its tables reopen to.** -/
theorem openLedger_consistent (h : Consistent C ledger) : openLedger C ledger.db = .ok ledger := by
  obtain ⟨db, chain⟩ := ledger
  cases chain with
  | none =>
    obtain ⟨hmanifest, -⟩ := h
    simp only [] at hmanifest
    simp [openLedger, hmanifest, pure, Except.pure]
  | some chain =>
    obtain ⟨hmanifest, haccepted, hhistory, -⟩ := h
    simp only [] at hmanifest hhistory
    have hgenesis : genesis chain.config.raw = .ok chain.config := haccepted
    have hordered : db.ordered = db.blocks.entries := hhistory.sorted
    simp [openLedger, hmanifest, hgenesis, hordered, hhistory.foldlM, pure, Except.pure]

theorem Consistent.follows (h : Consistent C ledger) (hchain : ledger.chain = some chain) :
    Follows C ledger.db chain := by
  unfold Consistent at h
  rwa [hchain] at h

theorem Consistent.empty (h : Consistent C ledger) (hchain : ledger.chain = none) :
    ledger.db.manifest = none ∧ ledger.db.blocks.entries = [] := by
  unfold Consistent at h
  rwa [hchain] at h

variable {db : Database}

theorem Follows.congr {db' : Database} (h : Follows C db chain)
    (hmanifest : db'.manifest = db.manifest) (hblocks : db'.blocks = db.blocks) :
    Follows C db' chain :=
  ⟨hmanifest.trans h.manifest, h.accepted, hblocks ▸ h.history, h.small⟩

theorem Follows.config_unique {db' : Database} (h : Follows C db chain) (h' : Follows C db' chain')
    (hmanifest : db'.manifest = db.manifest) : chain'.config = chain.config := by
  have hraw : chain'.config.raw = chain.config.raw := by
    have := h'.manifest.symm.trans (hmanifest.trans h.manifest)
    simpa using this
  have ha : genesis chain.config.raw = .ok chain.config := h.accepted
  have ha' : genesis chain'.config.raw = .ok chain'.config := h'.accepted
  rw [hraw, ha] at ha'
  exact (Except.ok.inj ha').symm

/-- Tables determine the ledger. -/
theorem Follows.unique (h : Follows C db chain) (h' : Follows C db chain') : chain = chain' := by
  have hfold := h.history.foldlM
  have hfold' := h'.history.foldlM
  rw [h.config_unique h' rfl, hfold] at hfold'
  exact Except.ok.inj hfold'

theorem Follows.stored_iff (h : Follows C db chain) {height : Nat} :
    height ∈ db.blocks.keys ↔ 1 ≤ height ∧ height ≤ chain.height := by
  show height ∈ db.blocks.entries.map Prod.fst ↔ _
  rw [h.history.heights, List.mem_range'_1]
  omega

theorem Follows.stored (h : Follows C db chain) {height : Nat} {block : Block}
    (hget : db.blocks.get? height = some block) :
    ∃ before after, db.blocks.entries = before ++ (height, block) :: after ∧
      Linked C chain.config before (height, block) := by
  obtain ⟨before, after, hsplit⟩ := List.append_of_mem (Dict.get?_eq_some_iff.mp hget)
  exact ⟨before, after, hsplit, (hsplit ▸ h.history : History _ _ (before ++ _ :: after) _).linked⟩

/-! ### Operations keep a ledger consistent -/

/-- What a staged commit appends. -/
structure Staged (C : Codec) (ledger : Ledger) (certificate : Json) (db : Database)
    (chain : Chain) (proposal : Json) (before : Chain) : Prop where
  running : ledger.chain = some before
  small : before.height + 1 < 2 ^ 63
  certified : Certified C before certificate proposal chain.state
  published : chain = { before with
    state := chain.state, height := before.height + 1, head := C.sha256 proposal }
  stored : db.blocks = ledger.db.blocks.set (before.height + 1)
    { hash := C.sha256 proposal, certificate }
  others : db.manifest = ledger.db.manifest ∧ db.actingFor = ledger.db.actingFor ∧
    db.votes = ledger.db.votes ∧ db.proposals = ledger.db.proposals
  intents : ∃ operation, proposalOperation proposal = some operation ∧
    db.intents = setStatus .committed ledger.db.intents operation

theorem stageCommit_ok (h : stageCommit C ledger certificate = .ok (some (db, chain))) :
    ∃ proposal before, Staged C ledger certificate db chain proposal before ∧
      verify C before certificate = .ok chain.state := by
  simp only [stageCommit, ready, bind_ok, demand_ok, require_ok] at h
  obtain ⟨before, hrunning, proposal, hproposal, -, -, found, hfound, h⟩ := h
  cases found with
  | some prior =>
    simp only [bind_ok, pure_ok] at h
    obtain ⟨-, -, h⟩ := h
    cases h
  | none =>
    simp only [bind_ok, need_ok, pure_ok, Option.some.injEq, Prod.mk.injEq] at h
    obtain ⟨state, hverify, -, -, operation, hoperation, rfl, rfl⟩ := h
    obtain ⟨proposal', hcertified⟩ := verify_ok hverify
    obtain rfl : proposal' = proposal :=
      Option.mem_unique hcertified.carries hproposal
    obtain ⟨command, timestamp, hproposed⟩ := checkProposal_ok hcertified.checked
    have hsmall : before.height + 1 < 2 ^ 63 := by
      rw [hproposed.height] at hfound
      simp only [storedAt] at hfound
      split at hfound
      · cases hfound
      · omega
    exact ⟨proposal', before, ⟨hrunning, hsmall, hcertified, rfl, rfl, ⟨rfl, rfl, rfl, rfl⟩,
      operation, hoperation, rfl⟩, hverify⟩

/-- A staged block extends the history. -/
theorem Follows.stage (hconsistent : Consistent C ledger)
    (h : stageCommit C ledger certificate = .ok (some (db, chain))) : Follows C db chain := by
  obtain ⟨proposal, before, hstaged, hverify⟩ := stageCommit_ok h
  have hfollows : Follows C ledger.db before := by
    unfold Consistent at hconsistent
    rwa [hstaged.running] at hconsistent
  have hnew : before.height + 1 ∉ ledger.db.blocks.keys := by
    rw [hfollows.stored_iff]
    omega
  have hpublished := hstaged.published
  have hconfig : chain.config = before.config := by rw [hpublished]
  refine ⟨?_, hconfig ▸ hfollows.accepted, ?_, by rw [hpublished]; exact hstaged.small⟩
  · rw [hstaged.others.1, hfollows.manifest, hconfig]
  · rw [hconfig, hstaged.stored, Dict.entries_set_of_new _ hnew]
    refine .block hfollows.history (replayBlock_ok.mpr ⟨_, proposal, hverify,
      hstaged.certified.carries, rfl, rfl, hpublished⟩)

/-- A commit keeps the tables and the chain alike. -/
theorem Consistent.commit {ledger' : Ledger} (hconsistent : Consistent C ledger)
    (h : commit C ledger certificate = .ok ledger') : Consistent C ledger' := by
  simp only [Exchange.commit, bind_ok] at h
  obtain ⟨staged, hstaged, h⟩ := h
  cases staged with
  | none => exact pure_ok.mp h ▸ hconsistent
  | some next =>
    obtain rfl := pure_ok.mp h
    exact Follows.stage hconsistent hstaged

theorem Consistent.configure (hinj : Function.Injective C.sha256) {ledger' : Ledger}
    {manifest : Json} (hconsistent : Consistent C ledger)
    (h : configure C ledger manifest = .ok ledger') : Consistent C ledger' := by
  obtain ⟨db, chain⟩ := ledger
  simp only [Exchange.configure, bind_ok, require_ok] at h
  obtain ⟨config, hconfig, -, -, h⟩ := h
  have haccepted := Config.accepted_of_genesis hconfig
  cases chain with
  | none =>
    obtain ⟨-, hempty⟩ := hconsistent
    obtain rfl := pure_ok.mp h
    refine ⟨rfl, haccepted, ?_, by norm_num [Chain.start]⟩
    rw [hempty]
    exact .start
  | some chain =>
    simp only [bind_ok, require_ok, pure_ok] at h
    obtain ⟨-, hnetwork, rfl⟩ := h
    obtain ⟨hmanifest, haccepted', hhistory, hsmall⟩ := hconsistent
    rw [hhistory.config_eq.2] at hnetwork
    have hsame := haccepted'.eq_of_network hinj haccepted hnetwork
    obtain ⟨config', network', state, height, head⟩ := chain
    obtain rfl : config' = config := hsame
    obtain rfl : network' = network C config' := hhistory.config_eq.2
    exact ⟨rfl, haccepted, hhistory, hsmall⟩

theorem Consistent.congr (h : Consistent C ledger) (hmanifest : db.manifest = ledger.db.manifest)
    (hblocks : db.blocks = ledger.db.blocks) : Consistent C { ledger with db } := by
  obtain ⟨db', chain⟩ := ledger
  cases chain with
  | none => exact ⟨hmanifest.trans h.1, hblocks ▸ h.2⟩
  | some chain => exact ⟨hmanifest.trans h.manifest, h.accepted, hblocks ▸ h.history, h.small⟩

theorem vote_tables {key : String} {now size : Int} {wire : Json}
    (h : vote C key now size ledger proposal = .ok (db, wire)) :
    db.manifest = ledger.db.manifest ∧ db.blocks = ledger.db.blocks := by
  simp only [vote, bind_ok] at h
  obtain ⟨chain, -, -, -, _, -, h⟩ := h
  cases hprior : ledger.db.votes.get? (chain.height + 1) with
  | some prior | none =>
    simp only [hprior, bind_ok, pure_ok, Prod.mk.injEq] at h
    obtain ⟨-, -, rfl, -⟩ := h
    exact ⟨rfl, rfl⟩

theorem leaderPropose_tables {key : String} {now size : Int} {command wire : Json}
    (h : leaderPropose C key now size ledger command = .ok (db, wire)) :
    db.manifest = ledger.db.manifest ∧ db.blocks = ledger.db.blocks ∧
      db.votes = ledger.db.votes := by
  simp only [leaderPropose, bind_ok] at h
  obtain ⟨chain, -, -, -, h⟩ := h
  cases hprior : ledger.db.proposals.get? (chain.height + 1) with
  | some prior =>
    simp only [hprior, pure_ok, Prod.mk.injEq] at h
    obtain ⟨rfl, -⟩ := h
    exact ⟨rfl, rfl, rfl⟩
  | none =>
    simp only [hprior, bind_ok, pure_ok, Prod.mk.injEq] at h
    obtain ⟨_, -, _, -, _, -, _, -, -, -, rfl, -⟩ := h
    exact ⟨rfl, rfl, rfl⟩

/-! ### Committing what is stored -/

theorem storedAt_int (db : Database) {height : Nat} (h : height < 2 ^ 63) :
    storedAt C db (some (.int height)) = .ok (db.blocks.get? height) := by
  simp [storedAt, pure, Except.pure]
  omega

section Known

variable {ledger : Ledger} {chain : Chain} {height : Nat} {block : Block} {certificate : Json}

theorem Follows.height_small (h : Follows C db chain) (hget : db.blocks.get? height = some block) :
    height < 2 ^ 63 := by
  have hle := (h.stored_iff.mp (Dict.mem_keys_of_get? hget)).2
  have := h.small
  omega

/-- Committing a stored proposal again, under any votes, changes nothing. -/
theorem commit_known (hrunning : ledger.chain = some chain) (h : Follows C ledger.db chain)
    (hget : ledger.db.blocks.get? height = some block)
    (hsame : certificate.get? "proposal" = block.certificate.get? "proposal") :
    commit C ledger certificate = .ok ledger := by
  obtain ⟨before, after, -, hlinked⟩ := h.stored hget
  obtain ⟨proposal, hcarries, hobj, hheight, hhash, -⟩ := hlinked.carries
  have hstored := storedAt_int (C := C) ledger.db (h.height_small hget)
  have hstage : stageCommit C ledger certificate = .ok none := by
    simp only [stageCommit, ready, bind_ok, demand_ok, require_ok]
    refine ⟨chain, hrunning, proposal, hsame.trans hcarries, (), hobj, some block, ?_, ?_⟩
    · rw [hheight, hstored, hget]
    · simp only [bind_ok, require_ok, pure_ok, and_true]
      exact ⟨(), hhash⟩
  simp [commit, hstage, pure, Except.pure]

theorem commit_conflict (hinj : Function.Injective C.sha256) (h : Follows C ledger.db chain)
    (hget : ledger.db.blocks.get? height = some block)
    (hproposal : certificate.get? "proposal" = some proposal)
    (hheight : proposal.get? "height" = some (.int height))
    (hother : block.certificate.get? "proposal" ≠ some proposal) :
    ∃ e, commit C ledger certificate = .error e := by
  obtain ⟨before, after, -, hlinked⟩ := h.stored hget
  obtain ⟨stored, hcarries, -, -, hhash, -⟩ := hlinked.carries
  have hstored := storedAt_int (C := C) ledger.db (h.height_small hget)
  cases hcommit : commit C ledger certificate with
  | error e => exact ⟨e, rfl⟩
  | ok ledger' =>
    simp only [commit, stageCommit, ready, bind_ok, demand_ok, require_ok] at hcommit
    obtain ⟨_, ⟨_, -, proposal', hproposal', -, -, found, hfound, h⟩, -⟩ := hcommit
    obtain rfl : proposal' = proposal := Option.mem_unique hproposal' hproposal
    rw [hheight, hstored, hget] at hfound
    obtain rfl : some block = found := Except.ok.inj hfound
    simp only [bind_ok, require_ok] at h
    obtain ⟨-, hdigest, -⟩ := h
    refine absurd ?_ hother
    rw [hcarries, hinj (hhash.symm.trans hdigest)]

end Known

end Exchange
