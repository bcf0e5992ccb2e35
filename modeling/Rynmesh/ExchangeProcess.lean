import Rynmesh.ExchangeReplay

/-!
# The process that owns a ledger

A process runs or is stopped; a crash loses its memory, within a call too, and
keeps what the last finished transaction left in the tables.

* `ProcessStep` is one call of `ledger.py`, finished or interrupted;
* `ProcessStep.recovers` says that every step leaves tables that open to a
  consistent ledger, so `reopening_reproduces` the uninterrupted one;
* `ProcessStep.effect` says what a step does to the tables.
-/

namespace Exchange

open Checked

variable {C : Codec}

/-! ### Runs of one ledger -/

/-- The process that owns a ledger's tables: running, or stopped. -/
inductive Process
  | running (ledger : Ledger)
  | stopped (db : Database)

def Process.db : Process → Database
  | running ledger => ledger.db
  | stopped db => db

/-- What a step of a ledger shows to the outside: a message it handled, a
first vote, another signature of its key, or nothing. -/
inductive Label
  | silent
  | deliver (message : Json)
  | cast (chain : Chain) (proposal : Json) (now : Int)
  | sign (payload : Json)

/-- A first vote: who cast it, on top of which chain, for which proposal, and
at what local time. -/
structure Cast where
  voter : String
  chain : Chain
  proposal : Json
  now : Int

/-- The payload a first vote signs. -/
def Cast.approval (C : Codec) (cast : Cast) : Json :=
  Exchange.approval VERSION cast.chain.network (cast.chain.height + 1) (C.sha256 cast.proposal)

/-- The first votes a step of a key casts. -/
def Label.casts (key : String) : Label → List Cast
  | .cast chain proposal now => [{ voter := key, chain, proposal, now }]
  | _ => []

/-- The payloads a step of a key signs. -/
def Label.signs (C : Codec) (key : String) : Label → List (String × Json)
  | .cast chain proposal now =>
      [(key, Cast.approval C { voter := key, chain, proposal, now })]
  | .sign payload => [(key, payload)]
  | _ => []

/-- What a delivery does and every other step does, a step does. -/
theorem Label.delivered_or {label : Label} {P : Prop}
    (hdeliver : ∀ message, label = .deliver message → P)
    (hother : (∀ message, label ≠ .deliver message) → P) : P := by
  by_cases h : ∃ message, label = .deliver message
  · obtain ⟨message, hmessage⟩ := h
    exact hdeliver message hmessage
  · exact hother fun message hmessage => h ⟨message, hmessage⟩

/-- What can happen to the ledger of a key.  A crash loses the memory and keeps
what the last finished transaction left in the tables, within a call too. -/
inductive ProcessStep (C : Codec) (key : String) : Process → Label → Process → Prop
  | configure {ledger ledger' : Ledger} {manifest : Json}
      (done : configure C ledger manifest = .ok ledger') :
      ProcessStep C key (.running ledger) .silent (.running ledger')
  | configureCrash {ledger ledger' : Ledger} {manifest : Json}
      (done : configure C ledger manifest = .ok ledger') :
      ProcessStep C key (.running ledger) .silent (.stopped ledger'.db)
  | commit {ledger ledger' : Ledger} {certificate : Json}
      (done : commit C ledger certificate = .ok ledger') :
      ProcessStep C key (.running ledger) (.deliver certificate) (.running ledger')
  | commitCrash {ledger : Ledger} {certificate : Json} {db : Database} {chain : Chain}
      (done : stageCommit C ledger certificate = .ok (some (db, chain))) :
      ProcessStep C key (.running ledger) (.deliver certificate) (.stopped db)
  | vote {ledger : Ledger} {chain : Chain} {proposal wire : Json} {now size : Int} {db : Database}
      (running : ledger.chain = some chain)
      (first : ledger.db.votes.get? (chain.height + 1) = none)
      (done : vote C key now size ledger proposal = .ok (db, wire)) :
      ProcessStep C key (.running ledger) (.cast chain proposal now) (.running { ledger with db })
  | voteCrash {ledger : Ledger} {chain : Chain} {proposal wire : Json} {now size : Int}
      {db : Database} (running : ledger.chain = some chain)
      (first : ledger.db.votes.get? (chain.height + 1) = none)
      (done : vote C key now size ledger proposal = .ok (db, wire)) :
      ProcessStep C key (.running ledger) (.cast chain proposal now) (.stopped db)
  | propose {ledger : Ledger} {chain : Chain} {command wire : Json} {now size timestamp : Int}
      {db : Database} (running : ledger.chain = some chain)
      (done : leaderPropose C key now size ledger command = .ok (db, wire)) :
      ProcessStep C key (.running ledger) (.sign (proposalCore chain timestamp command))
        (.running { ledger with db })
  | sign {ledger : Ledger} {payload : Json}
      (other : ∀ version network height hash,
        payload.pyEq (approval version network height hash) = false) :
      ProcessStep C key (.running ledger) (.sign payload) (.running ledger)
  | write {ledger : Ledger} {intents : Dict String Intent} {actingFor : Option String} :
      ProcessStep C key (.running ledger) .silent
        (.running { ledger with db := { ledger.db with intents, actingFor } })
  | crash {ledger : Ledger} : ProcessStep C key (.running ledger) .silent (.stopped ledger.db)
  | reopen {db : Database} {ledger : Ledger} (done : openLedger C db = .ok ledger) :
      ProcessStep C key (.stopped db) .silent (.running ledger)

/-- Tables without blocks: a new file, or one with an accepted manifest of
either version. -/
structure Database.Fresh (db : Database) : Prop where
  blocks : db.blocks.entries = []
  manifest : db.manifest = none ∨ ∃ config : Config, db.manifest = some config.raw ∧
    config.Accepted

/-- A process that some run from fresh tables leads to. -/
inductive ProcessRun (C : Codec) : Process → Prop
  | start {db : Database} (fresh : db.Fresh) : ProcessRun C (.stopped db)
  | step {key : String} {p q : Process} {label : Label} (before : ProcessRun C p)
      (next : ProcessStep C key p label q) : ProcessRun C q

/-- The tables of a process open to a consistent ledger, the running one when
it runs. -/
def Process.Recovers (C : Codec) (p : Process) : Prop :=
  ∃ ledger, ledger.db = p.db ∧ Consistent C ledger ∧
    ∀ running, p = .running running → ledger = running

variable {ledger : Ledger}

theorem Process.Recovers.running (h : (Process.running ledger).Recovers C) :
    Consistent C ledger := by
  obtain ⟨ledger', -, hconsistent, hrunning⟩ := h
  exact hrunning ledger rfl ▸ hconsistent

/-- The chain of a ledger: the one in memory, or the one its tables reopen
to. -/
def Process.chain? (C : Codec) : Process → Option Chain
  | .running ledger => ledger.chain
  | .stopped db =>
      match openLedger C db with
      | .ok ledger => ledger.chain
      | .error _ => none

variable {p : Process}

theorem Process.Recovers.follows {chain : Chain} (h : p.Recovers C)
    (hchain : p.chain? C = some chain) : Follows C p.db chain := by
  cases p with
  | running ledger => exact h.running.follows hchain
  | stopped db =>
    obtain ⟨ledger, hdb, hconsistent, -⟩ := h
    obtain rfl : ledger.db = db := hdb
    simp only [Process.chain?, openLedger_consistent hconsistent] at hchain
    exact hconsistent.follows hchain

theorem Process.Recovers.chain_of_manifest (h : p.Recovers C) (hset : p.db.manifest ≠ none) :
    ∃ chain, p.chain? C = some chain := by
  obtain ⟨ledger, hdb, hconsistent, hrunning⟩ := h
  obtain ⟨chain, hchain⟩ : ∃ chain, ledger.chain = some chain := by
    cases hchain : ledger.chain with
    | none => exact absurd (hdb ▸ (hconsistent.empty hchain).1) hset
    | some chain => exact ⟨chain, rfl⟩
  refine ⟨chain, ?_⟩
  cases p with
  | running running =>
    obtain rfl := hrunning running rfl
    exact hchain
  | stopped db =>
    obtain rfl : ledger.db = db := hdb
    simp only [Process.chain?, openLedger_consistent hconsistent, hchain]

theorem Consistent.recovers (h : Consistent C ledger) : (Process.running ledger).Recovers C :=
  ⟨ledger, rfl, h, fun _ heq => by cases heq; rfl⟩

theorem Consistent.recovers_stopped (h : Consistent C ledger) :
    (Process.stopped ledger.db).Recovers C :=
  ⟨ledger, rfl, h, fun _ heq => by cases heq⟩

theorem Database.Fresh.recovers {db : Database} (h : db.Fresh) :
    (Process.stopped db).Recovers C := by
  rcases h.manifest with hnone | ⟨config, hmanifest, haccepted⟩
  · have hconsistent : Consistent C ⟨db, none⟩ := ⟨hnone, h.blocks⟩
    exact hconsistent.recovers_stopped
  · have hhistory : History C config db.blocks.entries (.start C config) := by
      rw [h.blocks]
      exact .start
    have hconsistent : Consistent C ⟨db, some (.start C config)⟩ :=
      ⟨hmanifest, haccepted, hhistory, by norm_num [Chain.start]⟩
    exact hconsistent.recovers_stopped

/-- **Every step keeps a ledger recoverable.** -/
theorem ProcessStep.recovers (hinj : Function.Injective C.sha256) {key : String} {q : Process}
    {label : Label} (h : p.Recovers C) (hstep : ProcessStep C key p label q) : q.Recovers C := by
  cases hstep with
  | configure done => exact (h.running.configure hinj done).recovers
  | configureCrash done => exact (h.running.configure hinj done).recovers_stopped
  | commit done => exact (h.running.commit done).recovers
  | @commitCrash _ _ db chain done =>
    have hnext : Consistent C ⟨db, some chain⟩ := Follows.stage h.running done
    exact hnext.recovers_stopped
  | vote running first done =>
    obtain ⟨hmanifest, hblocks⟩ := vote_tables done
    exact (h.running.congr hmanifest hblocks).recovers
  | voteCrash running first done =>
    obtain ⟨hmanifest, hblocks⟩ := vote_tables done
    exact (h.running.congr hmanifest hblocks).recovers_stopped
  | propose running done =>
    obtain ⟨hmanifest, hblocks, -⟩ := leaderPropose_tables done
    exact (h.running.congr hmanifest hblocks).recovers
  | sign other => exact h
  | write =>
    refine Consistent.recovers ?_
    exact h.running.congr rfl rfl
  | crash => exact h.running.recovers_stopped
  | @reopen db ledger done =>
    obtain ⟨ledger', hdb, hconsistent, -⟩ := h
    obtain rfl : ledger'.db = db := hdb
    rw [openLedger_consistent hconsistent] at done
    exact Except.ok.inj done ▸ hconsistent.recovers

theorem ProcessRun.recovers (hinj : Function.Injective C.sha256) (h : ProcessRun C p) :
    p.Recovers C := by
  induction h with
  | start fresh => exact fresh.recovers
  | step before next ih => exact next.recovers hinj ih

/-! ### Reopening -/

/-- **Reopening a ledger reproduces it.**  After any run, interrupted anywhere:

* a new ledger over the tables opens, without a clock, and is the one that was
  running;
* its chain is what the stored certificates fold to, at heights `1..height`,
  each block naming the previous hash;
* a commit interrupted after its transaction reopens to what it would have
  published;
* committing a stored proposal again changes nothing, whatever its votes, and a
  different proposal for a stored height is refused. -/
theorem reopening_reproduces (C : Codec) (hinj : Function.Injective C.sha256) (p : Process)
    (h : ProcessRun C p) :
    ∃ ledger, openLedger C p.db = .ok ledger ∧ ledger.db = p.db ∧
      (∀ running, p = .running running → ledger = running) ∧
      (∀ chain, ledger.chain = some chain → Folded C p.db.blocks.entries chain) ∧
      (∀ certificate db chain, stageCommit C ledger certificate = .ok (some (db, chain)) →
        commit C ledger certificate = .ok ⟨db, some chain⟩ ∧
        openLedger C db = .ok ⟨db, some chain⟩) ∧
      (∀ height block, p.db.blocks.get? height = some block →
        ∀ certificate, certificate.get? "proposal" = block.certificate.get? "proposal" →
          commit C ledger certificate = .ok ledger) ∧
      (∀ height block, p.db.blocks.get? height = some block →
        ∀ certificate proposal, certificate.get? "proposal" = some proposal →
          proposal.get? "height" = some (.int height) →
          block.certificate.get? "proposal" ≠ some proposal →
          ∃ e, commit C ledger certificate = .error e) := by
  obtain ⟨ledger, hdb, hconsistent, hrunning⟩ := h.recovers hinj
  -- A ledger with a stored block has a chain that follows its tables.
  have hchain : ∀ height block, p.db.blocks.get? height = some block →
      ∃ chain, ledger.chain = some chain ∧ Follows C ledger.db chain := by
    intro height block hget
    unfold Consistent at hconsistent
    split at hconsistent
    · rw [← hdb, Dict.get?_eq_some_iff, hconsistent.2] at hget
      cases hget
    · next chain heq => exact ⟨chain, heq, hconsistent⟩
  refine ⟨ledger, hdb ▸ openLedger_consistent hconsistent, hdb, hrunning, ?_, ?_, ?_, ?_⟩
  · intro chain heq
    unfold Consistent at hconsistent
    rw [heq] at hconsistent
    rw [← hdb]
    exact hconsistent.history.folded
  · intro certificate db chain hstage
    have hnext : Consistent C ⟨db, some chain⟩ := Follows.stage hconsistent hstage
    exact ⟨by simp [commit, hstage, pure, Except.pure], openLedger_consistent hnext⟩
  · intro height block hget certificate hsame
    obtain ⟨chain, heq, hfollows⟩ := hchain height block hget
    exact commit_known heq hfollows (hdb ▸ hget) hsame
  · intro height block hget certificate proposal hproposal hheight hother
    obtain ⟨chain, heq, hfollows⟩ := hchain height block hget
    exact commit_conflict hinj hfollows (hdb ▸ hget) hproposal hheight hother

/-- A ledger configured with the sample network, before and after a commit. -/
def sampleLedgers : Except Failure (Ledger × Ledger) := do
  let configured ← configure .sample ⟨.new, none⟩ sampleManifest
  let committed ← commit .sample configured (sampleCertificate 'Q' ['A', 'E', 'I'])
  pure (configured, committed)

/-- A ledger configured with the sample network. -/
def sampleConfigured : Ledger :=
  ⟨{ Database.new with manifest := some sampleConfig.raw }, some (.start .sample sampleConfig)⟩

/-- What the examples evaluate.  One evaluation of the manifest serves all. -/
theorem sample_evaluates :
    sampleLedgers.toOption.any (fun ledgers =>
      (ledgers.2.db.blocks.get? 1).any fun block =>
        decide (block.certificate = sampleCertificate 'Q' ['A', 'E', 'I'])) = true ∧
    (commit .sample sampleConfigured (sampleCertificate 'U' ['A', 'E', 'I'])).toOption.isSome =
      true ∧
    (apply .sample (initialState sampleConfig) (sampleProfile .sample 'Q') sampleConfig
      1000).toOption.isSome = true ∧
    admitVote 1000 0 (.start .sample sampleConfig)
      (sampleProposal .sample (sampleProfile .sample 'Q')) = .ok () ∧
    sampleConfig.version = VERSION ∧
    sampleConfig.validatorKeys = ['A', 'E', 'I', 'M'].map sampleKey ∧
    ((sampleCertificate 'Q' ['A', 'E', 'I']).parts.all fun wire =>
      ['E', 'I', 'M', 'Y'].all fun voter =>
        wire.get? "public_key" ≠ some (.str (sampleKey voter)) ∨
        voter ∈ ['E', 'I'] ∧ wire.get? "payload" = some (approval VERSION
          (network .sample sampleConfig) 1
          (Codec.sample.sha256 (sampleProposal .sample (sampleProfile .sample 'Q'))))) = true ∧
    sampleProfile .sample 'U' ≠ sampleProfile .sample 'Q' := by
  decide +kernel

theorem sampleConfig_current : sampleConfig.version = VERSION := sample_evaluates.2.2.2.2.1

theorem sampleConfig_validatorKeys :
    sampleConfig.validatorKeys = ['A', 'E', 'I', 'M'].map sampleKey :=
  sample_evaluates.2.2.2.2.2.1

theorem configure_sample :
    configure .sample ⟨.new, none⟩ sampleManifest = .ok sampleConfigured := by
  simp only [configure, bind_ok, require_ok]
  exact ⟨sampleConfig, genesis_sampleManifest, (), sampleConfig_current, rfl⟩

theorem sampleLedgers_ok : ∃ committed block,
    commit .sample sampleConfigured (sampleCertificate 'Q' ['A', 'E', 'I']) = .ok committed ∧
    committed.db.blocks.get? 1 = some block ∧
    block.certificate = sampleCertificate 'Q' ['A', 'E', 'I'] := by
  obtain ⟨⟨_, _⟩, hledgers, hstored⟩ := toOption_any sample_evaluates.1
  obtain ⟨block, hget, hcertificate⟩ := (Option.any_eq_true _ _).mp hstored
  simp only [sampleLedgers, bind_ok, pure_ok, Prod.mk.injEq] at hledgers
  obtain ⟨_, hconfigure, committed, hcommit, rfl, rfl⟩ := hledgers
  obtain rfl := Except.ok.inj (configure_sample.symm.trans hconfigure)
  exact ⟨committed, block, hcommit, hget, of_decide_eq_true hcertificate⟩

theorem sampleProfile_accepted : ∃ registered,
    apply .sample (initialState sampleConfig) (sampleProfile .sample 'Q') sampleConfig 1000 =
      .ok registered :=
  toOption_isSome sample_evaluates.2.2.1

theorem sample_commit : ∃ ledger block, ProcessRun .sample (.running ledger) ∧
    ledger.db.blocks.get? 1 = some block ∧
    block.certificate = sampleCertificate 'Q' ['A', 'E', 'I'] := by
  obtain ⟨committed, block, hcommit, hget, hcertificate⟩ := sampleLedgers_ok
  have hfresh : Database.new.Fresh := ⟨rfl, .inl rfl⟩
  have hopened : ProcessRun .sample (.running ⟨.new, none⟩) :=
    .step (.start hfresh) (ProcessStep.reopen rfl : ProcessStep _ (sampleKey 'E') _ _ _)
  have hconfigured : ProcessRun .sample (.running sampleConfigured) :=
    .step hopened (ProcessStep.configure configure_sample : ProcessStep _ (sampleKey 'E') _ _ _)
  exact ⟨committed, block, .step hconfigured
    (ProcessStep.commit hcommit : ProcessStep _ (sampleKey 'E') _ _ _), hget, hcertificate⟩

/-- Reopening the tables of the sample run: the block is at height one, and a
commit of its proposal under other votes changes nothing. -/
theorem reopening_reproduces_sample : ∃ ledger : Ledger,
    openLedger .sample ledger.db = .ok ledger ∧
    (∀ chain, ledger.chain = some chain → Folded .sample ledger.db.blocks.entries chain) ∧
    commit .sample ledger (sampleCertificate 'Q' ['E', 'I', 'M']) = .ok ledger := by
  obtain ⟨ledger, block, hrun, hget, hcertificate⟩ := sample_commit
  obtain ⟨ledger', hopen, hdb, hsame, hfolded, -, hknown, -⟩ :=
    reopening_reproduces .sample Codec.sample_injective (.running ledger) hrun
  obtain rfl := hsame ledger rfl
  refine ⟨ledger', hopen, hfolded, hknown 1 block hget _ ?_⟩
  simp [hcertificate, sampleCertificate]

/-- A different certificate for a stored height is not always refused: one with
the stored proposal and other votes is answered as committed. -/
theorem other_votes_committed : ∃ ledger block certificate,
    ProcessRun .sample (.running ledger) ∧ ledger.db.blocks.get? 1 = some block ∧
    (certificate.get? "proposal").bind (·.get? "height") = some (.int 1) ∧
    certificate ≠ block.certificate ∧ commit .sample ledger certificate = .ok ledger := by
  obtain ⟨ledger, block, hrun, hget, hcertificate⟩ := sample_commit
  have hconsistent := (hrun.recovers Codec.sample_injective).running
  have hproposal : (sampleCertificate 'Q' ['E', 'I', 'M']).get? "proposal" =
      block.certificate.get? "proposal" := by
    simp [hcertificate, sampleCertificate]
  refine ⟨ledger, block, sampleCertificate 'Q' ['E', 'I', 'M'], hrun, hget, ?_, ?_, ?_⟩
  · simp [sampleCertificate, sampleProposal, proposalCore, Json.get?_withField, Chain.start]
  · intro hsame
    have hkeys : sampleKey 'E' ≠ sampleKey 'A' := by decide
    have hvotes := congrArg (fun v : Json => v.get? "votes") (hsame.trans hcertificate)
    simp only [sampleCertificate, Json.get?_object_cons, List.map_cons,
      String.reduceEq, if_false, if_true, Option.some.injEq, Json.arr.injEq,
      List.cons.injEq] at hvotes
    have hsigner := congrArg (fun v : Json => v.get? "public_key") hvotes.1
    simp [signPayload, hkeys] at hsigner
  · cases hchain : ledger.chain with
    | none =>
      rw [Dict.get?_eq_some_iff, (hconsistent.empty hchain).2] at hget
      cases hget
    | some chain => exact commit_known hchain (hconsistent.follows hchain) hget hproposal

/-! ### What one step does to the tables -/

/-- A first vote was cast within the rules: on a chain that certificates lead
to, by one of its validators, for a proposal that fits it and that the local
clock admits. -/
structure Cast.Admitted (C : Codec) (cast : Cast) : Prop where
  history : ∃ rows, History C cast.chain.config rows cast.chain
  accepted : cast.chain.config.Accepted
  current : cast.chain.config.version = VERSION
  validator : cast.voter ∈ cast.chain.config.validatorKeys
  checked : ∃ next, checkProposal C cast.chain cast.proposal = .ok next
  admitted : ∃ size, admitVote cast.now size cast.chain cast.proposal = .ok ()

/-- What a step does to the tables of a ledger: nothing that matters here, a
new block, or a new vote. -/
inductive Effected (C : Codec) (key : String) (p : Process) : Label → Process → Prop
  | quiet {label : Label} {q : Process} (blocks : q.db.blocks = p.db.blocks)
      (manifest : q.db.manifest = p.db.manifest ∨
        p.db.manifest = none ∧ p.db.blocks.entries = [])
      (votes : q.db.votes = p.db.votes) (uncast : label.casts key = [])
      (intents : ∀ message, label = .deliver message → q.db.intents = p.db.intents)
      (unsigned : ∀ entry ∈ label.signs C key, ∀ version network height hash,
        entry.2.pyEq (approval version network height hash) = false) :
      Effected C key p label q
  | appended {q : Process} {ledger : Ledger} {certificate proposal : Json} {before chain : Chain}
      (tables : ledger.db = p.db) (follows : Follows C p.db before)
      (staged : Staged C ledger certificate q.db chain proposal before)
      (published : Follows C q.db chain) :
      Effected C key p (.deliver certificate) q
  | voted {q : Process} {chain : Chain} {proposal : Json} {now : Int} {row : VoteRow}
      (blocks : q.db.blocks = p.db.blocks) (manifest : q.db.manifest = p.db.manifest)
      (first : p.db.votes.get? (chain.height + 1) = none)
      (votes : q.db.votes = p.db.votes.set (chain.height + 1) row)
      (hash : row.hash = C.sha256 proposal)
      (admitted : Cast.Admitted C { voter := key, chain, proposal, now }) :
      Effected C key p (.cast chain proposal now) q

theorem vote_first {key : String} {now size : Int} {chain : Chain} {proposal wire : Json}
    {db : Database} (hrunning : ledger.chain = some chain) (hfollows : Follows C ledger.db chain)
    (hfirst : ledger.db.votes.get? (chain.height + 1) = none)
    (h : vote C key now size ledger proposal = .ok (db, wire)) :
    Cast.Admitted C { voter := key, chain, proposal, now } ∧
      db = { ledger.db with
        votes := ledger.db.votes.set (chain.height + 1)
          { hash := C.sha256 proposal, proposal, vote := wire } } := by
  simp only [vote, writable, ready, bind_ok, demand_ok, require_ok, pure_ok] at h
  obtain ⟨_, ⟨chain', hchain, -, hversion, rfl⟩, -, hvalidator, next, hchecked, h⟩ := h
  obtain rfl : chain = chain' := Option.mem_unique hrunning hchain
  simp only [hfirst, bind_ok, pure_ok, Prod.mk.injEq] at h
  obtain ⟨⟨⟩, hadmitted, rfl, rfl⟩ := h
  exact ⟨⟨⟨_, hfollows.history⟩, hfollows.accepted, hversion, hvalidator, ⟨next, hchecked⟩, size,
    hadmitted⟩, rfl⟩

theorem configure_tables (hinj : Function.Injective C.sha256) {ledger' : Ledger} {manifest : Json}
    (hconsistent : Consistent C ledger) (h : configure C ledger manifest = .ok ledger') :
    ledger'.db.blocks = ledger.db.blocks ∧ ledger'.db.votes = ledger.db.votes ∧
      (ledger'.db.manifest = ledger.db.manifest ∨
        ledger.db.manifest = none ∧ ledger.db.blocks.entries = []) := by
  simp only [configure, bind_ok, require_ok] at h
  obtain ⟨config, hconfig, -, -, h⟩ := h
  cases hchain : ledger.chain with
  | none =>
    simp only [hchain, pure_ok] at h
    subst h
    exact ⟨rfl, rfl, .inr (hconsistent.empty hchain)⟩
  | some chain =>
    simp only [hchain, bind_ok, require_ok, pure_ok] at h
    obtain ⟨-, hnetwork, rfl⟩ := h
    have hfollows := hconsistent.follows hchain
    refine ⟨rfl, rfl, .inl ?_⟩
    rw [hfollows.manifest]
    rw [hfollows.history.config_eq.2] at hnetwork
    rw [hfollows.accepted.eq_of_network hinj (Config.accepted_of_genesis hconfig) hnetwork]

theorem proposalCore_not_approval (chain : Chain) (timestamp : Int) (command : Json)
    (version network : String) (height : Nat) (hash : String) :
    (proposalCore chain timestamp command).pyEq (approval version network height hash) = false := by
  rw [← Bool.not_eq_true]
  intro h
  have hparent : (proposalCore chain timestamp command).get? "parent" = some (.str chain.head) := by
    simp [proposalCore]
  obtain ⟨w, hw, -⟩ := Json.pyEq_get? h hparent
  simp [approval] at hw

theorem effected_commit {key : String} {q : Process} {ledger' : Ledger} {certificate : Json}
    (hp : ledger.db = p.db) (hq : ledger'.db = q.db) (hconsistent : Consistent C ledger)
    (h : commit C ledger certificate = .ok ledger') :
    Effected C key p (.deliver certificate) q := by
  simp only [commit, bind_ok] at h
  obtain ⟨staged, hstaged, h⟩ := h
  cases staged with
  | none =>
    obtain rfl := pure_ok.mp h
    rw [hp] at hq
    exact .quiet (by rw [hq]) (.inl (by rw [hq])) (by rw [hq]) rfl (fun _ _ => by rw [hq])
      (by simp [Label.signs])
  | some next =>
    obtain ⟨db, chain⟩ := next
    obtain rfl := pure_ok.mp h
    subst hq
    have hpublished := Follows.stage hconsistent hstaged
    obtain ⟨proposal, before, hstaged, -⟩ := stageCommit_ok hstaged
    exact .appended hp (hp ▸ hconsistent.follows hstaged.running) hstaged hpublished

/-- **What one step does to the tables.** -/
theorem ProcessStep.effect (hinj : Function.Injective C.sha256) {key : String} {q : Process}
    {label : Label} (h : p.Recovers C) (hstep : ProcessStep C key p label q) :
    Effected C key p label q := by
  cases hstep with
  | configure done | configureCrash done =>
    obtain ⟨hblocks, hvotes, hmanifest⟩ := configure_tables hinj h.running done
    exact .quiet hblocks hmanifest hvotes rfl nofun (by simp [Label.signs])
  | commit done => exact effected_commit rfl rfl h.running done
  | commitCrash done =>
    obtain ⟨proposal, before, hstaged, -⟩ := stageCommit_ok done
    exact .appended rfl (h.running.follows hstaged.running) hstaged
      (Follows.stage h.running done)
  | vote running first done | voteCrash running first done =>
    obtain ⟨hadmitted, rfl⟩ := vote_first running (h.running.follows running) first done
    exact .voted rfl rfl first rfl rfl hadmitted
  | propose running done =>
    obtain ⟨hmanifest, hblocks, hvotes⟩ := leaderPropose_tables done
    refine .quiet hblocks (.inl hmanifest) hvotes rfl nofun ?_
    simp only [Label.signs, List.mem_singleton, forall_eq]
    exact proposalCore_not_approval _ _ _
  | sign other =>
    refine .quiet rfl (.inl rfl) rfl rfl nofun ?_
    simpa only [Label.signs, List.mem_singleton, forall_eq] using other
  | write | crash => exact .quiet rfl (.inl rfl) rfl rfl nofun (by simp [Label.signs])
  | @reopen db ledger done =>
    have hdb : ledger.db = db := by
      obtain ⟨ledger', hdb, hconsistent, -⟩ := h
      obtain rfl : ledger'.db = db := hdb
      rw [openLedger_consistent hconsistent] at done
      rw [Except.ok.inj done]
    refine .quiet ?_ (.inl ?_) ?_ rfl nofun (by simp [Label.signs]) <;>
      simp [Process.db, hdb]

end Exchange
