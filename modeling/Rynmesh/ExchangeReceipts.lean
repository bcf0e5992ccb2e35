import Rynmesh.ExchangeRecovery

/-!
# Whose commit a node reports

A commit marks the intent that has the committed operation's id, and a call is
answered once its operation id is on record; neither looks at the command.  An
id is chosen by the account that signs a command and shown to every validator,
so another account can use it first.

* `Own` is the condition under which the node is right: what it commits under
  the id of one of its intents is that intent's command, and it signs once under
  an id, also when a signed command was not stored;
* `reported_commits_are_own` says that then every reported commit is the node's
  own, and that one id never stands for two commands;
* `copied_operation` is the run in which another account copies the id.
-/

namespace Exchange

open Checked

variable {C : Codec}

/-- The operation id a command wire names. -/
def commandOperation (command : Json) : Option String :=
  ((command.get? "payload").bind (·.get? "id")).bind Json.asStr?

/-- A step that keeps ids apart: what it commits under the id of an intent is
the intent's command, and no second command is signed under an id. -/
def Own (node : Node) : Event → Prop
  | .ledger (.deliver certificate) => ∀ proposal operation intent,
      certificate.get? "proposal" = some proposal → proposalOperation proposal = some operation →
      node.process.db.intents.get? operation = some intent →
      proposal.get? "command" = some intent.command
  | .signed command =>
      ∀ prior ∈ node.signed, commandOperation prior ≠ commandOperation command
  | _ => True

/-! ### Operations of a history -/

/-- A block's command has an operation id. -/
def Carries (C : Codec) (row : Nat × Block) (operation : String) : Prop :=
  ∃ proposal wire owner nonce, row.2.certificate.get? "proposal" = some proposal ∧
    proposal.get? "command" = some wire ∧ CommandHeader C wire operation owner nonce

variable {state : State Order}

variable {chain : Chain}

theorem History.operations {config : Config} {rows : List (Nat × Block)}
    (h : History C config rows chain) (hstate : chain.state = .current state) :
    (∀ row ∈ rows, ∀ operation, Carries C row operation → operation ∈ state.operations.keys) ∧
    ∀ row ∈ rows, ∀ row' ∈ rows, ∀ operation, Carries C row operation →
      Carries C row' operation → row = row' := by
  induction h generalizing state with
  | start => exact ⟨by simp, by simp⟩
  | @block rows prior next row before replayed ih =>
    obtain ⟨state', proposal, wire, timestamp, hblock⟩ := replayBlock_current replayed hstate
    obtain ⟨hknown, honce⟩ := ih hblock.current
    have hinvariant := (before.reachable hblock.current).invariant
    have happlied := hblock.applied
    rw [before.config_eq.1] at happlied
    obtain ⟨operation, owner, nonce, hheader, hrecord⟩ := apply_header hinvariant happlied
    have hnew : ∀ other, Carries C row other → other = operation := by
      rintro other ⟨proposal', wire', owner', nonce', hcarries, hcommand, hheader'⟩
      obtain rfl := Option.mem_unique hblock.carries hcarries
      obtain rfl := Option.mem_unique hblock.command hcommand
      exact (hheader'.unique hheader).1
    have hgrow := apply_advances hinvariant happlied
    refine ⟨fun r hr other hother => ?_, fun r hr r' hr' other hother hother' => ?_⟩
    · rcases List.mem_append.mp hr with hr | hr
      · exact hgrow.known (hknown r hr other hother)
      · rw [hnew other (List.mem_singleton.mp hr ▸ hother)]
        exact hrecord.known
    · rcases List.mem_append.mp hr with hr | hr <;> rcases List.mem_append.mp hr' with hr' | hr'
      · exact honce r hr r' hr' other hother hother'
      · refine absurd (hknown r hr other hother) ?_
        rw [hnew other (List.mem_singleton.mp hr' ▸ hother')]
        exact hrecord.fresh
      · refine absurd (hknown r' hr' other hother') ?_
        rw [hnew other (List.mem_singleton.mp hr ▸ hother)]
        exact hrecord.fresh
      · rw [List.mem_singleton.mp hr, List.mem_singleton.mp hr']

variable {operation : String}

theorem apply_operation {config : Config} {state' : State Order} {wire : Json} {timestamp : Int}
    (hinvariant : Invariant config state) (h : apply C state wire config timestamp = .ok state')
    (hnamed : commandOperation wire = some operation) :
    operation ∉ state.operations.keys ∧
      state'.operations = state.operations.set operation (C.sha256 wire) := by
  obtain ⟨cmd, payload, _, _, happlied⟩ := apply_ok h
  obtain ⟨id, hid, hstr⟩ := Option.bind_eq_some_iff.mp hnamed
  obtain ⟨raw, hraw, hfield⟩ := Option.bind_eq_some_iff.mp hid
  obtain rfl : payload = raw := by
    have hdict := (signature_ok happlied.read.signed).1
    rw [hraw] at hdict
    exact Json.dict?_of_get? hfield hdict
  obtain rfl : id = .str cmd.id := Option.mem_unique hfield happlied.read.id_eq
  obtain rfl : cmd.id = operation := by simpa [Json.asStr?] using hstr
  exact ⟨happlied.read.fresh, (happlied.onRecord hinvariant).operation⟩

/-! ### Rows -/

/-- An intent row stands for a command. -/
def Row (intents : Dict String Intent) (operation : String) (command : Json)
    (print : String) : Prop :=
  ∃ intent, intents.get? operation = some intent ∧ intent.command = command ∧
    intent.fingerprint = print

theorem row_setStatus (status : IntentStatus) (intents : Dict String Intent) (id operation : String)
    (command : Json) (print : String) :
    Row (setStatus status intents id) operation command print ↔
      Row intents operation command print := by
  constructor
  · rintro ⟨intent, hget, rfl, rfl⟩
    obtain ⟨old, hold, hcommand, hprint, -⟩ := of_get?_setStatus hget
    exact ⟨old, hold, hcommand, hprint⟩
  · rintro ⟨intent, hget, rfl, rfl⟩
    obtain ⟨new, hnew, hcommand, hprint⟩ := get?_setStatus_of status id hget
    exact ⟨new, hnew, hcommand, hprint⟩

theorem row_set (intents : Dict String Intent) (id operation : String) (intent : Intent)
    (command : Json) (print : String) :
    Row (intents.set id intent) operation command print ↔
      if operation = id then intent.command = command ∧ intent.fingerprint = print
      else Row intents operation command print := by
  unfold Row
  by_cases hop : operation = id <;> simp [hop]

/-- **What the rows say about the calls.**  A command is signed once under an id,
stored commands are signed, and the call in progress and every answer have their
row. -/
structure Node.Rows (C : Codec) (node : Node) : Prop where
  signed : ∀ command ∈ node.signed, ∀ command' ∈ node.signed,
    commandOperation command = commandOperation command' → command = command'
  stored : ∀ operation command print, Row node.process.db.intents operation command print →
    command ∈ node.signed ∧ commandOperation command = some operation
  opened : ∀ actor request prior, node.call = .opened actor request (some prior) →
    Row node.process.db.intents request.operation prior.command prior.fingerprint
  submitting : ∀ actor request command round, node.call = .submitting actor request command round →
    Row node.process.db.intents request.operation command (fingerprint C actor request)
  answered : ∀ answer ∈ node.answers, ∃ command,
    Row node.process.db.intents answer.operation command answer.fingerprint

variable {node node' : Node}

theorem Node.Rows.congr (h : node.Rows C)
    (hrow : ∀ operation command print,
      Row node'.process.db.intents operation command print ↔
        Row node.process.db.intents operation command print)
    (hsigned : node'.signed = node.signed) (hanswers : node'.answers = node.answers)
    (hcall : node'.call = node.call ∨ node'.call = .idle ∨ ∃ id, node'.call = .superseding id) :
    node'.Rows C := by
  have hsame : ∀ {actor request prior}, node'.call = .opened actor request prior →
      node.call = .opened actor request prior := by
    intro actor request prior hopened
    rcases hcall with hcall | hcall | ⟨id, hcall⟩
    · rw [← hcall, hopened]
    · rw [hcall] at hopened
      cases hopened
    · rw [hcall] at hopened
      cases hopened
  have hsame' : ∀ {actor request command round},
      node'.call = .submitting actor request command round →
      node.call = .submitting actor request command round := by
    intro actor request command round hsubmitting
    rcases hcall with hcall | hcall | ⟨id, hcall⟩
    · rw [← hcall, hsubmitting]
    · rw [hcall] at hsubmitting
      cases hsubmitting
    · rw [hcall] at hsubmitting
      cases hsubmitting
  refine ⟨?_, ?_, ?_, ?_, ?_⟩
  · rw [hsigned]
    exact h.signed
  · rw [hsigned]
    exact fun operation command print hr => h.stored operation command print ((hrow _ _ _).mp hr)
  · exact fun actor request prior hc => (hrow _ _ _).mpr (h.opened actor request prior (hsame hc))
  · exact fun actor request command round hc =>
      (hrow _ _ _).mpr (h.submitting actor request command round (hsame' hc))
  · rw [hanswers]
    intro answer hanswer
    obtain ⟨command, hr⟩ := h.answered answer hanswer
    exact ⟨command, (hrow _ _ _).mpr hr⟩

/-- A command under a new id may be signed. -/
theorem Node.Rows.sign (h : node.Rows C) {command : Json}
    (hnew : ∀ prior ∈ node.signed, commandOperation prior ≠ commandOperation command) :
    ∀ a ∈ node.signed ++ [command], ∀ b ∈ node.signed ++ [command],
      commandOperation a = commandOperation b → a = b := by
  intro a ha b hb hsame
  rw [List.mem_append, List.mem_singleton] at ha hb
  rcases ha with hold | rfl <;> rcases hb with hold' | rfl
  · exact h.signed a hold b hold' hsame
  · exact absurd hsame (hnew a hold)
  · exact absurd hsame.symm (hnew b hold')
  · rfl

variable {key : String} {ledger : Ledger}

theorem signCommand_ok {actor : String} {size : Int} {request : Request} {prepared command : Json}
    (h : signCommand C key actor size ledger request prepared = .ok command) :
    commandOperation command = some request.operation := by
  simp only [signCommand, bind_ok, pure_ok] at h
  obtain ⟨-, -, chain, -, state, -, -, -, rfl⟩ := h
  simp [commandOperation, signPayload, Json.asStr?]

theorem Effected.rows {p q : Process} {label : Label} (h : Effected C key p label q)
    (kept : (∀ message, label ≠ .deliver message) → q.db.intents = p.db.intents)
    (operation : String) (command : Json) (print : String) :
    Row q.db.intents operation command print ↔ Row p.db.intents operation command print := by
  cases h with
  | quiet blocks manifest votes uncast intents unsigned =>
    rw [Label.delivered_or intents kept]
  | voted => rw [kept nofun]
  | appended tables follows staged =>
    obtain ⟨id, -, hintents⟩ := staged.intents
    rw [hintents, tables]
    exact row_setStatus .committed _ id operation command print

theorem Process.keeps_cases (q : Process) (call : Call) :
    q.keeps call = call ∨ q.keeps call = .idle ∨ ∃ id, q.keeps call = .superseding id := by
  cases q with
  | running => exact .inl rfl
  | stopped => exact .inr (.inl rfl)

theorem NodeStep.rows (hinj : Function.Injective C.sha256) {event : Event} (hsound : node.Sound C)
    (hown : Own node event) (h : node.Rows C) (hstep : NodeStep C key node event node') :
    node'.Rows C := by
  cases hstep with
  | @ledger label q next kept =>
    exact h.congr ((next.effect hinj hsound.recovers).rows kept) rfl rfl
      (q.keeps_cases node.call)
  | @opened ledger request prior running idle done =>
    refine ⟨h.signed, h.stored, fun actor request' prior' hcall => ?_,
      by rintro _ _ _ _ ⟨⟩, h.answered⟩
    obtain ⟨rfl, rfl, rfl⟩ := Call.opened.inj hcall
    simp only [openAction, bind_ok, pure_ok] at done
    obtain ⟨_, -, -, -, -, -, id, hid, hget⟩ := done
    obtain rfl : request.operation = id := by
      simpa using (identifier_ok.mp hid).1
    exact ⟨prior', by rw [running]; exact hget, rfl, rfl⟩
  | @found ledger actor request prior running call done =>
    refine ⟨h.signed, h.stored, by rintro _ _ _ ⟨⟩, by rintro _ _ _ _ ⟨⟩,
      fun answer hanswer => ?_⟩
    rcases List.mem_append.mp hanswer with hold | hnew
    · exact h.answered answer hold
    · obtain rfl := List.mem_singleton.mp hnew
      simp only [resubmit, bind_ok, require_ok] at done
      obtain ⟨-, -, -, hprint, -⟩ := done
      exact ⟨prior.command, hprint ▸ h.opened actor request prior call⟩
  | @resubmitted ledger actor request prior command running call done =>
    refine ⟨h.signed, h.stored, by rintro _ _ _ ⟨⟩,
      fun actor' request' command' round' hcall => ?_, h.answered⟩
    obtain ⟨rfl, rfl, rfl, -⟩ := Call.submitting.inj hcall
    simp only [resubmit, bind_ok, require_ok, pure_ok] at done
    obtain ⟨-, -, -, hprint, chain, -, hcommand⟩ := done
    split at hcommand
    · cases hcommand
    · obtain rfl := Option.some.inj hcommand
      exact hprint ▸ h.opened actor request prior call
  | @stored ledger actor request prepared command now size db running call signed stored =>
    obtain ⟨rfl, hfresh, -⟩ := storeIntent_ok stored
    have hname := signCommand_ok signed
    have hset := row_set ledger.db.intents request.operation
    have hold : ∀ {operation command' print},
        Row node.process.db.intents operation command' print →
        operation ≠ request.operation := by
      rintro operation command' print ⟨intent, hget, -, -⟩ rfl
      rw [running] at hget
      exact hfresh (Dict.mem_keys_of_get? hget)
    have hkept : ∀ {operation command' print},
        Row node.process.db.intents operation command' print →
        Row (ledger.db.intents.set request.operation
          { fingerprint := fingerprint C actor request, command, status := .pending })
          operation command' print := by
      intro operation command' print hrow
      rw [hset, if_neg (hold hrow)]
      rwa [running] at hrow
    refine ⟨h.sign hown, fun operation command' print hrow => ?_, by rintro _ _ _ ⟨⟩,
      fun actor' request' command' round' hcall => ?_, fun answer hanswer => ?_⟩
    · have hrow' := (hset _ _ _ _).mp hrow
      by_cases hop : operation = request.operation
      · rw [if_pos hop] at hrow'
        obtain ⟨rfl, -⟩ := hrow'
        exact ⟨by simp, hop ▸ hname⟩
      · rw [if_neg hop] at hrow'
        obtain ⟨hmem, hname'⟩ := h.stored operation command' print (by rwa [running])
        exact ⟨List.mem_append_left _ hmem, hname'⟩
    · obtain ⟨rfl, rfl, rfl, -⟩ := Call.submitting.inj hcall
      exact (hset _ _ _ _).mpr (by simp)
    · obtain ⟨command', hrow⟩ := h.answered answer hanswer
      exact ⟨command', hkept hrow⟩
  | refused =>
    exact ⟨h.sign hown, fun operation command print hrow =>
      (h.stored operation command print hrow).imp_left (List.mem_append_left _),
      by rintro _ _ _ ⟨⟩, by rintro _ _ _ _ ⟨⟩, h.answered⟩
  | interrupted running =>
    have hdb := congrArg Process.db running
    refine ⟨h.sign hown, fun operation command print hrow => ?_, by rintro _ _ _ ⟨⟩,
      by rintro _ _ _ _ ⟨⟩, fun answer hanswer => ?_⟩
    · exact (h.stored operation command print (hdb ▸ hrow)).imp_left (List.mem_append_left _)
    · exact hdb ▸ h.answered answer hanswer
  | @answered ledger chain actor request command round running call open_ known =>
    refine ⟨h.signed, h.stored, by rintro _ _ _ ⟨⟩, by rintro _ _ _ _ ⟨⟩,
      fun answer hanswer => ?_⟩
    rcases List.mem_append.mp hanswer with hold | hnew
    · exact h.answered answer hold
    · obtain rfl := List.mem_singleton.mp hnew
      exact ⟨command, h.submitting actor request command round call⟩
  | @retried actor request command round call left =>
    refine ⟨h.signed, h.stored, by rintro _ _ _ ⟨⟩,
      fun actor' request' command' round' hcall => ?_, h.answered⟩
    obtain ⟨rfl, rfl, rfl, -⟩ := Call.submitting.inj hcall
    exact h.submitting actor request command round call
  | @outdated ledger actor request command round running call =>
    refine h.congr (fun operation command' print => ?_) rfl rfl (.inr (.inl rfl))
    rw [running]
    exact row_setStatus .superseded _ request.operation operation command' print
  | @superseded ledger id running call =>
    refine h.congr (fun operation command' print => ?_) rfl rfl (.inr (.inl rfl))
    rw [running]
    exact row_setStatus .superseded _ id operation command' print
  | superseding => exact h.congr (fun _ _ _ => Iff.rfl) rfl rfl (.inr (.inr ⟨_, rfl⟩))
  | returned => exact h.congr (fun _ _ _ => Iff.rfl) rfl rfl (.inr (.inl rfl))

/-! ### Operations on record -/

/-- **What the record says about the rows.**  An operation on record under the
id of a row is the row's command, a row marked committed is on record, and so is
every operation a call was answered for. -/
structure Node.Records (C : Codec) (node : Node) : Prop where
  hash : ∀ chain state, node.process.At C chain state → ∀ operation intent hash,
    node.process.db.intents.get? operation = some intent →
    state.operations.get? operation = some hash → hash = C.sha256 intent.command
  committed : ∀ chain state, node.process.At C chain state → ∀ operation intent,
    node.process.db.intents.get? operation = some intent → intent.status = .committed →
    operation ∈ state.operations.keys
  answered : ∀ chain state, node.process.At C chain state → ∀ answer ∈ node.answers,
    answer.operation ∈ state.operations.keys

theorem Node.Records.congr (h : node.Records C) (hdb : node'.process.db = node.process.db)
    (hanswers : ∀ chain state, node.process.At C chain state → ∀ answer ∈ node'.answers,
      answer ∈ node.answers ∨ answer.operation ∈ state.operations.keys) : node'.Records C := by
  have hat : ∀ {chain state}, node'.process.At C chain state → node.process.At C chain state :=
    fun hat => ⟨hdb ▸ hat.follows, hat.state⟩
  refine ⟨fun chain state hnode => ?_, fun chain state hnode => ?_,
    fun chain state hnode answer hanswer => ?_⟩
  · rw [hdb]
    exact h.hash chain state (hat hnode)
  · rw [hdb]
    exact h.committed chain state (hat hnode)
  · rcases hanswers chain state (hat hnode) answer hanswer with hold | hnew
    · exact h.answered chain state (hat hnode) answer hold
    · exact hnew

theorem Node.Records.superseded (h : node.Records C) {id : String}
    (hrunning : node.process = .running ledger)
    (hprocess : node'.process = .running { ledger with db := { ledger.db with
      intents := setStatus .superseded ledger.db.intents id } })
    (hanswers : node'.answers = node.answers) : node'.Records C := by
  refine ⟨fun chain state hat operation intent hash hget hop => ?_,
    fun chain state hat operation intent hget hstatus => ?_, fun chain state hat => ?_⟩
  · rw [hprocess] at hget
    obtain ⟨old, hold, hcommand, -⟩ := of_get?_setStatus hget
    rw [← hcommand]
    exact h.hash chain state (hat.of_intents hrunning hprocess) operation old hash
      (by rw [hrunning]; exact hold) hop
  · rw [hprocess] at hget
    obtain ⟨old, hold, -, -, hsame, hset⟩ := of_get?_setStatus hget
    by_cases hid : operation = id
    · rw [hset hid] at hstatus
      cases hstatus
    · obtain rfl := hsame hid
      exact h.committed chain state (hat.of_intents hrunning hprocess) operation old
        (by rw [hrunning]; exact hold) hstatus
  · rw [hanswers]
    exact h.answered chain state (hat.of_intents hrunning hprocess)

theorem Node.Records.progress (hsound : node.Sound C) (hrows : node.Rows C) (h : node.Records C)
    {label : Label} (hown : Own node (.ledger label)) {q : Process}
    (hprogress : Progress C node.process label q chain state) :
    (∀ operation intent hash, q.db.intents.get? operation = some intent →
      state.operations.get? operation = some hash → hash = C.sha256 intent.command) ∧
    (∀ operation intent, q.db.intents.get? operation = some intent →
      intent.status = .committed → operation ∈ state.operations.keys) ∧
    ∀ answer ∈ node.answers, answer.operation ∈ state.operations.keys := by
  cases hprogress with
  | same before follows current config intents =>
    rw [intents]
    exact ⟨h.hash before state ⟨follows, current⟩, h.committed before state ⟨follows, current⟩,
      h.answered before state ⟨follows, current⟩⟩
  | configured unset intents =>
    have hempty : ∀ operation, node.process.db.intents.get? operation = none := by
      intro operation
      rw [Dict.get?_eq_none_iff, Dict.keys, hsound.fresh unset]
      simp
    refine ⟨fun operation intent hash hget => ?_, fun operation intent hget => ?_,
      fun answer hanswer => ?_⟩
    · simp [intents, hempty] at hget
    · simp [intents, hempty] at hget
    · obtain ⟨command, intent, hget, -, -⟩ := hrows.answered answer hanswer
      simp [hempty] at hget
  | committed before prior certificate proposal wire timestamp operation delivered follows current
      config carries command named applied intents =>
      have hat : node.process.At C before prior := ⟨follows, current⟩
      have hname : commandOperation wire = some operation := by
        simpa [proposalOperation, command, commandOperation] using named
      obtain ⟨hfresh, hoperations⟩ := apply_operation hat.reachable.invariant applied hname
      subst delivered
      refine ⟨fun id intent hash hget hop => ?_, fun id intent hget hstatus => ?_,
        fun answer hanswer => ?_⟩
      · rw [intents] at hget
        obtain ⟨old, hold, hcommand, -⟩ := of_get?_setStatus hget
        rw [hoperations, Dict.get?_set] at hop
        by_cases hid : id = operation
        · subst hid
          have hsame := hown proposal id old carries named hold
          obtain rfl : wire = old.command := Option.mem_unique command hsame
          simpa [hcommand, eq_comm] using hop
        · rw [if_neg hid] at hop
          rw [← hcommand]
          exact h.hash before prior hat id old hash hold hop
      · rw [intents] at hget
        obtain ⟨old, hold, -, -, hsame, -⟩ := of_get?_setStatus hget
        rw [hoperations, Dict.mem_keys_set]
        by_cases hid : id = operation
        · exact .inl hid
        · obtain rfl := hsame hid
          exact .inr (h.committed before prior hat id old hold hstatus)
      · rw [hoperations, Dict.mem_keys_set]
        exact .inr (h.answered before prior hat answer hanswer)

theorem Node.Sound.state_running (h : node.Sound C) {chain' : Chain}
    (hrunning : node.process = .running ledger) (hchain : ledger.chain = some chain')
    (hat : node.process.At C chain state) : chain'.state = .current state := by
  obtain ⟨hrecovers, -, -⟩ := h
  rw [hrunning] at hrecovers hat
  obtain rfl : chain' = chain := (hrecovers.running.follows hchain).unique hat.follows
  exact hat.state

theorem NodeStep.records (hinj : Function.Injective C.sha256) {event : Event}
    (hsound : node.Sound C) (hrows : node.Rows C) (hown : Own node event) (h : node.Records C)
    (hstep : NodeStep C key node event node') : node'.Records C := by
  cases hstep with
  | @ledger label q next kept =>
    have hview := fun chain state (hat : q.At C chain state) =>
      h.progress hsound hrows hown
        ((next.effect hinj hsound.recovers).progress kept hat.follows hat.state)
    exact ⟨fun chain state hat => (hview chain state hat).1,
      fun chain state hat => (hview chain state hat).2.1,
      fun chain state hat => (hview chain state hat).2.2⟩
  | @found ledger actor request prior running call done =>
    refine h.congr rfl fun chain state hat answer hanswer => ?_
    rcases List.mem_append.mp hanswer with hold | hnew
    · exact .inl hold
    · obtain rfl := List.mem_singleton.mp hnew
      simp only [resubmit, ready, bind_ok, demand_ok, pure_ok] at done
      obtain ⟨-, -, -, -, chain', hchain, hknown⟩ := done
      split at hknown
      · next hmem =>
        rw [hsound.state_running running hchain hat] at hmem
        exact .inr hmem
      · cases hknown
  | @stored ledger actor request prepared command now size db running call signed stored =>
    obtain ⟨rfl, hfresh, chain₀, state₀, timestamp, after, hchain, hstate, happly⟩ :=
      storeIntent_ok stored
    have hat₀ := hsound.at_running running hchain hstate
    obtain ⟨hnew, -⟩ := apply_operation hat₀.reachable.invariant happly (signCommand_ok signed)
    have hget : ∀ {operation intent}, operation ≠ request.operation →
        (ledger.db.intents.set request.operation
          { fingerprint := fingerprint C actor request, command, status := .pending }).get?
          operation = some intent → node.process.db.intents.get? operation = some intent := by
      intro operation intent hne hget
      rw [Dict.get?_set_ne _ _ hne] at hget
      rw [running]
      exact hget
    refine ⟨fun chain state hat operation intent hash hintent hop => ?_,
      fun chain state hat operation intent hintent hstatus => ?_, fun chain state hat => ?_⟩
    · obtain ⟨rfl, rfl⟩ := hat₀.unique (hat.of_intents running rfl)
      have hne : operation ≠ request.operation := by
        rintro rfl
        exact hnew (Dict.mem_keys_of_get? hop)
      exact h.hash chain₀ state₀ hat₀ operation intent hash (hget hne hintent) hop
    · obtain ⟨rfl, rfl⟩ := hat₀.unique (hat.of_intents running rfl)
      by_cases hid : operation = request.operation
      · subst hid
        obtain rfl : _ = intent := Option.mem_unique (Dict.get?_set_self _ _ _) hintent
        cases hstatus
      · exact h.committed chain₀ state₀ hat₀ operation intent (hget hid hintent) hstatus
    · obtain ⟨rfl, rfl⟩ := hat₀.unique (hat.of_intents running rfl)
      exact h.answered chain₀ state₀ hat₀
  | @answered ledger chain' actor request command round running call open_ known =>
    refine h.congr rfl fun chain state hat answer hanswer => ?_
    rcases List.mem_append.mp hanswer with hold | hnew
    · exact .inl hold
    · obtain rfl := List.mem_singleton.mp hnew
      simp only [ready, demand_ok] at open_
      rw [hsound.state_running running open_ hat] at known
      exact .inr known
  | interrupted running =>
    exact h.congr (congrArg Process.db running).symm fun _ _ _ answer hanswer => .inl hanswer
  | outdated running | superseded running => exact h.superseded running rfl rfl
  | opened | resubmitted | refused | retried | superseding | returned =>
    exact h.congr rfl fun _ _ _ answer hanswer => .inl hanswer

/-! ### Reported commits -/

theorem Node.new_rows : Node.new.Rows C where
  signed _ h := by cases h
  stored _ _ _ h := by
    obtain ⟨_, hget, -, -⟩ := h
    cases hget
  opened _ _ _ h := by cases h
  submitting _ _ _ _ h := by cases h
  answered _ h := by cases h

theorem Node.new_records : Node.new.Records C where
  hash _ _ _ _ _ _ h := by cases h
  committed _ _ _ _ _ h := by cases h
  answered _ _ _ _ h := by cases h

theorem NodeRun.owned (hinj : Function.Injective C.sha256) (h : NodeRun C key Own node) :
    node.Rows C ∧ node.Records C := by
  induction h with
  | new => exact ⟨Node.new_rows, Node.new_records⟩
  | step before met next ih =>
    have hsound := before.sound hinj
    exact ⟨next.rows hinj hsound met ih.1, next.records hinj hsound ih.1 met ih.2⟩

/-- **The node's own commit**: its intent for an operation has a fingerprint,
its command was signed by the node under that id, and the ledger's record of the
operation is the hash of that command. -/
def OwnCommit (C : Codec) (node : Node) (operation print : String) : Prop :=
  ∃ intent chain, node.process.db.intents.get? operation = some intent ∧
    intent.fingerprint = print ∧ intent.command ∈ node.signed ∧
    commandOperation intent.command = some operation ∧
    node.process.chain? C = some chain ∧
    chain.state.operations.get? operation = some (C.sha256 intent.command)

theorem Node.Sound.chain_of_intent (h : node.Sound C) {intent : Intent}
    (hget : node.process.db.intents.get? operation = some intent) :
    ∃ chain state, node.process.chain? C = some chain ∧ node.process.At C chain state := by
  have hset : node.process.db.manifest ≠ none := by
    intro hnone
    rw [Dict.get?_eq_some_iff, h.fresh hnone] at hget
    cases hget
  obtain ⟨chain, hchain⟩ := h.recovers.chain_of_manifest hset
  obtain ⟨state, hat⟩ := h.at_of_chain hchain
  exact ⟨chain, state, hchain, hat⟩

theorem Node.Records.ownCommit (hsound : node.Sound C) (hrows : node.Rows C) (h : node.Records C)
    {print : String} {command : Json} (hrow : Row node.process.db.intents operation command print)
    (hknown : ∀ chain state, node.process.At C chain state → operation ∈ state.operations.keys) :
    OwnCommit C node operation print := by
  obtain ⟨hsigned, hname⟩ := hrows.stored operation command print hrow
  obtain ⟨intent, hget, rfl, hprint⟩ := hrow
  obtain ⟨chain, state, hchain, hat⟩ := hsound.chain_of_intent hget
  obtain ⟨hash, hhash⟩ := Dict.mem_keys_iff.mp (hknown chain state hat)
  refine ⟨intent, chain, hget, hprint, hsigned, hname, hchain, ?_⟩
  rw [hat.state, ← h.hash chain state hat operation intent hash hget hhash]
  exact hhash

/-- **A reported commit is the node's own**, in every run that keeps ids apart:

* when a call was answered as committed, the ledger's record of the operation is
  the hash of the command the node signed and stored for it, under the
  fingerprint of that call;
* so it is for every intent row marked committed;
* the node signed at most one command for an operation id;
* at most one block of its ledger carries an operation id. -/
theorem reported_commits_are_own (C : Codec) (hinj : Function.Injective C.sha256) (key : String)
    (node : Node) (hrun : NodeRun C key Own node) :
    (∀ answer ∈ node.answers, OwnCommit C node answer.operation answer.fingerprint) ∧
    (∀ operation intent, node.process.db.intents.get? operation = some intent →
      intent.status = .committed → OwnCommit C node operation intent.fingerprint) ∧
    (∀ command ∈ node.signed, ∀ command' ∈ node.signed,
      commandOperation command = commandOperation command' → command = command') ∧
    (∀ row ∈ node.process.db.blocks.entries, ∀ row' ∈ node.process.db.blocks.entries,
      ∀ operation, Carries C row operation → Carries C row' operation → row = row') := by
  have hsound := hrun.sound hinj
  obtain ⟨hrows, hrecords⟩ := hrun.owned hinj
  refine ⟨fun answer hanswer => ?_, fun operation intent hget hstatus => ?_, hrows.signed,
    fun row hrow row' hrow' => ?_⟩
  · obtain ⟨command, hrow⟩ := hrows.answered answer hanswer
    exact hrecords.ownCommit hsound hrows hrow
      fun chain state hat => hrecords.answered chain state hat answer hanswer
  · exact hrecords.ownCommit hsound hrows ⟨intent, hget, rfl, rfl⟩
      fun chain state hat => hrecords.committed chain state hat operation intent hget hstatus
  · obtain ⟨chain, state, hat⟩ : ∃ chain state, node.process.At C chain state := by
      have hset : node.process.db.manifest ≠ none := fun hnone => by
        obtain ⟨ledger, hdb, hconsistent, -⟩ := hsound.recovers
        cases hchain : ledger.chain with
        | none =>
          rw [← hdb, (hconsistent.empty hchain).2] at hrow
          cases hrow
        | some chain =>
          rw [← hdb, (hconsistent.follows hchain).manifest] at hnone
          cases hnone
      obtain ⟨chain, hchain⟩ := hsound.recovers.chain_of_manifest hset
      exact ⟨chain, hsound.at_of_chain hchain⟩
    exact (hat.follows.history.operations hat.state).2 row hrow row' hrow'

/-! ### Two runs for examples -/

/-- The request for the profile of the first block. -/
def sampleRequest : Request :=
  { action := .str "profile",
    value := .object [("label", .str "owner"), ("encryption_key", .str (sampleKey 'Q'))],
    operation := "operation-1", expectedActor := none, expectedNetwork := none }

theorem sampleRequest_opened :
    openAction (sampleKey 'Q') sampleConfigured sampleRequest = .ok none := by
  have hidentifier : identifier (.str sampleRequest.operation) = .ok "operation-1" :=
    identifier_ok.mpr ⟨rfl, by decide⟩
  simp only [openAction, writable, ready, bind_ok, demand_ok, require_ok, pure_ok]
  refine ⟨.start .sample sampleConfig, ⟨.start .sample sampleConfig, rfl, (), ?_, rfl⟩, (), rfl, (),
    rfl, "operation-1", hidentifier, rfl⟩
  exact sampleConfig_current

theorem sampleRequest_signed :
    signCommand .sample (sampleKey 'Q') (sampleKey 'Q') 0 sampleConfigured sampleRequest
      sampleRequest.value = .ok (sampleProfile .sample 'Q') := by
  have hstorage : admitStorage 0 (initialState sampleConfig) (.str "profile") = .ok () := by
    have hread : readAction (.str "profile") = .ok .profile := rfl
    simp [admitStorage, hread, require, Checked.require, openOrders, initialState,
      Dict.empty, Dict.values, ADMISSION_HEADROOM, MAX_DATABASE_BYTES]
  simp only [signCommand, ready, bind_ok, demand_ok, require_ok, Checked.demand_ok, pure_ok]
  refine ⟨(), by simp [sampleConfigured, Database.new, Dict.values, Dict.empty],
    .start .sample sampleConfig, rfl, initialState sampleConfig, ?_, (), hstorage, ?_⟩
  · rw [Chain.start_state .sample sampleConfig_current]
    rfl
  · rw [Chain.start_network]
    rfl

theorem storedAt_congr {db db' : Database} (h : db'.blocks = db.blocks) (height : Option Json) :
    storedAt C db' height = storedAt C db height := by
  unfold storedAt
  rw [h]

theorem stageCommit_intents {certificate : Json} {db : Database}
    (h : stageCommit C ledger certificate = .ok (some (db, chain))) (intents : Dict String Intent) :
    ∃ proposal operation, certificate.get? "proposal" = some proposal ∧
      proposalOperation proposal = some operation ∧
      stageCommit C { ledger with db := { ledger.db with intents } } certificate =
        .ok (some ({ db with intents := setStatus .committed intents operation }, chain)) := by
  simp only [stageCommit, ready, bind_ok, demand_ok, require_ok] at h
  obtain ⟨before, hrunning, proposal, hproposal, _, hobj, found, hfound, h⟩ := h
  cases found with
  | some prior =>
    simp only [bind_ok, pure_ok] at h
    obtain ⟨-, -, h⟩ := h
    cases h
  | none =>
    simp only [bind_ok, Checked.require_ok, need_ok, pure_ok, Option.some.injEq,
      Prod.mk.injEq] at h
    obtain ⟨state, hverify, _, hfree, operation, hoperation, rfl, rfl⟩ := h
    refine ⟨proposal, operation, hproposal, hoperation, ?_⟩
    simp only [stageCommit, ready, bind_ok, demand_ok, require_ok]
    refine ⟨before, hrunning, proposal, hproposal, (), hobj, none, ?_, ?_⟩
    · rw [← hfound]
      exact storedAt_congr rfl _
    · simp only [bind_ok, Checked.require_ok, need_ok, pure_ok]
      exact ⟨state, hverify, (), hfree, operation, hoperation, rfl⟩

theorem sample_staged {owner : Char} {committed : Ledger}
    (h : commit .sample sampleConfigured (sampleCertificate owner ['A', 'E', 'I']) =
      .ok committed) :
    ∃ db chain, stageCommit .sample sampleConfigured (sampleCertificate owner ['A', 'E', 'I']) =
        .ok (some (db, chain)) ∧
      chain.state.operations.get? "operation-1" =
        some (Codec.sample.sha256 (sampleProfile .sample owner)) := by
  simp only [commit, bind_ok] at h
  obtain ⟨staged, hstage, -⟩ := h
  cases staged with
  | none =>
    simp only [stageCommit, ready, bind_ok, demand_ok, require_ok] at hstage
    obtain ⟨_, _, proposal, hproposal, _, _, found, hfound, hstage⟩ := hstage
    cases found with
    | none => simp [bind_ok] at hstage
    | some prior =>
      obtain rfl : sampleProposal .sample (sampleProfile .sample owner) = proposal := by
        simpa [sampleCertificate] using hproposal
      simp [sampleProposal, proposalCore, Json.get?_withField, storedAt, sampleConfigured,
        Database.new, Chain.start, pure, Except.pure] at hfound
  | some next =>
    obtain ⟨proposal, before, hstaged, -⟩ := stageCommit_ok hstage
    obtain rfl := Option.some.inj hstaged.running
    obtain ⟨wire, timestamp, hproposed⟩ := checkProposal_ok hstaged.certified.checked
    obtain rfl : sampleProposal .sample (sampleProfile .sample owner) = proposal := by
      simpa [sampleCertificate] using hstaged.certified.carries
    obtain rfl : sampleProfile .sample owner = wire := by
      simpa [sampleProposal, proposalCore, Json.get?_withField] using hproposed.command_eq
    have happlied := hproposed.applied
    rw [Chain.start_state .sample sampleConfig_current, Chain.start_config] at happlied
    simp only [RulesState.apply, map_ok] at happlied
    obtain ⟨state, happly, hstate⟩ := happlied
    have hreach : Reachable .sample sampleConfig (initialState sampleConfig) := Later.refl _
    obtain ⟨-, hoperations⟩ := apply_operation hreach.invariant happly
      (by simp [commandOperation, sampleProfile, sampleCommand, signPayload, commandPayload,
        Json.asStr?] : commandOperation (sampleProfile .sample owner) = some "operation-1")
    refine ⟨next.1, next.2, hstage, ?_⟩
    rw [← hstate, RulesState.operations, hoperations, Dict.get?_set_self]

/-- The call of the examples is answered once a block with its operation id is
committed, whoever signed the command in it. -/
theorem sample_answered {owner : Char} {committed : Ledger}
    (hcommit : commit .sample sampleConfigured (sampleCertificate owner ['A', 'E', 'I']) =
      .ok committed) {P : Node → Event → Prop} (hcall : ∀ node, P node .call)
    (hsign : ∀ node command, node.signed = [] → P node (.signed command))
    (hquiet : ∀ node, P node (.ledger .silent))
    (hdeliver : ∀ node intent, node.process.db.intents = Dict.empty.set "operation-1" intent →
      intent.command = sampleProfile .sample 'Q' →
      P node (.ledger (.deliver (sampleCertificate owner ['A', 'E', 'I'])))) :
    ∃ node chain, NodeRun .sample (sampleKey 'Q') P node ∧
      node.answers = [⟨"operation-1", fingerprint .sample (sampleKey 'Q') sampleRequest⟩] ∧
      (∃ intent, node.process.db.intents.get? "operation-1" = some intent ∧
        intent.command = sampleProfile .sample 'Q' ∧ intent.status = .committed) ∧
      node.process.chain? .sample = some chain ∧
      chain.state.operations.get? "operation-1" =
        some (Codec.sample.sha256 (sampleProfile .sample owner)) := by
  obtain ⟨db, chain, hstage, hrecord⟩ := sample_staged hcommit
  obtain ⟨registered, hvalidated⟩ := sampleProfile_accepted
  let print := fingerprint .sample (sampleKey 'Q') sampleRequest
  let intents : Dict String Intent := Dict.empty.set "operation-1"
    { fingerprint := print, command := sampleProfile .sample 'Q', status := .pending }
  let stored : Database := { sampleConfigured.db with intents }
  have hstored : storeIntent .sample (sampleKey 'Q') 1000 sampleConfigured sampleRequest
      (sampleProfile .sample 'Q') = .ok stored := by
    simp only [storeIntent, ready, bind_ok, demand_ok, Checked.demand_ok, Checked.require_ok,
      pure_ok]
    refine ⟨.start .sample sampleConfig, rfl, initialState sampleConfig, ?_, registered, ?_, (), ?_,
      rfl⟩
    · rw [Chain.start_state .sample sampleConfig_current]
      rfl
    · rw [Chain.start_config]
      exact hvalidated
    · exact List.not_mem_nil
  obtain ⟨proposal, operation, hproposal, hoperation, hstage'⟩ :=
    stageCommit_intents hstage intents
  obtain rfl : sampleProposal .sample (sampleProfile .sample owner) = proposal := by
    simpa [sampleCertificate] using hproposal
  obtain rfl : "operation-1" = operation := by
    simpa [proposalOperation, sampleProposal, proposalCore, Json.get?_withField, sampleProfile,
      sampleCommand, signPayload, commandPayload, Json.asStr?] using hoperation
  have hcommit' : commit .sample { sampleConfigured with db := stored }
      (sampleCertificate owner ['A', 'E', 'I']) =
      .ok ⟨{ db with intents := setStatus .committed intents "operation-1" }, some chain⟩ := by
    simp [commit, hstage', stored, pure, Except.pure]
  have hopened : NodeRun .sample (sampleKey 'Q') P
      { Node.new with process := .running ⟨.new, none⟩ } :=
    .step .new (hquiet _) (.ledger (.reopen rfl) fun _ => rfl)
  have hconfigured : NodeRun .sample (sampleKey 'Q') P
      { Node.new with process := .running sampleConfigured } :=
    .step hopened (hquiet _) (.ledger (.configure configure_sample) fun _ => rfl)
  have hcalled : NodeRun .sample (sampleKey 'Q') P
      { Node.new with
        process := .running sampleConfigured
        call := .opened (sampleKey 'Q') sampleRequest none } :=
    .step hconfigured (hcall _) (.opened rfl rfl sampleRequest_opened)
  have hsubmitted : NodeRun .sample (sampleKey 'Q') P
      { Node.new with
        process := .running { sampleConfigured with db := stored }
        call := .submitting (sampleKey 'Q') sampleRequest (sampleProfile .sample 'Q') 0
        signed := [sampleProfile .sample 'Q'] } :=
    .step hcalled (hsign _ _ rfl) (.stored rfl rfl sampleRequest_signed hstored)
  have hcommitted : NodeRun .sample (sampleKey 'Q') P
      { Node.new with
        process := .running
          ⟨{ db with intents := setStatus .committed intents "operation-1" }, some chain⟩
        call := .submitting (sampleKey 'Q') sampleRequest (sampleProfile .sample 'Q') 0
        signed := [sampleProfile .sample 'Q'] } :=
    .step hsubmitted (hdeliver _ _ rfl rfl)
      (.ledger (.commit hcommit') fun hno => absurd rfl (hno _))
  have hknown : sampleRequest.operation ∈ chain.state.operations.keys :=
    Dict.mem_keys_of_get? hrecord
  have hanswered : NodeRun .sample (sampleKey 'Q') P
      { Node.new with
        process := .running
          ⟨{ db with intents := setStatus .committed intents "operation-1" }, some chain⟩
        call := .idle
        signed := [sampleProfile .sample 'Q']
        answers := [⟨"operation-1", print⟩] } :=
    .step hcommitted (hcall _) (.answered rfl rfl rfl hknown)
  refine ⟨_, chain, hanswered, rfl, ?_, rfl, hrecord⟩
  refine ⟨{ fingerprint := print, command := sampleProfile .sample 'Q', status := .committed },
    ?_, rfl, rfl⟩
  show (setStatus .committed intents "operation-1").get? "operation-1" = _
  simp [get?_setStatus, intents]

/-- Another account copies the operation id of a stored command and is certified
first: the call is answered as committed and the intent is marked committed,
while the operation on record is the other account's command. -/
theorem copied_operation : ∃ node chain,
    NodeRun .sample (sampleKey 'Q') (fun _ _ => True) node ∧
    node.answers = [⟨"operation-1", fingerprint .sample (sampleKey 'Q') sampleRequest⟩] ∧
    node.process.chain? .sample = some chain ∧
    ∃ intent hash, node.process.db.intents.get? "operation-1" = some intent ∧
      intent.status = .committed ∧ chain.state.operations.get? "operation-1" = some hash ∧
      hash ≠ Codec.sample.sha256 intent.command := by
  obtain ⟨committed, hcommit⟩ := toOption_isSome sample_evaluates.2.1
  obtain ⟨node, chain, hrun, hanswers, ⟨intent, hget, hcommand, hstatus⟩, hchain, hrecord⟩ :=
    sample_answered hcommit (P := fun _ _ => True) (fun _ => trivial) (fun _ _ _ => trivial)
      (fun _ => trivial) fun _ _ _ _ => trivial
  refine ⟨node, chain, hrun, hanswers, hchain, intent, _, hget, hstatus, hrecord, ?_⟩
  intro hsame
  obtain ⟨-, -, -, -, -, -, -, hother⟩ := sample_evaluates
  exact hother (hcommand ▸ Codec.sample_injective hsame)

/-- When the node's own command is certified, the answer and the intent report
it. -/
theorem reported_commits_are_own_sample : ∃ node,
    node.answers = [⟨"operation-1", fingerprint .sample (sampleKey 'Q') sampleRequest⟩] ∧
    OwnCommit .sample node "operation-1" (fingerprint .sample (sampleKey 'Q') sampleRequest) := by
  obtain ⟨committed, block, hcommit, -, -⟩ := sampleLedgers_ok
  obtain ⟨node, chain, hrun, hanswers, -⟩ :=
    sample_answered hcommit (P := Own) (fun _ => trivial)
      (fun _ _ hnone _ hprior => by simp [hnone] at hprior) (fun _ => trivial) <| by
      intro node intent hintents hcommand proposal operation intent' hproposal hoperation hget
      obtain rfl : sampleProposal .sample (sampleProfile .sample 'Q') = proposal := by
        simpa [sampleCertificate] using hproposal
      obtain rfl : "operation-1" = operation := by
        simpa [proposalOperation, sampleProposal, proposalCore, Json.get?_withField,
          sampleProfile, sampleCommand, signPayload, commandPayload, Json.asStr?] using hoperation
      obtain rfl : intent = intent' := by
        simpa [hintents] using hget
      simp [sampleProposal, proposalCore, Json.get?_withField, hcommand]
  obtain ⟨hanswered, -⟩ := reported_commits_are_own .sample Codec.sample_injective _ node hrun
  refine ⟨node, hanswers, ?_⟩
  exact hanswered ⟨"operation-1", _⟩ (by rw [hanswers]; exact List.mem_singleton.mpr rfl)

end Exchange
