import Rynmesh.ExchangeNode

/-!
# What a node gives up stays dead

A node resumes by submitting its pending command again, unless the command's
nonce is spent or the order it reviewed has changed; then the intent is marked
superseded.  A stored intent was accepted once by the node's own rules, so what
it reviewed was a record of the order, and neither the nonce nor the record
comes back.
-/

namespace Exchange

open Checked

variable {C : Codec} {config : Config}

/-- A command is dead in a state: no later state accepts its payload, under any
signature. -/
def Dead (C : Codec) (config : Config) (state : State Order) (command : Json) : Prop :=
  ∀ later, Later C config state later → ∀ wire payload publicKey publicKey',
    signature C command = .ok ⟨payload, publicKey⟩ →
    signature C wire = .ok ⟨payload, publicKey'⟩ →
    ∀ timestamp next, apply C later wire config timestamp ≠ .ok next

variable {state : State Order} {command : Json}

variable {state' : State Order}

theorem Dead.later (h : Dead C config state command) (hlater : Later C config state state') :
    Dead C config state' command :=
  fun later hlater' => h later (hlater.trans hlater')

/-- A command that an earlier state has accepted. -/
def Validated (C : Codec) (config : Config) (state : State Order) (command : Json) : Prop :=
  ∃ earlier timestamp next, Reachable C config earlier ∧ Later C config earlier state ∧
    apply C earlier command config timestamp = .ok next

theorem Validated.later (h : Validated C config state command)
    (hlater : Later C config state state') : Validated C config state' command := by
  obtain ⟨earlier, timestamp, next, hreach, hbefore, happly⟩ := h
  exact ⟨earlier, timestamp, next, hreach, hbefore.trans hlater, happly⟩

/-! ### The test for stale commands -/

/-- What makes a command stale: its nonce is spent, or it reviewed an order
whose commitment is another now. -/
inductive Stale (C : Codec) (state : State Order) (payload : Json) : Prop
  | spent (owner : String) (nonce : Int) (actor : payload.get? "actor" = some (.str owner))
      (number : payload.get? "nonce" = some (.int nonce))
      (used : nonce ≤ (state.account owner).nonce)
  | changed (action : OrderAction) (value : Json) (id : String) (order : Order)
      (named : payload.get? "action" = some (.str action.name))
      (payload_value : payload.get? "value" = some value)
      (order_id : value.get? "order_id" = some (.str id))
      (found : state.orders.get? id = some order)
      (other : value.get? "reviewed_order" ≠ some (.str (orderCommitment C order)))

theorem stale_ok (h : stale C state command = .ok true) :
    ∃ payload, command.get? "payload" = some payload ∧
      (∃ owner, payload.get? "actor" = some owner) ∧ Stale C state payload := by
  simp only [stale, bind_ok, need_ok, Checked.demand_ok, pure_ok, Bool.or_eq_true,
    decide_eq_true_eq] at h
  obtain ⟨payload, hpayload, owner, howner, nonce, hnonce, value, hvalue, actionJson, haction,
    action, hread, found, hfind, h⟩ := h
  obtain ⟨v, hactor, hv⟩ := Option.bind_eq_some_iff.mp howner
  obtain rfl : v = .str owner := by cases v <;> simp_all [Json.asStr?]
  obtain ⟨w, hnumber, hw⟩ := Option.bind_eq_some_iff.mp hnonce
  obtain rfl : w = .int nonce := by cases w <;> simp_all [Json.asInt?]
  refine ⟨payload, hpayload, ⟨_, hactor⟩, ?_⟩
  rcases h with hspent | hchanged
  · exact .spent owner nonce hactor hnumber hspent
  · split at hchanged
    · next act id order =>
      obtain ⟨horder, hget⟩ := find_ok hfind rfl
      exact .changed act value id order (readAction_order hread ▸ haction) hvalue horder hget
        (by simpa using hchanged)
    · cases hchanged

/-- **A stale command is dead**, once it has been validated. -/
theorem Validated.dead (hinj : Function.Injective C.sha256) (h : Validated C config state command)
    (hstale : stale C state command = .ok true) : Dead C config state command := by
  obtain ⟨earlier, timestamp, next, hreach, hbefore, happly⟩ := h
  obtain ⟨raw, hraw, ⟨_, hfield⟩, hstale⟩ := stale_ok hstale
  intro later hlater wire payload publicKey publicKey' hsigned hwire time after hafter
  obtain rfl : payload = raw := by
    have hdict := (signature_ok hsigned).1
    rw [hraw] at hdict
    exact Json.dict?_of_get? hfield hdict
  have hinvariant := (hreach.later hbefore).invariant
  cases hstale with
  | spent owner nonce actor number used =>
    obtain ⟨operation, owner', nonce', hheader, -⟩ :=
      apply_header (Later.invariant hinvariant hlater) hafter
    obtain ⟨payload', key', hsigned', -, hactor', hnumber'⟩ := hheader.signed
    obtain rfl : payload = payload' :=
      congrArg SignedPayload.payload (Except.ok.inj (hwire.symm.trans hsigned'))
    obtain rfl : owner = owner' := by simpa using actor.symm.trans hactor'
    obtain rfl : nonce = nonce' := by simpa using number.symm.trans hnumber'
    exact nonce_spent hinvariant hlater hheader used time hafter
  | changed action value id order named payload_value order_id found other =>
    obtain ⟨cmd, payload', _, _, happlied⟩ := apply_ok happly
    obtain rfl : payload = payload' :=
      congrArg SignedPayload.payload (Except.ok.inj (hsigned.symm.trans happlied.read.signed))
    have hcommand : OrderCommand C command action id cmd.owner value :=
      ⟨⟨payload, publicKey, hsigned, happlied.read.actor_eq, named, payload_value⟩, order_id⟩
    have hwire' : OrderCommand C wire action id cmd.owner value :=
      ⟨⟨payload, publicKey', hwire, happlied.read.actor_eq, named, payload_value⟩, order_id⟩
    obtain ⟨reviewed, _, horder⟩ := apply_orderCommand hreach.invariant hcommand happly
    have hne : order ≠ reviewed := by
      rintro rfl
      exact other horder.reviewed
    exact reviewed_record_changed hinj hreach.invariant hbefore hlater horder.found found hne
      ⟨action, cmd.owner, value, hwire', horder.reviewed⟩ time after hafter

/-! ### Runs of a node -/

/-- **What a node keeps about its intents.**  A stored command was validated,
and one that was given up is dead. -/
structure Node.Confirmed (C : Codec) (node : Node) : Prop where
  unset : node.process.db.manifest = none →
    node.superseded = [] ∧ ∀ id, node.call ≠ .superseding id
  validated : ∀ chain state, node.process.At C chain state → ∀ id intent,
    node.process.db.intents.get? id = some intent →
    Validated C chain.config state intent.command
  dying : ∀ chain state, node.process.At C chain state → ∀ id, node.call = .superseding id →
    ∃ intent, node.process.db.intents.get? id = some intent ∧
      Dead C chain.config state intent.command
  dead : ∀ chain state, node.process.At C chain state → ∀ id ∈ node.superseded,
    ∃ intent, node.process.db.intents.get? id = some intent ∧
      Dead C chain.config state intent.command

theorem Node.new_confirmed : Node.new.Confirmed C where
  unset _ := ⟨rfl, nofun⟩
  validated _ _ _ _ _ h := by cases h
  dying _ _ _ _ h := by cases h
  dead _ _ _ _ h := by cases h

variable {node : Node}

/-- A node whose tables and given up intents did not change. -/
theorem Node.Confirmed.congr {node' : Node} (h : node.Confirmed C)
    (hdb : node'.process.db = node.process.db) (hsuperseded : node'.superseded = node.superseded)
    (hcall : ∀ id, node'.call ≠ .superseding id) : node'.Confirmed C := by
  have hat : ∀ {chain state}, node'.process.At C chain state → node.process.At C chain state :=
    fun hat => ⟨hdb ▸ hat.follows, hat.state⟩
  refine ⟨fun hnone => ⟨?_, hcall⟩, fun chain state hnode => ?_,
    fun chain state _ id hid => absurd hid (hcall id), fun chain state hnode => ?_⟩
  · rw [hsuperseded]
    exact (h.unset (hdb ▸ hnone)).1
  · rw [hdb]
    exact h.validated chain state (hat hnode)
  · rw [hdb, hsuperseded]
    exact h.dead chain state (hat hnode)

variable {chain : Chain}

theorem Node.Confirmed.advance (h : node.Confirmed C) (hnode : node.process.At C chain state)
    (hlater : Later C chain.config state state') (intents : Dict String Intent)
    (hold : ∀ id intent, intents.get? id = some intent →
      ∃ old, node.process.db.intents.get? id = some old ∧ old.command = intent.command)
    (hnew : ∀ id intent, node.process.db.intents.get? id = some intent →
      ∃ new, intents.get? id = some new ∧ new.command = intent.command) :
    (∀ id intent, intents.get? id = some intent → Validated C chain.config state' intent.command) ∧
    (∀ id, node.call = .superseding id ∨ id ∈ node.superseded →
      ∃ intent, intents.get? id = some intent ∧ Dead C chain.config state' intent.command) := by
  refine ⟨fun id intent hget => ?_, fun id hid => ?_⟩
  · obtain ⟨old, hold, hcommand⟩ := hold id intent hget
    rw [← hcommand]
    exact (h.validated chain state hnode id old hold).later hlater
  · obtain ⟨intent, hget, hdead⟩ : ∃ intent, node.process.db.intents.get? id = some intent ∧
        Dead C chain.config state intent.command :=
      hid.elim (h.dying chain state hnode id) (h.dead chain state hnode id)
    obtain ⟨new, hnew, hcommand⟩ := hnew id intent hget
    exact ⟨new, hnew, hcommand ▸ hdead.later hlater⟩

variable {ledger : Ledger}

theorem Node.Sound.at_running (h : node.Sound C) (hrunning : node.process = .running ledger)
    (hchain : ledger.chain = some chain) (hstate : chain.state = .current state) :
    node.process.At C chain state := by
  have hrecovers := h.recovers
  rw [hrunning] at hrecovers
  refine ⟨?_, hstate⟩
  rw [hrunning]
  exact hrecovers.running.follows hchain

theorem Process.At.of_intents {p q : Process} {intents : Dict String Intent}
    (h : q.At C chain state) (hp : p = .running ledger)
    (hq : q = .running { ledger with db := { ledger.db with intents } }) : p.At C chain state := by
  subst hp hq
  exact ⟨h.follows.congr rfl rfl, h.state⟩

theorem Node.Confirmed.status {node' : Node} (h : node.Confirmed C) {id : String}
    (hrunning : node.process = .running ledger)
    (hprocess : node'.process = .running { ledger with db := { ledger.db with
      intents := setStatus .superseded ledger.db.intents id } }) (hcall : node'.call = .idle)
    (hsuperseded : ∀ k ∈ node'.superseded, node.call = .superseding k ∨ k ∈ node.superseded) :
    node'.Confirmed C := by
  have hadvance : ∀ {chain state}, node'.process.At C chain state → _ := fun {chain state} hat =>
    h.advance (hat.of_intents hrunning hprocess) (Later.refl state)
      (setStatus .superseded ledger.db.intents id)
      (fun k intent hget => by
        obtain ⟨old, hold, hcommand, -⟩ := of_get?_setStatus hget
        exact ⟨old, hrunning ▸ hold, hcommand⟩)
      (fun k intent hget => by
        obtain ⟨new, hnew, hcommand, -⟩ := get?_setStatus_of .superseded id (hrunning ▸ hget)
        exact ⟨new, hnew, hcommand⟩)
  refine ⟨fun hnone => ⟨?_, fun k => by simp [hcall]⟩, fun chain state hat => ?_,
    fun chain state hat k hk => by simp [hcall] at hk, fun chain state hat k hk => ?_⟩
  · rw [hprocess] at hnone
    obtain ⟨hempty, hcalls⟩ := h.unset (hrunning ▸ hnone)
    refine List.eq_nil_iff_forall_not_mem.mpr fun k hk => ?_
    rcases hsuperseded k hk with hcalling | hmem
    · exact hcalls k hcalling
    · simp [hempty] at hmem
  · rw [hprocess]
    exact (hadvance hat).1
  · rw [hprocess]
    exact (hadvance hat).2 k (hsuperseded k hk)

theorem NodeStep.confirmed (hinj : Function.Injective C.sha256) {key : String} {node' : Node}
    {event : Event} (hsound : node.Sound C) (h : node.Confirmed C)
    (hstep : NodeStep C key node event node') : node'.Confirmed C := by
  cases hstep with
  | @ledger label q next kept =>
    have hprogress : ∀ {chain state}, Follows C q.db chain → chain.state = .current state →
        Progress C node.process label q chain state :=
      fun hfollows hstate => (next.effect hinj hsound.recovers).progress kept hfollows hstate
    have hcall : ∀ id, q.keeps node.call = .superseding id → node.call = .superseding id := by
      intro id hid
      cases q with
      | running => exact hid
      | stopped => cases hid
    have hview : ∀ chain state, Follows C q.db chain → chain.state = .current state →
        (∀ id intent, q.db.intents.get? id = some intent →
          Validated C chain.config state intent.command) ∧
        ∀ id, node.call = .superseding id ∨ id ∈ node.superseded →
          ∃ intent, q.db.intents.get? id = some intent ∧
            Dead C chain.config state intent.command := by
      intro chain state hfollows hstate
      cases hprogress hfollows hstate with
      | same before follows current config intents =>
        rw [intents, config]
        exact h.advance ⟨follows, current⟩ (Later.refl state) _
          (fun _ intent hget => ⟨intent, hget, rfl⟩) (fun _ intent hget => ⟨intent, hget, rfl⟩)
      | configured unset intents =>
        obtain ⟨hnone, hcalls⟩ := h.unset unset
        have hempty := hsound.fresh unset
        refine ⟨fun id intent hget => ?_, fun id hid => ?_⟩
        · rw [intents, Dict.get?_eq_some_iff, hempty] at hget
          cases hget
        · rcases hid with hid | hid
          · exact absurd hid (hcalls id)
          · simp [hnone] at hid
      | committed before state' certificate proposal wire timestamp operation delivered follows
          current config carries command named applied intents =>
          rw [intents, config]
          refine h.advance ⟨follows, current⟩ (Later.of_apply applied) _ ?_ ?_
          · intro id intent hget
            obtain ⟨old, hold, hcommand, -⟩ := of_get?_setStatus hget
            exact ⟨old, hold, hcommand⟩
          · intro id intent hget
            obtain ⟨new, hnew, hcommand, -⟩ := get?_setStatus_of .committed operation hget
            exact ⟨new, hnew, hcommand⟩
    refine ⟨fun hnone => ?_, fun chain state hat => (hview chain state hat.follows hat.state).1,
      fun chain state hat id hid =>
        (hview chain state hat.follows hat.state).2 id (.inl (hcall id hid)),
      fun chain state hat id hid =>
        (hview chain state hat.follows hat.state).2 id (.inr hid)⟩
    have hunset : node.process.db.manifest = none := by
      rcases next.manifest hsound.recovers with hsame | ⟨config, -, -, hset⟩
      · exact hsame.symm.trans hnone
      · exact absurd (hset.symm.trans hnone) (by simp)
    obtain ⟨hempty, hcalls⟩ := h.unset hunset
    exact ⟨hempty, fun id hid => hcalls id (hcall id hid)⟩
  | @stored ledger actor request prepared command now size db running call signed stored =>
    obtain ⟨rfl, hfresh, chain₀, state₀, timestamp, after, hchain, hstate, happly⟩ :=
      storeIntent_ok stored
    have hat₀ := hsound.at_running running hchain hstate
    have hget : ∀ id, id ≠ request.operation → (ledger.db.intents.set request.operation
        { fingerprint := fingerprint C actor request, command, status := .pending }).get? id =
          node.process.db.intents.get? id := by
      intro id hne
      rw [Dict.get?_set_ne _ _ hne, running]
      rfl
    refine ⟨fun hnone => ?_, fun chain state hat id intent hintent => ?_, fun _ _ _ _ hid => ?_,
      fun chain state hat id hid => ?_⟩
    · have hmanifest := hat₀.follows.manifest
      rw [running] at hmanifest
      exact absurd (hmanifest.symm.trans hnone) (by simp)
    · obtain ⟨rfl, rfl⟩ := hat₀.unique (hat.of_intents running rfl)
      by_cases hid : id = request.operation
      · subst hid
        obtain rfl : _ = intent := Option.mem_unique (Dict.get?_set_self _ _ _) hintent
        exact ⟨state₀, timestamp, after, hat₀.reachable, Later.refl _, happly⟩
      · exact h.validated chain₀ state₀ hat₀ id intent ((hget id hid).symm.trans hintent)
    · cases hid
    · obtain ⟨rfl, rfl⟩ := hat₀.unique (hat.of_intents running rfl)
      obtain ⟨intent, hintent, hdead⟩ := h.dead chain₀ state₀ hat₀ id hid
      have hne : id ≠ request.operation := by
        rintro rfl
        rw [running] at hintent
        exact hfresh (Dict.mem_keys_of_get? hintent)
      exact ⟨intent, (hget id hne).trans hintent, hdead⟩
  | @superseding ledger chain₀ state₀ id intent running idle open_ current found pending old =>
    simp only [writable, ready, bind_ok, demand_ok, require_ok, pure_ok] at open_
    obtain ⟨_, hchain, -, -, rfl⟩ := open_
    have hat₀ := hsound.at_running running hchain current
    have hget : node.process.db.intents.get? id = some intent := by
      rw [running]
      exact found
    refine ⟨fun hnone => ?_, h.validated, fun chain state hat k hk => ?_, h.dead⟩
    · have hmanifest := hat₀.follows.manifest
      exact absurd (hmanifest.symm.trans hnone) (by simp)
    · obtain rfl : id = k := Call.superseding.inj hk
      obtain ⟨rfl, rfl⟩ := hat₀.unique hat
      exact ⟨intent, hget, (h.validated _ state₀ hat₀ id intent hget).dead hinj old⟩
  | outdated running => exact h.status running rfl rfl fun k hk => .inr hk
  | @superseded ledger id running call =>
    refine h.status running rfl rfl fun k hk => ?_
    rcases List.mem_append.mp hk with hk | hk
    · exact .inr hk
    · exact .inl (List.mem_singleton.mp hk ▸ call)
  | @interrupted ledger actor request prepared command size running call =>
    exact h.congr (by rw [running]; rfl) rfl nofun
  | opened | found | resubmitted | refused | answered | retried | returned =>
    exact h.congr rfl rfl nofun

theorem NodeRun.confirmed (hinj : Function.Injective C.sha256) {key : String}
    {P : Node → Event → Prop} (h : NodeRun C key P node) : node.Confirmed C := by
  induction h with
  | new => exact Node.new_confirmed
  | step before _ next ih => exact next.confirmed hinj (before.sound hinj) ih

/-- **Given up is never applied**: no certified history that extends the node's
chain carries the intent's payload in a later block, under any signature. -/
def NeverApplied (C : Codec) (chain : Chain) (entries : List (Nat × Block))
    (command : Json) : Prop :=
  ∀ rows chain', History C chain.config (entries ++ rows) chain' →
    ∀ row ∈ rows, ∀ proposal wire, row.2.certificate.get? "proposal" = some proposal →
      proposal.get? "command" = some wire → ∀ payload publicKey publicKey',
        signature C command = .ok ⟨payload, publicKey⟩ →
        signature C wire ≠ .ok ⟨payload, publicKey'⟩

theorem Dead.neverApplied (h : Dead C chain.config state command) {entries : List (Nat × Block)}
    (hhistory : History C chain.config entries chain) (hstate : chain.state = .current state)
    (hversion : chain.config.version = VERSION) : NeverApplied C chain entries command := by
  intro rows chain' hextends row hrow proposal wire hcarries hcommand payload publicKey publicKey'
    hsigned hwire
  obtain ⟨before, after, rfl⟩ := List.append_of_mem hrow
  rw [← List.append_assoc] at hextends
  obtain ⟨prior, next, hprior, hreplayed, hnext⟩ := hextends.split
  obtain ⟨state', hstate'⟩ := hnext.current hversion
  obtain ⟨prior', proposal', wire', timestamp, hblock⟩ := replayBlock_current hreplayed hstate'
  obtain rfl := Option.mem_unique hcarries hblock.carries
  obtain rfl := Option.mem_unique hcommand hblock.command
  have happlied := hblock.applied
  rw [hprior.config_eq.1] at happlied
  exact h prior' (hhistory.later hprior hstate hblock.current) wire payload publicKey publicKey'
    hsigned hwire timestamp state' happlied

/-! ### Stale confirmations -/

/-- **A stale confirmation is dead forever.**  Along every run of the rules, and
for every node:

* once a command was applied, it is refused in every later state, and so is any
  command with its operation id, or with a nonce its actor has spent;
* an order command is applied only while the record it reviewed is current;
* once the record has changed, its commitment never recurs and a command that
  reviewed it is refused in every later state;
* an intent that a node marked superseded on resuming is never applied by any
  certified history that extends the node's chain. -/
theorem stale_confirmation_dead (C : Codec) (hinj : Function.Injective C.sha256) :
    (∀ config a wire timestamp b operation owner nonce, Reachable C config a →
      apply C a wire config timestamp = .ok b → CommandHeader C wire operation owner nonce →
      ∀ c, Later C config b c → ∀ wire' operation' owner' nonce',
        CommandHeader C wire' operation' owner' nonce' →
        operation' = operation ∨ owner' = owner ∧ nonce' ≤ nonce →
        ∀ timestamp' d, apply C c wire' config timestamp' ≠ .ok d) ∧
    (∀ config a b id reviewed wire timestamp c, Reachable C config a → Later C config a b →
      a.orders.get? id = some reviewed → ReviewedOrder C wire id reviewed →
      apply C b wire config timestamp = .ok c → b.orders.get? id = some reviewed) ∧
    (∀ config a b c id reviewed changed, Reachable C config a → Later C config a b →
      Later C config b c → a.orders.get? id = some reviewed → b.orders.get? id = some changed →
      changed ≠ reviewed →
      (∀ current, c.orders.get? id = some current →
        orderCommitment C current ≠ orderCommitment C reviewed) ∧
      ∀ wire, ReviewedOrder C wire id reviewed →
        ∀ timestamp d, apply C c wire config timestamp ≠ .ok d) ∧
    (∀ key P node chain, NodeRun C key P node → node.process.chain? C = some chain →
      ∀ id ∈ node.superseded, ∃ intent, node.process.db.intents.get? id = some intent ∧
        NeverApplied C chain node.process.db.blocks.entries intent.command) := by
  refine ⟨?_, ?_, ?_, ?_⟩
  · intro config a wire timestamp b operation owner nonce hreach happly hheader c hlater wire'
      operation' owner' nonce' hheader' hreused timestamp' d
    obtain ⟨operation₁, owner₁, nonce₁, hheader₁, happlied⟩ := apply_header hreach.invariant happly
    obtain ⟨rfl, rfl, rfl⟩ := hheader.unique hheader₁
    have hinvariant := apply_invariant hreach.invariant happly
    rcases hreused with rfl | ⟨rfl, hle⟩
    · exact operation_spent hinvariant hlater hheader' happlied.known timestamp'
    · exact nonce_spent hinvariant hlater hheader' (hle.trans happlied.spent.ge) timestamp'
  · intro config a b id reviewed wire timestamp c hreach hlater hget hreviewed happly
    exact applied_while_reviewed hinj hreach.invariant hlater hget hreviewed happly
  · intro config a b c id reviewed changed hreach hab hbc hreviewed hchanged hne
    refine ⟨fun current hcurrent => ?_, fun wire hwire timestamp d => ?_⟩
    · exact commitment_never_recurs hinj hreach.invariant hab hbc hreviewed hchanged hne hcurrent
    · exact reviewed_record_changed hinj hreach.invariant hab hbc hreviewed hchanged hne hwire
        timestamp d
  · intro key P node chain hrun hchain id hid
    have hsound := hrun.sound hinj
    obtain ⟨state, hat⟩ := hsound.at_of_chain hchain
    obtain ⟨intent, hget, hdead⟩ := (hrun.confirmed hinj).dead chain state hat id hid
    exact ⟨intent, hget, hdead.neverApplied hat.follows.history hat.state
      (hsound.current chain.config hat.follows.accepted hat.follows.manifest)⟩

/-- The profile command of the first block is accepted once and then never
again, in any state that later commands lead to. -/
theorem stale_confirmation_dead_sample : ∃ registered,
    apply .sample (initialState sampleConfig) (sampleProfile .sample 'Q') sampleConfig 1000
      = .ok registered ∧
    ∀ later, Later .sample sampleConfig registered later → ∀ timestamp state,
      apply .sample later (sampleProfile .sample 'Q') sampleConfig timestamp ≠ .ok state := by
  obtain ⟨registered, happly⟩ := sampleProfile_accepted
  have hreach : Reachable .sample sampleConfig (initialState sampleConfig) := Later.refl _
  obtain ⟨operation, owner, nonce, hheader, -⟩ := apply_header hreach.invariant happly
  refine ⟨registered, happly, fun later hlater timestamp state => ?_⟩
  exact (stale_confirmation_dead .sample Codec.sample_injective).1 _ _ _ _ _ _ _ _ hreach
    happly hheader later hlater _ _ _ _ hheader (.inl rfl) timestamp state

end Exchange
