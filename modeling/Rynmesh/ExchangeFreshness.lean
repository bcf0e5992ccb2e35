import Rynmesh.ExchangeRuns

/-!
# A stale confirmation is dead

Three things make a signed command unrepeatable: its operation id and its nonce
stay on record, and an order command names the commitment of the order record
its signer reviewed.  Every order action runs the order's operation reserve
down, so a commitment never recurs once the record has changed.
-/

namespace Exchange

open Checked

variable {C : Codec} {config : Config} {a b c : State Order}

/-! ### Operation ids and nonces -/

/-- What a signed wire says about its actor, operation and nonce. -/
structure CommandHeader (C : Codec) (wire : Json) (operation owner : String) (nonce : Int) :
    Prop where
  signed : ∃ payload publicKey, signature C wire = .ok ⟨payload, publicKey⟩ ∧
    payload.get? "id" = some (.str operation) ∧ payload.get? "actor" = some (.str owner) ∧
    payload.get? "nonce" = some (.int nonce)

/-- An accepted command had a fresh id and the next nonce, and put both on
record. -/
structure HeaderApplied (a b : State Order) (operation owner : String) (nonce : Int) : Prop where
  fresh : operation ∉ a.operations.keys
  next : nonce = (a.account owner).nonce + 1
  known : operation ∈ b.operations.keys
  spent : (b.account owner).nonce = nonce

variable {wire : Json}

theorem apply_header (ha : Invariant config a) {timestamp : Int}
    (h : apply C a wire config timestamp = .ok b) :
    ∃ operation owner nonce, CommandHeader C wire operation owner nonce ∧
      HeaderApplied a b operation owner nonce := by
  obtain ⟨cmd, payload, action, performed, happlied⟩ := apply_ok h
  have hread := happlied.read
  have hrecord := happlied.onRecord ha
  refine ⟨cmd.id, cmd.owner, _, ⟨payload, cmd.publicKey, hread.signed, hread.id_eq, hread.actor_eq,
    hread.nonce_eq⟩, hread.fresh, rfl, ?_, ?_⟩
  · rw [hrecord.operation]
    exact Dict.mem_keys_set.mpr (.inl rfl)
  · simp [hrecord.nonce]

theorem CommandHeader.unique {operation operation' owner owner' : String} {nonce nonce' : Int}
    (h : CommandHeader C wire operation owner nonce)
    (h' : CommandHeader C wire operation' owner' nonce') :
    operation = operation' ∧ owner = owner' ∧ nonce = nonce' := by
  obtain ⟨payload, publicKey, hsigned, hid, hactor, hnonce⟩ := h
  obtain ⟨payload', publicKey', hsigned', hid', hactor', hnonce'⟩ := h'
  obtain rfl : payload = payload' :=
    congrArg SignedPayload.payload (Except.ok.inj (hsigned.symm.trans hsigned'))
  exact ⟨by simpa using hid.symm.trans hid', by simpa using hactor.symm.trans hactor',
    by simpa using hnonce.symm.trans hnonce'⟩

theorem operation_spent (ha : Invariant config a) (hlater : Later C config a b)
    {operation owner : String} {nonce : Int} (hheader : CommandHeader C wire operation owner nonce)
    (hknown : operation ∈ a.operations.keys) (timestamp : Int) :
    apply C b wire config timestamp ≠ .ok c := by
  intro h
  obtain ⟨operation', owner', nonce', hheader', happlied⟩ :=
    apply_header (Later.invariant ha hlater) h
  obtain ⟨rfl, -, -⟩ := hheader.unique hheader'
  exact happlied.fresh ((Later.advances ha hlater).known hknown)

theorem nonce_spent (ha : Invariant config a) (hlater : Later C config a b)
    {operation owner : String} {nonce : Int} (hheader : CommandHeader C wire operation owner nonce)
    (hspent : nonce ≤ (a.account owner).nonce) (timestamp : Int) :
    apply C b wire config timestamp ≠ .ok c := by
  intro h
  obtain ⟨operation', owner', nonce', hheader', happlied⟩ :=
    apply_header (Later.invariant ha hlater) h
  obtain ⟨-, rfl, rfl⟩ := hheader.unique hheader'
  have hmono := (Later.advances ha hlater).nonce owner
  have hnext := happlied.next
  omega

/-! ### Commitments of orders -/

theorem Order.toJson_remainingOps (order : Order) :
    order.toJson.get? "remaining_ops" = some (.int order.remainingOps) := by
  simp [Order.toJson]

theorem Evolves.commitment_ne (hinj : Function.Injective C.sha256) {order order' : Order}
    (h : Evolves order order') (hne : order' ≠ order) :
    orderCommitment C order' ≠ orderCommitment C order := by
  intro heq
  have hops := congrArg (fun v => v.get? "remaining_ops") (hinj heq)
  simp only [Order.toJson_remainingOps, Option.some.injEq, Json.int.injEq] at hops
  have := h.operations.resolve_left hne
  omega

/-- **A commitment never recurs** once the record has changed. -/
theorem commitment_never_recurs (hinj : Function.Injective C.sha256) (ha : Invariant config a)
    (hab : Later C config a b) (hbc : Later C config b c) {id : String}
    {reviewed changed current : Order} (hreviewed : a.orders.get? id = some reviewed)
    (hchanged : b.orders.get? id = some changed) (hne : changed ≠ reviewed)
    (hcurrent : c.orders.get? id = some current) :
    orderCommitment C current ≠ orderCommitment C reviewed := by
  obtain ⟨changed', hget, hevolves⟩ := Later.order ha hab hreviewed
  obtain rfl : changed' = changed := Option.mem_unique hget hchanged
  obtain ⟨current', hget', hevolves'⟩ := Later.order (Later.invariant ha hab) hbc hchanged
  obtain rfl : current' = current := Option.mem_unique hget' hcurrent
  refine (hevolves.trans hevolves').commitment_ne hinj fun heq => ?_
  have h1 := hevolves.operations.resolve_left hne
  rcases hevolves'.operations with rfl | h2
  · exact hne heq
  · rw [heq] at h2
    omega

/-- A command for an order, by any action and account. -/
def ReviewedOrder (C : Codec) (wire : Json) (id : String) (reviewed : Order) : Prop :=
  ∃ action owner value, OrderCommand C wire action id owner value ∧
    value.get? "reviewed_order" = some (.str (orderCommitment C reviewed))

/-- **An order command is applied only while the record it reviewed is
current.** -/
theorem applied_while_reviewed (hinj : Function.Injective C.sha256) (ha : Invariant config a)
    (hab : Later C config a b) {id : String} {reviewed : Order}
    (hreviewed : a.orders.get? id = some reviewed) (hcommand : ReviewedOrder C wire id reviewed)
    {timestamp : Int} (happly : apply C b wire config timestamp = .ok c) :
    b.orders.get? id = some reviewed := by
  obtain ⟨action, owner, value, hcommand, hvalue⟩ := hcommand
  obtain ⟨current, order', happlied⟩ :=
    apply_orderCommand (Later.invariant ha hab) hcommand happly
  obtain ⟨current', hget, hevolves⟩ := Later.order ha hab hreviewed
  obtain rfl : current' = current := Option.mem_unique hget happlied.found
  have hsame : orderCommitment C current' = orderCommitment C reviewed := by
    have := happlied.reviewed.symm.trans hvalue
    simpa using this
  have heq : current' = reviewed := by
    by_contra hne
    exact hevolves.commitment_ne hinj hne hsame
  exact heq ▸ hget

theorem reviewed_record_changed (hinj : Function.Injective C.sha256) (ha : Invariant config a)
    (hab : Later C config a b) (hbc : Later C config b c) {id : String} {reviewed changed : Order}
    (hreviewed : a.orders.get? id = some reviewed) (hchanged : b.orders.get? id = some changed)
    (hne : changed ≠ reviewed) (hcommand : ReviewedOrder C wire id reviewed) (timestamp : Int)
    (next : State Order) : apply C c wire config timestamp ≠ .ok next := by
  intro happly
  have hcurrent := applied_while_reviewed hinj ha (hab.trans hbc) hreviewed hcommand happly
  exact commitment_never_recurs hinj ha hab hbc hreviewed hchanged hne hcurrent rfl

end Exchange
