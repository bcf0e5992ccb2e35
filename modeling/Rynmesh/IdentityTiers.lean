import Rynmesh.CreditLedger
import Rynmesh.SignedDocuments

/-!
# Identity tiers

`assess_identity` of `identity.py`: the tier that a peer has from signed vouches, stake
commitments and proofs of resource.

* `verifyPeerVouch`, `verifyStakeCommitment` and `verifyProofOfResource` check a claim;
* `vouchOf`, `stakeOf` and `proofOf` are what one turn of a loop takes from a claim;
* `assessIdentity` runs the loops and decides the tier.

Amounts and times are exact: a time is a number of microseconds from the start of year 1.
-/

namespace Identity

open Checked Documents
open Credits (IdentityTier zoned)

/-- A date and time as it was read: with its offset from UTC, unless it has none. -/
structure DateTime where
  local_ : Int
  offset : Option Int

/-- What the code takes from Python's clock and formats, beside the platform: reading a
timestamp, and `f"{amount:.2f}"`. -/
structure Times where
  fromisoformat : String → Option DateTime
  fixed : Rat → String

variable (p : Platform) (times : Times)

/-! ### Claims -/

/-- `IDENTITY_VERSION`. -/
def identityVersion : String := "rynmesh-identity-v0.1"

/-- The default policy has 3, 1, 50, 168 and 365. -/
structure IdentityPolicy where
  minVouchesForAttested : Int
  stakeMinAmount : Rat
  provenMinFullServed : Rat
  provenMinUptimeHours : Rat
  vouchValidityDays : Rat

structure PeerVouch where
  identityVersion : String
  issuedAt : String
  subjectPeerId : String
  issuerPeerId : String
  reason : String

structure StakeCommitment where
  identityVersion : String
  issuedAt : String
  subjectPeerId : String
  stakeKind : String
  stakeAmount : PyFloat
  evidenceHash : String
  lockedUntil : String

structure ProofOfResource where
  identityVersion : String
  issuedAt : String
  subjectPeerId : String
  issuerPeerId : String
  metric : String
  measuredValue : PyFloat
  windowStart : String
  windowEnd : String
  evidenceHash : String

/-- `payload.get("claim_type") != name`. -/
def requireType (payload : Mapping) (name error : String) : Except Fault Unit :=
  require (.identityError error) (payload.get? "claim_type" = some (.str name))

/-- `PeerVouch.from_payload`. -/
def PeerVouch.fromPayload (payload : Mapping) : Except Fault PeerVouch := do
  requireType payload "peer_vouch" "not_a_peer_vouch"
  let issuedAt ← textItem p payload "issued_at"
  let subjectPeerId ← textItem p payload "subject_peer_id"
  let issuerPeerId ← textItem p payload "issuer_peer_id"
  pure
    { identityVersion := textField p payload "identity_version" Identity.identityVersion
      issuedAt
      subjectPeerId
      issuerPeerId
      reason := textField p payload "reason" "" }

/-- `StakeCommitment.from_payload`. -/
def StakeCommitment.fromPayload (payload : Mapping) : Except Fault StakeCommitment := do
  requireType payload "stake_commitment" "not_a_stake_commitment"
  let issuedAt ← textItem p payload "issued_at"
  let subjectPeerId ← textItem p payload "subject_peer_id"
  let stakeKind ← textItem p payload "stake_kind"
  let stakeAmount ← payload.item "stake_amount"
  let stakeAmount ← float p stakeAmount
  pure
    { identityVersion := textField p payload "identity_version" Identity.identityVersion
      issuedAt
      subjectPeerId
      stakeKind
      stakeAmount
      evidenceHash := textField p payload "evidence_hash" ""
      lockedUntil := textField p payload "locked_until" "" }

/-- `ProofOfResource.from_payload`. -/
def ProofOfResource.fromPayload (payload : Mapping) : Except Fault ProofOfResource := do
  requireType payload "proof_of_resource" "not_a_proof_of_resource"
  let issuedAt ← textItem p payload "issued_at"
  let subjectPeerId ← textItem p payload "subject_peer_id"
  let issuerPeerId ← textItem p payload "issuer_peer_id"
  let metric ← textItem p payload "metric"
  let measuredValue ← payload.item "measured_value"
  let measuredValue ← float p measuredValue
  let windowStart ← textItem p payload "window_start"
  let windowEnd ← textItem p payload "window_end"
  pure
    { identityVersion := textField p payload "identity_version" Identity.identityVersion
      issuedAt
      subjectPeerId
      issuerPeerId
      metric
      measuredValue
      windowStart
      windowEnd
      evidenceHash := textField p payload "evidence_hash" "" }

/-! ### Verification -/

/-- `except SignatureError`, raised again as an `IdentityError`. -/
def invalidSignature : Fault → Fault
  | .signatureError text => .identityError ("identity_signature_invalid: " ++ text)
  | fault => fault

/-- `verify_peer_vouch`. -/
def verifyPeerVouch (signed : SignedPayload) : Except Fault PeerVouch := do
  (verifySignedPayload p signed).mapError invalidSignature
  let vouch ← PeerVouch.fromPayload p signed.payload
  require (.identityError "vouch_issuer_key_mismatch") (vouch.issuerPeerId = signed.publicKey)
  require (.identityError "vouch_self_issued") (vouch.subjectPeerId ≠ vouch.issuerPeerId)
  pure vouch

/-- `verify_stake_commitment`. -/
def verifyStakeCommitment (signed : SignedPayload) : Except Fault StakeCommitment := do
  (verifySignedPayload p signed).mapError invalidSignature
  let stake ← StakeCommitment.fromPayload p signed.payload
  require (.identityError "stake_subject_key_mismatch") (stake.subjectPeerId = signed.publicKey)
  require (.identityError "stake_amount_invalid")
    (∃ amount, stake.stakeAmount = some amount ∧ 0 < amount)
  pure stake

/-- `verify_proof_of_resource`. -/
def verifyProofOfResource (signed : SignedPayload) : Except Fault ProofOfResource := do
  (verifySignedPayload p signed).mapError invalidSignature
  let proof ← ProofOfResource.fromPayload p signed.payload
  require (.identityError "proof_issuer_key_mismatch") (proof.issuerPeerId = signed.publicKey)
  require (.identityError "proof_self_issued") (proof.subjectPeerId ≠ proof.issuerPeerId)
  require (.identityError "proof_value_invalid")
    (∃ value, proof.measuredValue = some value ∧ 0 ≤ value)
  pure proof

/-! ### Times -/

/-- Microseconds in a day. -/
def dayMicros : Int := 86400000000

/-- The first microsecond after the last day that a date can have. -/
def endOfTime : Int := 3652059 * dayMicros

/-- `_parse_iso`, none where it returns none: the time in UTC. -/
def parseIso (value : String) : Except Fault (Option Int) :=
  if value = "" then .ok none
  else
    match times.fromisoformat (zoned value) with
    | none => .ok none
    | some ⟨time, none⟩ => .ok (some time)
    | some ⟨time, some offset⟩ => do
        require (.overflowError "date value out of range")
          (0 ≤ time - offset ∧ time - offset < endOfTime)
        pure (some (time - offset))

/-- `timedelta(days=days)`, in microseconds. -/
def timedelta (days : Rat) : Except Fault Rat := do
  require (.overflowError "days out of range") (-999999999 ≤ days ∧ days < 1000000000)
  pure (days * dayMicros)

/-- Whether a vouch was issued too long ago. -/
def expired (policy : IdentityPolicy) (now issued : Int) : Except Fault Bool :=
  if 0 < policy.vouchValidityDays then do
    let validity ← timedelta policy.vouchValidityDays
    pure (decide (validity < ((now - issued : Int) : Rat)))
  else .ok false

/-! ### Assessment -/

/-- The arguments of `assess_identity` beside the claims. -/
structure Question where
  peerId : String
  trusted : List String
  policy : IdentityPolicy
  now : Int

/-- `try: .. except IdentityError: continue`, none for a claim that is skipped. -/
def skipInvalid {α : Type} : Except Fault α → Except Fault (Option α)
  | .ok claim => .ok (some claim)
  | .error (.identityError _) => .ok none
  | .error fault => .error fault

/-- `trusted and issuer not in trusted` does not hold. -/
def Question.Trusts (q : Question) (issuer : String) : Prop := q.trusted = [] ∨ issuer ∈ q.trusted

instance (q : Question) (issuer : String) : Decidable (q.Trusts issuer) :=
  inferInstanceAs (Decidable (_ ∨ _))

/-- The issuer of a vouch that counts. -/
def countedVouch (q : Question) (vouch : PeerVouch) : Except Fault (Option String) :=
  if vouch.subjectPeerId ≠ q.peerId then .ok none
  else if vouch.issuerPeerId = q.peerId then .ok none
  else do
    let issued ← parseIso times vouch.issuedAt
    match issued with
    | none => pure none
    | some issued => do
        let tooOld ← expired q.policy q.now issued
        pure (if tooOld = true then none
          else if q.Trusts vouch.issuerPeerId then some vouch.issuerPeerId else none)

/-- What one turn of the loop over the vouches adds. -/
def vouchOf (q : Question) (signed : SignedPayload) : Except Fault (Option String) := do
  let vouch ← skipInvalid (verifyPeerVouch p signed)
  match vouch with
  | none => pure none
  | some vouch => countedVouch times q vouch

/-- The amount of a stake that counts. -/
def countedStake (q : Question) (stake : StakeCommitment) : Except Fault (Option Rat) :=
  if stake.subjectPeerId ≠ q.peerId then .ok none
  else do
    let lockedUntil ← parseIso times stake.lockedUntil
    pure (if lockedUntil.any (· ≤ q.now) = true then none else stake.stakeAmount)

/-- What one turn of the loop over the stakes adds. -/
def stakeOf (q : Question) (signed : SignedPayload) : Except Fault (Option Rat) := do
  let stake ← skipInvalid (verifyStakeCommitment p signed)
  match stake with
  | none => pure none
  | some stake => countedStake times q stake

/-- The metric and value of a proof that counts. -/
def countedProof (q : Question) (proof : ProofOfResource) : Option (String × Rat) :=
  if proof.subjectPeerId ≠ q.peerId then none
  else if q.Trusts proof.issuerPeerId then proof.measuredValue.map fun value =>
    (proof.metric, value)
  else none

/-- What one turn of the loop over the proofs adds. -/
def proofOf (q : Question) (signed : SignedPayload) : Except Fault (Option (String × Rat)) := do
  let proof ← skipInvalid (verifyProofOfResource p signed)
  pure (proof.bind (countedProof q))

/-- `valid_vouches.add(issuer)`. -/
def addVouch (issuers : List String) : Option String → List String
  | none => issuers
  | some issuer => if issuer ∈ issuers then issuers else issuers ++ [issuer]

/-- `total_stake += amount`. -/
def addStake (total : Rat) (amount : Option Rat) : Rat := total + amount.getD 0

/-- `proof_totals[metric] = proof_totals.get(metric, 0.0) + value`. -/
def addProof (totals : Dict String Rat) : Option (String × Rat) → Dict String Rat
  | none => totals
  | some (metric, value) => totals.set metric ((totals.get? metric).getD 0 + value)

/-- A loop over claims. -/
def collect {α β : Type} (f : SignedPayload → Except Fault (Option β)) (add : α → Option β → α)
    (start : α) (claims : List SignedPayload) : Except Fault α :=
  claims.foldlM (fun acc signed => do
    let found ← f signed
    pure (add acc found)) start

structure IdentityAssessment where
  peerId : String
  tier : IdentityTier
  vouchCount : Nat
  stakeAmount : Rat
  proofMetrics : Dict String Rat
  reasons : List String

/-- `proof_totals.get(metric, 0.0)`. -/
def metric (totals : Dict String Rat) (name : String) : Rat := (totals.get? name).getD 0

/-- The tier from the vouches, with its reason. -/
def vouchTier (policy : IdentityPolicy) (vouches : Nat) : IdentityTier × List String :=
  if policy.minVouchesForAttested ≤ vouches then
    (.attested, ["attested:" ++ vouches.repr ++ "_distinct_vouches"])
  else (.unverified, ["need_" ++ (policy.minVouchesForAttested - vouches).repr ++ "_more_vouches"])

/-- The stake raises the tier of a peer that is attested. -/
def stakeTier (policy : IdentityPolicy) (total : Rat) (before : IdentityTier × List String) :
    IdentityTier × List String :=
  if policy.stakeMinAmount ≤ total then
    if before.1 = .unverified then (before.1, before.2 ++ ["stake_present_but_unverified_peer"])
    else (.staked, before.2 ++ ["staked:" ++ times.fixed total ++ "_committed"])
  else before

/-- The proofs raise the tier of a peer that is attested. -/
def proofTier (policy : IdentityPolicy) (totals : Dict String Rat)
    (before : IdentityTier × List String) : IdentityTier × List String :=
  if policy.provenMinFullServed ≤ metric totals "full_served" ∧
      policy.provenMinUptimeHours ≤ metric totals "uptime_hours" ∧ before.1 ≠ .unverified then
    (.proven, before.2 ++ ["proven:resource_thresholds_met"])
  else before

/-- What is decided from the vouches, the stake and the proofs. -/
def decideTier (policy : IdentityPolicy) (vouches : Nat) (total : Rat) (totals : Dict String Rat) :
    IdentityTier × List String :=
  proofTier policy totals (stakeTier times policy total (vouchTier policy vouches))

/-- The lists of claims. -/
structure Evidence where
  vouches : List SignedPayload
  stakes : List SignedPayload
  proofs : List SignedPayload

/-- `assess_identity`. -/
def assessIdentity (q : Question) (evidence : Evidence) : Except Fault IdentityAssessment := do
  let issuers ← collect (vouchOf p times q) addVouch [] evidence.vouches
  let total ← collect (stakeOf p times q) addStake 0 evidence.stakes
  let totals ← collect (proofOf p q) addProof .empty evidence.proofs
  let decided := decideTier times q.policy issuers.length total totals
  pure
    { peerId := q.peerId
      tier := decided.1
      vouchCount := issuers.length
      stakeAmount := total
      proofMetrics := totals
      reasons := decided.2 }

end Identity
