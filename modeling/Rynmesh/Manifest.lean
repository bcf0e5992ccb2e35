import Rynmesh.Provenance

/-!
# Content manifests

`validate_manifest` of `manifest.py` with the types of `types.py` that it reads: a
publisher's signed document on a content asset, with signed safety receipts and a
provenance chain.

* `ClipManifest.fromPayload` reads a manifest, with every conversion that may raise;
* `Tally.turn` is one turn of the loop over the receipts;
* `validateChain` is what is checked of the chain;
* `validateManifest` puts these together, and raises what is not caught.

The version of a manifest, which nothing checks, is left out.
-/

namespace Manifests

open Checked Documents Provenance

variable (p : Platform)

/-! ### Types -/

/-- `SafetyOutcome`. -/
inductive SafetyOutcome
  | pass
  | warn
  | block
  deriving DecidableEq

/-- `SafetyOutcome(text)`. -/
def SafetyOutcome.parse (text : String) : Except Fault SafetyOutcome :=
  if text = "pass" then .ok .pass
  else if text = "warn" then .ok .warn
  else if text = "block" then .ok .block
  else .error (.valueError (p.repr (.str text) ++ " is not a valid SafetyOutcome"))

/-- `tuple(mapping.get(name, ()))`. -/
def items (m : Mapping) (name : String) : Except Fault (List Json) :=
  tuple ((m.get? name).getD (.arr []))

/-- `tuple(dict(item) for item in mapping.get(name, ()))`. -/
def dicts (m : Mapping) (name : String) : Except Fault (List Mapping) := do
  let values ← items m name
  values.mapM dict

/-- `int(mapping.get(name, 0))`. -/
def intField (m : Mapping) (name : String) : Except Fault Int :=
  int p ((m.get? name).getD (.int 0))

structure MediaAsset where
  clipId : String
  mediaHash : String
  sizeBytes : Int
  mediaType : String
  contentKind : String
  durationSec : PyFloat
  width : Int
  height : Int
  previewHash : String
  transcriptHash : String
  frameHashes : List Json

/-- `MediaAsset.from_dict`. -/
def MediaAsset.fromDict (data : Mapping) : Except Fault MediaAsset := do
  let clipId ← textItem p data "clip_id"
  let mediaHash ← textItem p data "media_hash"
  let sizeBytes ← data.item "size_bytes"
  let sizeBytes ← int p sizeBytes
  let mediaType := textField p data "media_type" "video/mp4"
  let contentKind := textField p data "content_kind" ""
  let durationSec ← float p ((data.get? "duration_sec").getD (.float (some 0) "0.0"))
  let width ← intField p data "width"
  let height ← intField p data "height"
  let previewHash := textField p data "preview_hash" ""
  let transcriptHash := textField p data "transcript_hash" ""
  let frameHashes ← items data "frame_hashes"
  pure { clipId, mediaHash, sizeBytes, mediaType, contentKind, durationSec, width, height,
         previewHash, transcriptHash, frameHashes }

structure RunReceipt where
  runId : String
  workId : String
  envelopeHash : String
  workflow : String
  replayHash : String
  createdAt : String

/-- `RunReceipt.from_dict`. -/
def RunReceipt.fromDict (now : String) (data : Mapping) : Except Fault RunReceipt := do
  let runId ← textItem p data "run_id"
  let workId ← textItem p data "work_id"
  let envelopeHash ← textItem p data "envelope_hash"
  pure
    { runId
      workId
      envelopeHash
      workflow := textField p data "workflow" ""
      replayHash := textField p data "replay_hash" ""
      createdAt := textField p data "created_at" now }

structure SafetyReceipt where
  subjectClipId : String
  scannerId : String
  scannerVersion : String
  policyVersion : String
  outcome : SafetyOutcome
  checks : Mapping
  evidenceHashes : List Json
  createdAt : String

/-- `SafetyReceipt.from_dict`. -/
def SafetyReceipt.fromDict (now : String) (data : Mapping) : Except Fault SafetyReceipt := do
  let subjectClipId ← textItem p data "subject_clip_id"
  let scannerId ← textItem p data "scanner_id"
  let outcome ← textItem p data "outcome"
  let outcome ← SafetyOutcome.parse p outcome
  let checks ← dict ((data.get? "checks").getD (.obj []))
  let evidenceHashes ← items data "evidence_hashes"
  pure
    { subjectClipId
      scannerId
      scannerVersion := textField p data "scanner_version" ""
      policyVersion := textField p data "policy_version" ""
      outcome
      checks
      evidenceHashes
      createdAt := textField p data "created_at" now }

structure ClipManifest where
  asset : MediaAsset
  runReceipt : RunReceipt
  safetyReceipts : List Mapping
  publisher : String
  title : String
  description : String
  tags : List Json
  createdAt : String
  provenanceChain : List Mapping
  provenanceHeadHash : String
  attestations : List Mapping

/-- `ClipManifest.from_payload`. -/
def ClipManifest.fromPayload (now : String) (payload : Mapping) : Except Fault ClipManifest := do
  let publisher ← textItem p payload "publisher"
  let tags ← items payload "tags"
  let asset ← payload.item "asset"
  let asset ← dict asset
  let asset ← MediaAsset.fromDict p asset
  let runReceipt ← payload.item "run_receipt"
  let runReceipt ← dict runReceipt
  let runReceipt ← RunReceipt.fromDict p now runReceipt
  let safetyReceipts ← dicts payload "safety_receipts"
  let provenanceChain ← dicts payload "provenance_chain"
  let attestations ← dicts payload "attestations"
  pure
    { asset
      runReceipt
      safetyReceipts
      publisher
      title := textField p payload "title" ""
      description := textField p payload "description" ""
      tags
      createdAt := textField p payload "created_at" now
      provenanceChain
      provenanceHeadHash := textField p payload "provenance_head_hash" ""
      attestations }

/-- `SafetyPolicy`. -/
structure SafetyPolicy where
  minPassReceipts : Int
  allowWarnings : Bool
  trustedScanners : List String

/-- `receipt_trusted`. -/
def SafetyPolicy.receiptTrusted (policy : SafetyPolicy) (receipt : SafetyReceipt) : Prop :=
  policy.trustedScanners = [] ∨ receipt.scannerId ∈ policy.trustedScanners

instance (policy : SafetyPolicy) (receipt : SafetyReceipt) :
    Decidable (policy.receiptTrusted receipt) :=
  inferInstanceAs (Decidable (_ ∨ _))

/-! ### Receipts -/

/-- The part of a validation that the loop over the receipts changes. -/
structure Tally where
  errors : List String
  seenScanners : List String
  passReceipts : Nat
  warnReceipts : Nat
  blockReceipts : Nat

def Tally.fail (tally : Tally) (error : String) : Tally :=
  { tally with errors := tally.errors ++ [error] }

/-- What is read of one receipt. -/
def readReceipt (now : String) (raw : Mapping) : Except Fault (SignedPayload × SafetyReceipt) := do
  let signed ← SignedPayload.fromDict p raw
  verifySignedPayload p signed
  let receipt ← SafetyReceipt.fromDict p now signed.payload
  pure (signed, receipt)

/-- `f"{receipt.scanner_id}:{signed_receipt.public_key}"`. -/
def scannerKey (signed : SignedPayload) (receipt : SafetyReceipt) : String :=
  receipt.scannerId ++ ":" ++ signed.publicKey

/-- The outcome of a receipt is counted. -/
def Tally.counted (policy : SafetyPolicy) (tally : Tally) : SafetyOutcome → Tally
  | .pass => { tally with passReceipts := tally.passReceipts + 1 }
  | .warn =>
      let tally := { tally with warnReceipts := tally.warnReceipts + 1 }
      if policy.allowWarnings = true then tally else tally.fail "safety_warning_not_allowed"
  | .block => { tally with blockReceipts := tally.blockReceipts + 1 }

/-- What is done with a receipt that was read. -/
def Tally.accept (policy : SafetyPolicy) (clipId : String) (tally : Tally) (signed : SignedPayload)
    (receipt : SafetyReceipt) : Tally :=
  if receipt.subjectClipId ≠ clipId then tally.fail "safety_receipt_subject_mismatch"
  else if ¬ policy.receiptTrusted receipt then
    tally.fail ("safety_receipt_untrusted_scanner: " ++ receipt.scannerId)
  else if scannerKey signed receipt ∈ tally.seenScanners then
    tally.fail "duplicate_safety_receipt_scanner"
  else
    { tally with seenScanners := tally.seenScanners ++ [scannerKey signed receipt] }.counted policy
      receipt.outcome

/-- One turn of the loop over the receipts. -/
def Tally.turn (now : String) (policy : SafetyPolicy) (clipId : String) (tally : Tally)
    (raw : Mapping) : Except Fault Tally :=
  match readReceipt p now raw with
  | .ok (signed, receipt) => .ok (tally.accept policy clipId signed receipt)
  | .error fault =>
      if fault.isOverflow = true then .error fault
      else .ok (tally.fail ("safety_receipt_invalid: " ++ fault.text))

/-- What is checked before the receipts. -/
def headErrors (signed : SignedPayload) (manifest : ClipManifest) : List String :=
  (if manifest.publisher = signed.publicKey then [] else ["manifest_publisher_key_mismatch"]) ++
  (if manifest.asset.clipId = manifest.asset.mediaHash then []
    else ["asset_clip_id_must_match_media_hash"]) ++
  (if manifest.runReceipt.runId = "" then ["missing_run_id"] else []) ++
  (if manifest.runReceipt.workId = "" then ["missing_work_id"] else []) ++
  (if manifest.runReceipt.envelopeHash.startsWith "sha256:" then [] else ["missing_envelope_hash"])

/-- What is checked after the receipts. -/
def countErrors (policy : SafetyPolicy) (tally : Tally) : List String :=
  (if (tally.passReceipts : Int) < policy.minPassReceipts then
    ["not_enough_passing_safety_receipts"] else []) ++
  (if tally.blockReceipts = 0 then [] else ["blocked_by_safety_receipt"])

/-! ### The chain -/

/-- The keys that signed a safety scan of the chain. -/
def scanKeys (verification : ProvenanceVerification) : List String :=
  ((verification.issuers.zip verification.linkTypes).filter fun e => e.2 = linkSafetyScan).map
    Prod.fst

/-- The loop over the receipts that compares their keys with the chain's. -/
def receiptKeyErrors (keys : List String) : List Mapping → List String
  | [] => []
  | raw :: rest =>
      if textField p raw "public_key" "" = "" then ["safety_receipt_missing_public_key"]
      else if keys ≠ [] ∧ textField p raw "public_key" "" ∉ keys then
        ["safety_receipt_not_in_provenance_chain"]
      else receiptKeyErrors keys rest

/-- What is checked of a chain that verifies. -/
def chainErrors (manifest : ClipManifest) (verification : ProvenanceVerification) : List String :=
  (if verification.linkTypes.head? = some linkGenesis then []
    else ["provenance_chain_missing_genesis"]) ++
  (if verification.issuers.head? = some manifest.publisher then []
    else ["provenance_genesis_publisher_mismatch"]) ++
  (if manifest.safetyReceipts ≠ [] ∧ scanKeys verification = [] then
    ["provenance_chain_missing_safety_scan_link"] else []) ++
  receiptKeyErrors p (scanKeys verification) manifest.safetyReceipts

/-- `list(manifest.provenance_chain)`, as links. -/
def ClipManifest.links (manifest : ClipManifest) : List RawLink :=
  manifest.provenanceChain.map .raw

/-- A chain or a head is present. -/
def ClipManifest.HasChain (manifest : ClipManifest) : Prop :=
  manifest.provenanceChain ≠ [] ∨ manifest.provenanceHeadHash ≠ ""

instance (manifest : ClipManifest) : Decidable manifest.HasChain :=
  inferInstanceAs (Decidable (_ ∨ _))

/-- `verify_chain`, with what a manifest expects of its chain. -/
def ClipManifest.verifyChain (now : String) (manifest : ClipManifest) :
    Except Fault ProvenanceVerification :=
  Provenance.verifyChain p now manifest.links (some manifest.asset.clipId)
    (some manifest.provenanceHeadHash)

/-- The errors of the chain, and what was verified. -/
def validateChain (now : String) (manifest : ClipManifest) :
    Except Fault (List String × Option ProvenanceVerification) :=
  if manifest.HasChain then
    match manifest.verifyChain p now with
    | .ok verification => .ok (chainErrors p manifest verification, some verification)
    | .error (.provenanceError text) => .ok (["provenance_chain_invalid: " ++ text], none)
    | .error fault => .error fault
  else .ok ([], none)

/-! ### Validation -/

/-- `ManifestValidation`. -/
structure ManifestValidation where
  manifest : Option ClipManifest
  errors : List String
  passReceipts : Nat
  warnReceipts : Nat
  blockReceipts : Nat
  provenance : Option ProvenanceVerification

/-- `propagates`. -/
def ManifestValidation.propagates (validation : ManifestValidation) : Prop :=
  validation.errors = [] ∧ validation.blockReceipts = 0 ∧ 0 < validation.passReceipts

instance (validation : ManifestValidation) : Decidable validation.propagates :=
  inferInstanceAs (Decidable (_ ∧ _))

/-- A validation that ended early. -/
def ManifestValidation.refused (error : String) : ManifestValidation :=
  ⟨none, [error], 0, 0, 0, none⟩

/-- The validation of a manifest that was read. -/
def validateContent (now : String) (policy : SafetyPolicy) (signed : SignedPayload)
    (manifest : ClipManifest) : Except Fault ManifestValidation := do
  let tally ← manifest.safetyReceipts.foldlM
    (Tally.turn p now policy manifest.asset.clipId) ⟨headErrors signed manifest, [], 0, 0, 0⟩
  let chain ← validateChain p now manifest
  pure
    { manifest := some manifest
      errors := tally.errors ++ countErrors policy tally ++ chain.1
      passReceipts := tally.passReceipts
      warnReceipts := tally.warnReceipts
      blockReceipts := tally.blockReceipts
      provenance := chain.2 }

/-- `validate_manifest`. -/
def validateManifest (now : String) (policy : SafetyPolicy) (signed : SignedPayload) :
    Except Fault ManifestValidation :=
  match verifySignedPayload p signed with
  | .error (.signatureError text) => .ok (.refused ("manifest_signature_invalid: " ++ text))
  | .error fault => .error fault
  | .ok _ =>
      match ClipManifest.fromPayload p now signed.payload with
      | .ok manifest => validateContent p now policy signed manifest
      | .error fault =>
          if fault.isOverflow = true then .error fault
          else .ok (.refused ("manifest_payload_invalid: " ++ fault.text))

/-- `require_propagation_allowed`, none where it raises a `ManifestError`. -/
def requirePropagationAllowed (now : String) (policy : SafetyPolicy) (signed : SignedPayload) :
    Except Fault (Option ClipManifest) := do
  let validation ← validateManifest p now policy signed
  pure (if validation.propagates then validation.manifest else none)

end Manifests
