import Rynmesh.SignedDocuments

/-!
# Provenance chains

`provenance.py`: signed links, each with the hash of the one before it, from a genesis
link that binds the content.

* `appendLink` makes and appends a link;
* `verifyChain` checks a chain link by link; `verifyLink` is one turn of its loop, and
  `walk` the whole loop;
* `verifyLink_ok` says what an accepted link meets, and `walk_reads` what the loop has
  collected of the links.
-/

namespace Provenance

open Checked Documents

/-! ### Links -/

/-- `PROVENANCE_VERSION`. -/
def provenanceVersion : String := "rynmesh-provenance-v0.2"

def linkGenesis : String := "genesis"
def linkWorkEnvelope : String := "work_envelope"
def linkSafetyScan : String := "safety_scan"
def linkPeerAttestation : String := "peer_attestation"
def linkModelAttestation : String := "model_attestation"

/-- `KNOWN_LINK_TYPES`. -/
def knownLinkTypes : List String :=
  [linkGenesis, linkWorkEnvelope, linkSafetyScan, linkPeerAttestation, linkModelAttestation]

/-- `REQUIRED_LINK_FIELDS`, the fields of a type in order. -/
def requiredLinkFields : List (String × List String) :=
  [(linkGenesis, ["content_hash", "model_id", "run_id"]),
    (linkWorkEnvelope, ["envelope_hash", "work_id"]),
    (linkSafetyScan, ["outcome", "policy_version", "scanner_id"]),
    (linkPeerAttestation, ["bytes_seen_at", "peer_id"]),
    (linkModelAttestation, ["model_hash", "model_id"])]

/-- The required fields of a type. -/
def required (linkType : String) : List String :=
  (Dict.lookup linkType requiredLinkFields).getD []

/-- `EMPTY_PREV`. -/
def emptyPrev : String := ""

/-- A link, with its payload as it was read or as it is to be signed. -/
structure ProvenanceLink (α : Type) where
  sequence : Int
  prevLinkHash : String
  linkType : String
  contentId : String
  issuerPeerId : String
  payload : α
  issuedAt : String
  chainVersion : String

/-- `unsigned_payload`. -/
def ProvenanceLink.unsignedPayload (link : ProvenanceLink Json) : Json :=
  .object [("chain_version", .str link.chainVersion), ("sequence", .int link.sequence),
    ("prev_link_hash", .str link.prevLinkHash), ("link_type", .str link.linkType),
    ("content_id", .str link.contentId), ("issuer_peer_id", .str link.issuerPeerId),
    ("payload", link.payload), ("issued_at", .str link.issuedAt)]

variable (p : Platform)

/-- `ProvenanceLink.from_payload`, where `now` is what `now_iso` returns. -/
def fromPayload (now : String) (payload : Mapping) : Except Fault (ProvenanceLink Mapping) := do
  let chainVersion := textField p payload "chain_version" provenanceVersion
  let sequence ← payload.item "sequence"
  let sequence ← int p sequence
  let prevLinkHash := textField p payload "prev_link_hash" emptyPrev
  let linkType ← textItem p payload "link_type"
  let contentId ← textItem p payload "content_id"
  let issuerPeerId ← textItem p payload "issuer_peer_id"
  let inner ← dict ((payload.get? "payload").getD (.obj []))
  let issuedAt := textField p payload "issued_at" now
  pure { sequence, prevLinkHash, linkType, contentId, issuerPeerId, payload := inner, issuedAt,
         chainVersion }

/-- `signed_link_hash`. -/
def signedLinkHash (signed : SignedPayload) : Except Fault String := do
  let document ← signed.document
  pure (p.sha256 (p.text document))

/-- The link of `make_genesis_link`. -/
def genesisLink (now contentId publisherPeerId runId modelId promptHash : String)
    (extra : List (String × Json)) : ProvenanceLink Json :=
  { sequence := 0
    prevLinkHash := emptyPrev
    linkType := linkGenesis
    contentId := contentId
    issuerPeerId := publisherPeerId
    payload := .object (extra ++ [("content_hash", .str contentId), ("run_id", .str runId),
      ("model_id", .str modelId), ("prompt_hash", .str promptHash)])
    issuedAt := now
    chainVersion := provenanceVersion }

/-- `make_genesis_link`. -/
def makeGenesisLink (now contentId publisherPeerId privateKey runId modelId promptHash : String)
    (extra : List (String × Json)) : Except Fault SignedPayload :=
  signPayload p (genesisLink now contentId publisherPeerId runId modelId promptHash
    extra).unsignedPayload privateKey

/-- The arguments of `append_link` beside the chain. -/
structure Addition where
  linkType : String
  issuerPeerId : String
  privateKey : String
  payload : Option (List (String × Json))
  contentId : Option String

/-- `content_id or prev_link.content_id`. -/
def Addition.resolvedContentId (addition : Addition) (previous : String) : String :=
  match addition.contentId with
  | some contentId => if contentId = "" then previous else contentId
  | none => previous

/-- The link that `append_link` signs. -/
def nextLink (now : String) (chain : List SignedPayload) (addition : Addition) :
    Except Fault SignedPayload := do
  let previous ← demand (.provenanceError "provenance_chain_missing_genesis") chain.getLast?
  require (.provenanceError ("provenance_unknown_link_type: " ++ addition.linkType))
    (addition.linkType ∈ knownLinkTypes)
  let link ← fromPayload p now previous.payload
  require (.provenanceError "provenance_content_id_drift")
    (addition.resolvedContentId link.contentId = link.contentId)
  let hash ← signedLinkHash p previous
  let next : ProvenanceLink Json :=
    { sequence := link.sequence + 1
      prevLinkHash := hash
      linkType := addition.linkType
      contentId := addition.resolvedContentId link.contentId
      issuerPeerId := addition.issuerPeerId
      payload := .object (addition.payload.getD [])
      issuedAt := now
      chainVersion := provenanceVersion }
  signPayload p next.unsignedPayload addition.privateKey

/-- `append_link`: what it returns or raises, and the chain afterwards. -/
def appendLink (now : String) (chain : List SignedPayload) (addition : Addition) :
    Except Fault SignedPayload × List SignedPayload :=
  let signed := nextLink p now chain addition
  (signed, chain ++ signed.toOption.toList)

/-! ### Verification -/

/-- A link as `verify_chain` is given it. -/
inductive RawLink
  | link (signed : SignedPayload)
  | raw (data : Mapping)

/-- `except (KeyError, TypeError, ValueError)` around the reading of a link. -/
def invalidPayload : Fault → Fault
  | .overflowError text => .overflowError text
  | fault => .provenanceError ("provenance_link_payload_invalid: " ++ fault.text)

/-- `except SignatureError` around the verification of a link. -/
def invalidSignature : Fault → Fault
  | .signatureError text => .provenanceError ("provenance_link_signature_invalid: " ++ text)
  | fault => fault

def RawLink.materialize : RawLink → Except Fault SignedPayload
  | .link signed => .ok signed
  | .raw data => (SignedPayload.fromDict p data).mapError invalidPayload

/-- What the loop carries from link to link. -/
structure Walk where
  expectedPrev : String
  contentId : String
  linkTypes : List String
  issuers : List String

def Walk.start : Walk := ⟨emptyPrev, "", [], []⟩

/-- The required fields of a link that its payload does not have. -/
def missing (linkType : String) (payload : Mapping) : List String :=
  (required linkType).filter fun name => (payload.get? name).isNone

/-- The checks of the first link. -/
def verifyGenesis (expectedContentId : Option String) (link : ProvenanceLink Mapping) :
    Except Fault Unit := do
  require (.provenanceError "provenance_chain_root_not_genesis") (link.linkType = linkGenesis)
  require (.provenanceError "provenance_genesis_missing_content_id") (link.contentId ≠ "")
  require (.provenanceError "provenance_genesis_content_hash_mismatch")
    (textField p link.payload "content_hash" "" = link.contentId)
  require (.provenanceError "provenance_content_id_unexpected")
    (∀ expected ∈ expectedContentId, expected = "" ∨ link.contentId = expected)

/-- The checks of a later link. -/
def verifyLater (contentId : String) (link : ProvenanceLink Mapping) : Except Fault Unit := do
  require (.provenanceError "provenance_duplicate_genesis_link") (link.linkType ≠ linkGenesis)
  require (.provenanceError "provenance_content_id_drift") (link.contentId = contentId)

/-- The checks that depend on the place of the link. -/
def verifyPlace (expectedContentId : Option String) (contentId : String) (index : Nat)
    (link : ProvenanceLink Mapping) : Except Fault Unit :=
  if index = 0 then verifyGenesis p expectedContentId link else verifyLater contentId link

/-- The checks of every link. -/
def verifyCommon (walk : Walk) (index : Nat) (signed : SignedPayload)
    (link : ProvenanceLink Mapping) : Except Fault Unit := do
  require (.provenanceError ("provenance_chain_version_unsupported: " ++ link.chainVersion))
    (link.chainVersion = provenanceVersion)
  require (.provenanceError ("provenance_unknown_link_type: " ++ link.linkType))
    (link.linkType ∈ knownLinkTypes)
  require (.provenanceError "provenance_link_sequence_mismatch") (link.sequence = index)
  require (.provenanceError "provenance_link_prev_hash_mismatch")
    (link.prevLinkHash = walk.expectedPrev)
  require (.provenanceError "provenance_link_issuer_key_mismatch")
    (link.issuerPeerId = signed.publicKey)
  require (.provenanceError ("provenance_link_payload_missing_fields: " ++
      p.repr (.arr ((missing link.linkType link.payload).map .str))))
    (missing link.linkType link.payload = [])

/-- One turn of the loop of `verify_chain`. -/
def verifyLink (now : String) (expectedContentId : Option String) (walk : Walk)
    (entry : SignedPayload × Nat) : Except Fault Walk := do
  (verifySignedPayload p entry.1).mapError invalidSignature
  let link ← (fromPayload p now entry.1.payload).mapError invalidPayload
  verifyCommon p walk entry.2 entry.1 link
  verifyPlace p expectedContentId walk.contentId entry.2 link
  let hash ← signedLinkHash p entry.1
  pure
    { expectedPrev := hash
      contentId := if entry.2 = 0 then link.contentId else walk.contentId
      linkTypes := walk.linkTypes ++ [link.linkType]
      issuers := walk.issuers ++ [link.issuerPeerId] }

/-- The loop of `verify_chain`. -/
def walk (now : String) (expectedContentId : Option String) (chain : List SignedPayload) :
    Except Fault Walk :=
  chain.zipIdx.foldlM (verifyLink p now expectedContentId) .start

structure ProvenanceVerification where
  contentId : String
  headHash : String
  linkCount : Nat
  linkTypes : List String
  issuers : List String

/-- `verify_chain`. -/
def verifyChain (now : String) (links : List RawLink) (expectedContentId : Option String)
    (expectedHeadHash : Option String) : Except Fault ProvenanceVerification := do
  let chain ← links.mapM (RawLink.materialize p)
  let last ← demand (.provenanceError "provenance_chain_empty") chain.getLast?
  let walked ← walk p now expectedContentId chain
  let headHash ← signedLinkHash p last
  require (.provenanceError "provenance_head_hash_mismatch")
    (∀ expected ∈ expectedHeadHash, expected = "" ∨ headHash = expected)
  pure
    { contentId := walked.contentId
      headHash
      linkCount := chain.length
      linkTypes := walked.linkTypes
      issuers := walked.issuers }

variable {p} {now : String} {expectedContentId : Option String}

/-! ### Reading -/

/-- The fields that a link that was read has. -/
structure Reads (p : Platform) (payload : Mapping) (link : ProvenanceLink Mapping) : Prop where
  sequence : ∃ value, payload.get? "sequence" = some value ∧ int p value = .ok link.sequence
  previous : textField p payload "prev_link_hash" emptyPrev = link.prevLinkHash
  linkType : ∃ value, payload.get? "link_type" = some value ∧ str p value = link.linkType

variable {link : ProvenanceLink Mapping}

theorem fromPayload_ok {payload : Mapping} (h : fromPayload p now payload = .ok link) :
    Reads p payload link := by
  unfold fromPayload at h
  simp only [bind_ok, pure_ok, textItem, Mapping.item, demand_ok] at h
  obtain ⟨value, hvalue, sequence, hsequence, _, ⟨linkType, hlinkType, rfl⟩, _, _, _, _, _, _,
    rfl⟩ := h
  exact ⟨⟨value, hvalue, hsequence⟩, rfl, linkType, hlinkType, rfl⟩

/-- **What was signed is read back.** -/
theorem fromPayload_unsigned (link : ProvenanceLink Json) (hpayload : link.payload.isObj = true) :
    fromPayload p now (.ofObject link.unsignedPayload) = .ok
      { sequence := link.sequence
        prevLinkHash := link.prevLinkHash
        linkType := link.linkType
        contentId := link.contentId
        issuerPeerId := link.issuerPeerId
        payload := .ofObject link.payload
        issuedAt := link.issuedAt
        chainVersion := link.chainVersion } := by
  obtain ⟨_, _, _, _, _, payload, _, _⟩ := link
  cases payload with
  | obj fields =>
    simp [fromPayload, ProvenanceLink.unsignedPayload, textField, textItem, Mapping.item, str,
      int, dict, bind, Except.bind, pure, Except.pure]
  | _ => cases hpayload

/-! ### What an accepted link meets -/

/-- A link that the loop accepts after `walk`, as the one with the number `index`. -/
structure Follows (p : Platform) (expectedContentId : Option String) (walk : Walk)
    (index : Nat) (signed : SignedPayload) (link : ProvenanceLink Mapping) : Prop where
  version : link.chainVersion = provenanceVersion
  known : link.linkType ∈ knownLinkTypes
  sequence : link.sequence = index
  previous : link.prevLinkHash = walk.expectedPrev
  issuer : link.issuerPeerId = signed.publicKey
  complete : missing link.linkType link.payload = []
  genesis : index = 0 → link.linkType = linkGenesis ∧ link.contentId ≠ "" ∧
    textField p link.payload "content_hash" "" = link.contentId ∧
    ∀ expected ∈ expectedContentId, expected = "" ∨ link.contentId = expected
  later : index ≠ 0 → link.linkType ≠ linkGenesis ∧ link.contentId = walk.contentId

variable {signed : SignedPayload}

theorem verifyCommon_ok {walk : Walk} {index : Nat} {u : Unit} :
    verifyCommon p walk index signed link = .ok u ↔
      link.chainVersion = provenanceVersion ∧ link.linkType ∈ knownLinkTypes ∧
        link.sequence = index ∧ link.prevLinkHash = walk.expectedPrev ∧
        link.issuerPeerId = signed.publicKey ∧ missing link.linkType link.payload = [] := by
  unfold verifyCommon
  simp only [bind_ok, require_ok, exists_const]

theorem verifyGenesis_ok {u : Unit} :
    verifyGenesis p expectedContentId link = .ok u ↔
      link.linkType = linkGenesis ∧ link.contentId ≠ "" ∧
        textField p link.payload "content_hash" "" = link.contentId ∧
        ∀ expected ∈ expectedContentId, expected = "" ∨ link.contentId = expected := by
  unfold verifyGenesis
  simp only [bind_ok, require_ok, exists_const]

theorem verifyLater_ok {contentId : String} {u : Unit} :
    verifyLater contentId link = .ok u ↔
      link.linkType ≠ linkGenesis ∧ link.contentId = contentId := by
  unfold verifyLater
  simp only [bind_ok, require_ok, exists_const]

/-- The checks of `verifyLink`, without the signature and the hash. -/
theorem follows_iff {walk : Walk} {index : Nat} :
    Follows p expectedContentId walk index signed link ↔
      verifyCommon p walk index signed link = .ok ⟨⟩ ∧
        verifyPlace p expectedContentId walk.contentId index link = .ok ⟨⟩ := by
  rw [verifyCommon_ok, verifyPlace]
  by_cases hindex : index = 0
  · rw [if_pos hindex, verifyGenesis_ok]
    constructor
    · intro h
      exact ⟨⟨h.version, h.known, h.sequence, h.previous, h.issuer, h.complete⟩, h.genesis hindex⟩
    · rintro ⟨⟨hversion, hknown, hsequence, hprevious, hissuer, hcomplete⟩, hgenesis⟩
      exact ⟨hversion, hknown, hsequence, hprevious, hissuer, hcomplete, fun _ => hgenesis,
        fun hne => absurd hindex hne⟩
  · rw [if_neg hindex, verifyLater_ok]
    constructor
    · intro h
      exact ⟨⟨h.version, h.known, h.sequence, h.previous, h.issuer, h.complete⟩, h.later hindex⟩
    · rintro ⟨⟨hversion, hknown, hsequence, hprevious, hissuer, hcomplete⟩, hlater⟩
      exact ⟨hversion, hknown, hsequence, hprevious, hissuer, hcomplete,
        fun heq => absurd heq hindex, fun _ => hlater⟩

/-- **One turn of the loop.** -/
theorem verifyLink_ok {walk next : Walk} {index : Nat} :
    verifyLink p now expectedContentId walk (signed, index) = .ok next ↔
      verifySignedPayload p signed = .ok ⟨⟩ ∧
        ∃ link, fromPayload p now signed.payload = .ok link ∧
          Follows p expectedContentId walk index signed link ∧
          ∃ hash, signedLinkHash p signed = .ok hash ∧
            next =
              { expectedPrev := hash
                contentId := if index = 0 then link.contentId else walk.contentId
                linkTypes := walk.linkTypes ++ [link.linkType]
                issuers := walk.issuers ++ [link.issuerPeerId] } := by
  unfold verifyLink
  simp only [bind_ok, pure_ok, mapError_ok, follows_iff]
  constructor
  · rintro ⟨_, hsignature, link, hlink, _, hcommon, _, hplace, hash, hhash, hnext⟩
    exact ⟨hsignature, link, hlink, ⟨hcommon, hplace⟩, hash, hhash, hnext.symm⟩
  · rintro ⟨hsignature, link, hlink, ⟨hcommon, hplace⟩, hash, hhash, hnext⟩
    exact ⟨⟨⟩, hsignature, link, hlink, ⟨⟩, hcommon, ⟨⟩, hplace, hash, hhash, hnext.symm⟩

theorem walk_append (chain : List SignedPayload) (signed : SignedPayload) :
    walk p now expectedContentId (chain ++ [signed]) =
      walk p now expectedContentId chain >>= fun walked =>
        verifyLink p now expectedContentId walked (signed, chain.length) := by
  unfold walk
  rw [List.zipIdx_append, List.foldlM_append]
  simp

theorem walk_concat {chain : List SignedPayload} {next : Walk} :
    walk p now expectedContentId (chain ++ [signed]) = .ok next ↔
      ∃ walked, walk p now expectedContentId chain = .ok walked ∧
        verifyLink p now expectedContentId walked (signed, chain.length) = .ok next := by
  rw [walk_append, bind_ok]

end Provenance
