import Rynmesh.CheckedComputation
import Rynmesh.JsonFields

/-!
# The pairing store of a device

`device_sync/pair_store.py` with the parts of `pair_crypto.py` and
`diagnostic_budget.py` it calls, and the inner operation of
`PairingService.receive_join` and of `revoke`.

* `Data` is the decrypted document: the invites and the pairs by their ids, each row
  the dictionary the service wrote;
* `validate` is what reading and writing demand of it;
* `mutate` compacts, applies an operation, trims, bounds the diagnostics and validates;
* `receive` admits the sender of a join request for an invite, and `revoke` ends a pair.

A document is read back from its canonical text, which sorts the ids (`Data.reread`).
Hashes, signatures, base64 and the endpoint check are fields of `Platform`; the
encryption of the file is left out.
-/

namespace Pairing

open Checked

abbrev Bytes := List UInt8

def version : String := "ryn.device-pairings.v1"

def maxPlaintext : Nat := 8 * 1024 * 1024

def maxRecords : Nat := 256

def maxCounter : Int := 2 ^ 53 - 1

def maxWireBytes : Nat := 64 * 1024

def inviteKind : String := "ryn.device-invite.v1"

def statuses : List String :=
  ["awaiting_owner", "awaiting_inviter", "awaiting_peer", "awaiting_ack", "active", "rejected",
    "revoked"]

/-- The statuses of a pair both owners have agreed to. -/
def agreed : List String := ["awaiting_peer", "awaiting_ack", "active"]

def scopes : List String := ["bookmarks", "reading", "conversations"]

/-- What the store uses of its libraries, and the device's own actor id. -/
structure Platform where
  actor : String
  /-- SHA-256 of the canonical JSON, in hexadecimal. -/
  fingerprint : Json → String
  /-- `base64.b64decode` with validation, none where it raises. -/
  b64decode : String → Option Bytes
  b64encode : Bytes → String
  /-- `base64.b64decode` of the padded text over the alphabet of URLs. -/
  urlsafeDecode : String → Option Bytes
  /-- `encoded`. -/
  urlsafeEncode : Bytes → String
  /-- `validate_endpoint` with loopback allowed, none where it raises. -/
  validateEndpoint : String → Option String
  strip : String → String
  /-- `str` of a value. -/
  str : Json → String
  /-- A key, a signature and a payload that `verify_signed_payload` accepts. -/
  verifies : String → String → Json → Bool

def require (q : Prop) [Decidable q] (code : String) : Except String Unit :=
  Checked.require code q

@[simp] theorem require_ok {q : Prop} [Decidable q] {code : String} {u : Unit} :
    require q code = .ok u ↔ q :=
  Checked.require_ok

/-- A `SyncError` that names the store itself. -/
abbrev unavailable : String := "sync_pairing_store_unavailable"

/-! ### Checks of single values -/

section Checks

variable (p : Platform)

/-- `re.fullmatch("[a-f0-9]{n}", ..)`. -/
def isHex (n : Nat) (text : String) : Bool :=
  text.toList.length = n &&
    text.toList.all fun c => ('0' ≤ c && c ≤ '9') || ('a' ≤ c && c ≤ 'f')

/-- `actor_id`. -/
def actorId (value : Option Json) : Except String String := do
  let text ← Checked.demand "sync_actor_invalid" (value.bind Json.asStr?)
  require (isHex 64 text) "sync_actor_invalid"
  pure text

/-- `identifier`. -/
def identifier (value : Option Json) : Except String String := do
  let text ← Checked.demand "sync_pairing_invalid" (value.bind Json.asStr?)
  require (isHex 32 text) "sync_pairing_invalid"
  pure text

/-- `selected`: at most three distinct scopes, sorted. -/
def selected (value : Option Json) : Except String (List Json) := do
  let items ← Checked.demand "sync_scope_invalid" (value.bind Json.asArr?)
  let names ← items.mapM fun item => Checked.demand "sync_scope_invalid" item.asStr?
  require (items.length ≤ 3 ∧ (∀ name ∈ names, name ∈ scopes) ∧ names.Nodup) "sync_scope_invalid"
  pure ((names.insertionSort (· ≤ ·)).map Json.str)

/-- `decoded` with a size. -/
def decoded (value : Option Json) (size : Nat) : Except String Bytes := do
  let text ← Checked.demand "sync_pairing_invalid" (value.bind Json.asStr?)
  require (text.toList.length ≤ maxWireBytes) "sync_pairing_invalid"
  let result ← Checked.demand "sync_pairing_invalid" (p.urlsafeDecode text)
  require (p.urlsafeEncode result = text ∧ result.length = size) "sync_pairing_invalid"
  pure result

/-- The text of a field that is the base64 of 32 bytes. -/
def keyText (value : Json) (name : String) : Except String String := do
  let text ← Checked.demand "sync_pairing_identity_invalid" ((value.get? name).bind Json.asStr?)
  let raw ← Checked.demand "sync_pairing_identity_invalid" (p.b64decode text)
  require (raw.length = 32 ∧ p.b64encode raw = text) "sync_pairing_identity_invalid"
  pure text

/-- `identity`: it returns the value as it is. -/
def identity (value : Option Json) : Except String Json := do
  let value ← Checked.demand "sync_pairing_identity_invalid" value
  require (value.HasKeys ["peer_id", "messaging_pub", "actor", "name", "endpoint"])
    "sync_pairing_identity_invalid"
  let _ ← keyText p value "peer_id"
  let messagingPub ← keyText p value "messaging_pub"
  require (value.get? "actor" = some (.str (p.fingerprint (.str messagingPub))))
    "sync_pairing_identity_invalid"
  let name ← Checked.demand "sync_pairing_identity_invalid"
    ((value.get? "name").bind Json.asStr?)
  require (0 < (p.strip name).length ∧ (p.strip name).length ≤ 128 ∧
    name.toList.all (fun c => 32 ≤ c.toNat) = true) "sync_pairing_identity_invalid"
  let endpoint ← Checked.demand "sync_pairing_identity_invalid"
    ((value.get? "endpoint").bind Json.asStr?)
  require (p.validateEndpoint endpoint = some endpoint) "sync_pairing_identity_invalid"
  pure value

/-- A `SignedPayload`. -/
structure Proof where
  payload : Json
  publicKey : String

/-- `verify`. -/
def verify (value : Option Json) : Except String Proof := do
  let value ← Checked.demand "sync_pairing_invalid" value
  require (value.HasKeys ["alg", "public_key", "signature", "payload"]) "sync_pairing_invalid"
  let payload ← Checked.demand "sync_pairing_invalid" ((value.get? "payload").bind Json.dict?)
  let signature ← Checked.demand "sync_pairing_invalid" ((value.get? "signature").map p.str)
  let publicKey ← Checked.demand "sync_pairing_invalid" ((value.get? "public_key").map p.str)
  let alg ← Checked.demand "sync_pairing_invalid" ((value.get? "alg").map p.str)
  require (alg = "ed25519" ∧ p.verifies publicKey signature payload = true)
    "sync_pairing_invalid"
  pure ⟨payload, publicKey⟩

/-- A list or a dictionary can be neither in a set nor a key. -/
def hashable : Json → Bool
  | .arr _ => false
  | .obj _ => false
  | _ => true

end Checks

/-! ### The document -/

/-- The decrypted document. -/
structure Data where
  version : String
  actor : String
  invites : Dict String Json
  pairs : Dict String Json

/-- The document as JSON. -/
def Data.json (data : Data) : Json :=
  .object [("version", .str data.version), ("actor", .str data.actor),
    ("invites", .object data.invites.entries), ("pairs", .object data.pairs.entries)]

/-- The ids in the order of a canonical text. -/
def sortedIds (rows : Dict String Json) : Dict String Json :=
  ⟨rows.entries.insertionSort fun a b => a.1 ≤ b.1,
    ((List.perm_insertionSort _ rows.entries).map Prod.fst).nodup_iff.mpr rows.nodup⟩

/-- What `_read` finds of a document that was written. -/
def Data.reread (data : Data) : Data :=
  { data with invites := sortedIds data.invites, pairs := sortedIds data.pairs }

def statusOf (row : Json) : Option String := (row.get? "status").bind Json.asStr?

/-- The pair that an invite names: `invite.get("pair_id")` unless it is none. -/
def linkOf (invite : Json) : Option Json := (invite.get? "pair_id").filter (· ≠ .null)

/-- `data["pairs"].get(link)`. -/
def Data.pairAt (data : Data) : Json → Option Json
  | .str pairId => data.pairs.get? pairId
  | _ => none

/-! ### Validation -/

section Validation

variable (p : Platform)

/-- A policy of a row: it may be missing until both owners have agreed. -/
def validatePolicy (status : String) (value : Option Json) : Except String Unit :=
  let value := value.filter (· ≠ .null)
  if value = none ∧ status ∉ agreed then pure ()
  else do
    let value ← Checked.demand unavailable value
    require (value.HasKeys ["revision", "scopes", "paused"]) unavailable
    let revision ← Checked.demand unavailable ((value.get? "revision").bind Json.asInt?)
    require (1 ≤ revision ∧ revision ≤ maxCounter) unavailable
    let _ ← Checked.demand unavailable ((value.get? "paused").bind Json.asBool?)
    let chosen ← selected (value.get? "scopes")
    require (value.get? "scopes" = some (.arr chosen)) unavailable

/-- What is demanded of a pair's row besides its id. -/
def validateRow (pair : Json) : Except String Unit := do
  require ((pair.get? "status").all hashable = true) "TypeError"
  let status ← Checked.demand unavailable (statusOf pair)
  require (status ∈ statuses) unavailable
  require ((pair.get? "role").all hashable = true) "TypeError"
  let role ← Checked.demand unavailable ((pair.get? "role").bind Json.asStr?)
  require (role ∈ ["inviter", "joiner"]) unavailable
  let own ← identity p (pair.get? "local")
  let _ ← identity p (pair.get? "remote")
  require (own.get? "actor" = some (.str p.actor)) unavailable
  let _ ← Checked.demand unavailable ((pair.get? "expires").bind Json.asInt?)
  let _ ← identifier (pair.get? "invite_id")
  let requested ← selected (pair.get? "requested_scopes")
  require (pair.get? "requested_scopes" = some (.arr requested)) unavailable
  validatePolicy status (pair.get? "local_policy")
  validatePolicy status (pair.get? "remote_policy")
  whenever (status ∈ agreed) do
    let _ ← decoded p (pair.get? "secret") 32
    let _ ← actorId (pair.get? "approval_hash")
    pure ()
  require (status = "awaiting_owner" → role = "inviter") unavailable
  require (status ∈ ["awaiting_inviter", "awaiting_ack"] → role = "joiner") unavailable

/-- A pair under its id. -/
def validatePair (pairId : String) (pair : Json) : Except String Unit := do
  let _ ← actorId (some (.str pairId))
  require (pair.isObj ∧ pair.get? "id" = some (.str pairId)) unavailable
  validateRow p pair

/-- What is demanded of an invite's row besides its link. -/
def validateOffer (inviteId : String) (invite : Json) : Except String Unit := do
  let _ ← identifier (some (.str inviteId))
  require ((invite.get? "status").all hashable = true) "TypeError"
  let status ← Checked.demand unavailable (statusOf invite)
  require (status ∈ ["open", "claimed", "cancelled"]) unavailable
  let proof ← verify p (invite.get? "proof")
  let inviter ← identity p (proof.payload.get? "inviter")
  require (proof.payload.get? "kind" = some (.str inviteKind) ∧
    proof.payload.get? "id" = some (.str inviteId) ∧
    inviter.get? "peer_id" = some (.str proof.publicKey) ∧
    inviter.get? "actor" = some (.str p.actor)) unavailable
  let created ← Checked.demand unavailable ((proof.payload.get? "created").bind Json.asInt?)
  let expires ← Checked.demand unavailable ((proof.payload.get? "expires").bind Json.asInt?)
  require (60 ≤ expires - created ∧ expires - created ≤ 3600) unavailable
  let offered ← selected (proof.payload.get? "scopes")
  require (proof.payload.get? "scopes" = some (.arr offered)) unavailable
  let _ ← actorId (proof.payload.get? "secret_hash")
  pure ()

/-- The pair an invite names is there, on the inviter's side and for this invite. -/
def validateLink (data : Data) (inviteId : String) (invite : Json) : Except String Unit :=
  match linkOf invite with
  | none => pure ()
  | some link => do
      require (hashable link) "TypeError"
      let pair ← Checked.demand unavailable (data.pairAt link)
      require (pair.get? "role" = some (.str "inviter") ∧
        pair.get? "invite_id" = some (.str inviteId)) unavailable

/-- `_validate`. -/
def validate (data : Data) : Except String Unit := do
  require (data.version = version) "sync_version_unsupported"
  require (data.actor = p.actor) "sync_device_identity_changed"
  require (data.invites.entries.length ≤ maxRecords) "sync_pairing_capacity_exhausted"
  require ((data.pairs.entries.filter fun e =>
      e.2.isObj && e.2.get? "status" ≠ some (.str "revoked")).length ≤ maxRecords)
    "sync_pairing_capacity_exhausted"
  forM data.pairs.entries fun e => validatePair p e.1 e.2
  forM data.invites.entries fun e => do
    validateOffer p e.1 e.2
    validateLink data e.1 e.2

end Validation

/-! ### Trimming and compaction -/

def isStatus (status : String) (row : Json) : Bool := row.get? "status" = some (.str status)

/-- The pairs that `_trim_revoked` drops. -/
def overflow (pairs : Dict String Json) : List String :=
  let revoked := (pairs.entries.filter fun e => isStatus "revoked" e.2).map Prod.fst
  revoked.take (revoked.length - maxRecords)

/-- `pairs.pop(..)` for each of the ids. -/
def popAll (pairs : Dict String Json) (ids : List String) : Dict String Json :=
  pairs.filter fun pairId _ => pairId ∉ ids

/-- The invite names one of the pairs. -/
def linkedTo (ids : List String) (invite : Json) : Bool :=
  match linkOf invite with
  | some (.str pairId) => pairId ∈ ids
  | _ => false

/-- `_clear_dangling_invite_links`. -/
def clearDanglingInviteLinks (invites : Dict String Json) (dropped : List String) :
    Dict String Json :=
  invites.mapValues fun invite =>
    if linkedTo dropped invite then invite.withField "pair_id" .null else invite

/-- Trim the revoked pairs and clear the links to them. -/
def Data.trimmed (data : Data) : Data :=
  { data with
    pairs := popAll data.pairs (overflow data.pairs)
    invites := clearDanglingInviteLinks data.invites (overflow data.pairs) }

/-- `invite["proof"]["payload"]["expires"]`, none where it is no number to compare. -/
def expiresOf (invite : Json) : Option Rat :=
  (((invite.get? "proof").bind (·.get? "payload")).bind (·.get? "expires")).bind Json.number?

/-- An invite that compaction can judge. -/
def readable (invite : Json) : Bool :=
  isStatus "cancelled" invite || (expiresOf invite).isSome

/-- The invite is finished, and not linked to one of the pairs. -/
def finished (linked : List String) (now : Rat) (invite : Json) : Bool :=
  (isStatus "cancelled" invite || (expiresOf invite).any (· ≤ now)) && !linkedTo linked invite

/-- The pairs that `_compact` drops. -/
def compactDropped (pairs : Dict String Json) : List String :=
  let rejected := (pairs.entries.filter fun e => isStatus "rejected" e.2).map Prod.fst
  rejected ++ overflow (popAll pairs rejected)

/-- `_compact`. -/
def compact (data : Data) (now : Rat) : Except String Data := do
  let dropped := compactDropped data.pairs
  require (∀ e ∈ data.invites.entries, readable e.2) "TypeError"
  let invites := data.invites.filter fun _ invite => !finished data.pairs.keys now invite
  pure { data with
    pairs := popAll data.pairs dropped
    invites := clearDanglingInviteLinks invites dropped }

/-! ### The budget of the diagnostics -/

def maxRejectionBytes : Nat := 2 * 1024 * 1024

def pairingHeadroom : Nat := 64 * 1024

/-- The refusals a pair has recorded, if any. -/
def rejectedOf (pair : Json) : Option Json :=
  ((pair.get? "transfer").bind (·.get? "rejected")).filter Json.truthy

/-- `pair.get("transfer", {}).get("rejected")` can be asked. -/
def transferReadable (pair : Json) : Bool :=
  pair.isObj && (pair.get? "transfer").all Json.isObj

/-- The refusals of one scope can be shortened. -/
def entryReadable (entry : Json) : Bool :=
  entry.isObj && (entry.get? "rows").all Json.isObj &&
    (entry.get? "overflow").all fun ids => (ids.asArr?.bind (·.mapM Json.asStr?)).isSome

/-- The longest run of items from the front that fits, and how many bytes it takes. -/
def fitting {α : Type} (cost : α → Nat) (quota : Nat) : List α → Nat → List α × Nat
  | [], used => ([], used)
  | item :: rest, used =>
      if quota < used + cost item then ([], used)
      else
        let kept := fitting cost quota rest (used + cost item)
        (item :: kept.1, kept.2)

def fieldsOf : Option Json → List (String × Json)
  | some (.obj fields) => fields
  | _ => []

def itemsOf (value : Option Json) : List String :=
  ((value.bind Json.asArr?).bind (·.mapM Json.asStr?)).getD []

/-- What stays of the entry of a scope. -/
def boundEntry (quota : Nat) (entry : Json) : Json :=
  let all := fieldsOf (entry.get? "rows")
  let ids := (itemsOf (entry.get? "overflow")).insertionSort (· ≤ ·)
  let rows := fitting (fun f => (Json.object [f]).size) quota all 0
  let held := fitting (fun i => (Json.str i).size + 1) quota ids rows.2
  let truncated := (entry.get? "overflow_truncated").any Json.truthy ||
    rows.1.length < all.length || held.1.length < ids.length
  .object ([("rows", .object rows.1), ("count", .int (rows.1.length + held.1.length))] ++
    (if held.1 = [] then [] else [("overflow", .arr (held.1.map .str))]) ++
    (if truncated then [("overflow_truncated", .bool true)] else []))

/-- What stays of a pair's transfer state under the quota of each entry. -/
def boundTransfer (quota : Nat) (transfer : Json) (scopes : List (String × Json)) : Json :=
  if quota = 0 then (transfer.without "rejected").withField "rejected_truncated" (.bool true)
  else transfer.withField "rejected" (.object (scopes.map fun e => (e.1, boundEntry quota e.2)))

def boundPair (quota : Nat) (pair : Json) : Json :=
  match rejectedOf pair, pair.get? "transfer" with
  | some section_, some transfer =>
      pair.withField "transfer" (boundTransfer quota transfer (fieldsOf (some section_)))
  | _, _ => pair

/-- The pair without the refusals it has recorded. -/
def withoutRejected (pair : Json) : Json :=
  match rejectedOf pair, pair.get? "transfer" with
  | some _, some transfer => pair.withField "transfer" (transfer.without "rejected")
  | _, _ => pair

/-- `bound_rejections`. -/
def boundRejections (data : Data) : Except String Data := do
  require (∀ pair ∈ data.pairs.values, transferReadable pair) "AttributeError"
  let sections := data.pairs.values.filterMap rejectedOf
  let bare := { data with pairs := data.pairs.mapValues withoutRejected }
  let available := min maxRejectionBytes (maxPlaintext - bare.json.size - pairingHeadroom)
  if (sections.map Json.size).sum ≤ available then pure data
  else do
    require (∀ section_ ∈ sections, section_.isObj) "AttributeError"
    let entries := sections.flatMap fun section_ => fieldsOf (some section_)
    let quota := available / max 1 entries.length - 256
    require (quota = 0 ∨ ∀ e ∈ entries, entryReadable e.2) "AttributeError"
    pure { data with pairs := data.pairs.mapValues (boundPair quota) }

/-! ### Operations -/

section Operations

variable (p : Platform)

/-- `mutate` of a stored document: what the next reading finds. -/
def mutate (data : Data) (now : Rat) (operation : Data → Except String Data) :
    Except String Data := do
  validate p data
  let compacted ← compact data now
  let changed ← operation compacted
  let bounded ← boundRejections changed.trimmed
  validate p bounded
  require (bounded.json.size ≤ maxPlaintext) "sync_pairing_capacity_exhausted"
  pure bounded.reread

/-- `_same_peer`. -/
def samePeer (left right : Json) : Bool :=
  left.get? "actor" = right.get? "actor" || left.get? "peer_id" = right.get? "peer_id"

/-- `_available`. -/
def available (own : Json) (data : Data) (remote : Json) : Except String Unit := do
  require (samePeer own remote = false) "sync_cannot_pair_self"
  require (∀ e ∈ data.pairs.entries, isStatus "active" e.2 = true →
    ((e.2.get? "remote").any fun other => samePeer other remote) = false)
    "sync_device_already_paired"

/-- An opened join request: the id of its pair, the invitation it carries, who sent it
and the scopes. -/
structure Join where
  pairId : String
  inviteId : String
  proof : Json
  /-- `inviter` and `expires` of the invitation's payload. -/
  inviter : Json
  expires : Int
  sender : Json
  scopes : Json

inductive JoinState
  | rejected (reason : String)
  | expired
  /-- The pair is recorded; the offer is sent along when there is one. -/
  | pending
  deriving DecidableEq

/-- What `receive_join` answers on account of the invite and the pair alone. -/
def refusal (data : Data) (now : Rat) (join : Join) (saved : Json) : Option JoinState :=
  let row := data.pairs.get? join.pairId
  if (linkOf saved).any fun link => link.truthy && link ≠ .str join.pairId then
    some (.rejected "sync_invite_used")
  else if isStatus "cancelled" saved ||
      row.any fun pair => isStatus "rejected" pair || isStatus "revoked" pair then
    some (.rejected "sync_pairing_cancelled")
  else if join.expires ≤ now ∧ row.all (fun pair => !isStatus "active" pair) then some .expired
  else none

/-- The row of a pair whose owner has not looked at it yet. -/
def Join.row (join : Join) : Json :=
  .object [("id", .str join.pairId), ("role", .str "inviter"), ("local", join.inviter),
    ("remote", join.sender), ("invite_id", .str join.inviteId), ("requested_scopes", join.scopes),
    ("expires", .int join.expires), ("status", .str "awaiting_owner")]

/-- `receive`, the inner operation of `receive_join`. -/
def receive (own : Json) (now : Rat) (join : Join) (data : Data) :
    Except String (Data × JoinState) := do
  let saved ← Checked.demand "sync_invite_invalid" (data.invites.get? join.inviteId)
  require ((saved.get? "proof").any (·.pyEq join.proof) = true) "sync_invite_invalid"
  match refusal data now join saved, data.pairs.get? join.pairId with
  | some state, _ => pure (data, state)
  | none, some _ => pure (data, .pending)
  | none, none => do
      available own data join.sender
      pure ({ data with
        pairs := data.pairs.set join.pairId join.row
        invites := data.invites.set join.inviteId
          ((saved.withField "status" (.str "claimed")).withField "pair_id" (.str join.pairId)) },
        .pending)

/-- `_same_identity`. -/
def sameIdentity (left right : Json) : Bool :=
  ["actor", "peer_id", "messaging_pub"].all fun key => left.get? key = right.get? key

/-- `_pair`. -/
def pairOf (own : Json) (data : Data) (pairId : String) : Except String Json := do
  let _ ← actorId (some (.str pairId))
  let row ← Checked.demand "sync_pairing_not_found" (data.pairs.get? pairId)
  require ((row.get? "local").any (sameIdentity · own) = true) "sync_device_identity_changed"
  pure row

/-- The row of a pair that is revoked, with the message that says so to the other side. -/
def revokedRow (row wire : Json) : Json :=
  ["secret", "offer", "confirm_wire", "join_wire"].foldl (fun row field => row.without field)
    ((row.withField "revoke_wire" wire).withField "status" (.str "revoked"))

/-- The inner operation of `PairingService.revoke`; `wire` is the sealed message. -/
def revoke (own wire : Json) (pairId : String) (expectedRevision : Json) (data : Data) :
    Except String Data := do
  let row ← pairOf own data pairId
  if isStatus "revoked" row then pure data
  else do
    let revision := ((row.get? "local_policy").bind (·.get? "revision")).getD (.int 0)
    require (expectedRevision.asInt?.isSome ∧ revision.pyEq expectedRevision = true)
      "sync_revision_conflict"
    pure { data with pairs := data.pairs.set pairId (revokedRow row wire) }

end Operations

end Pairing
