import Rynmesh.CheckedComputation
import Rynmesh.InsertionDict
import Rynmesh.JsonValue

/-!
# The file ledger of signed credit events

`FileCreditLedger` of `credits.py`: a directory with one file for each signed
event, named by the event's id.  Appending an event with a dedupe key first
looks for a recorded event with the key among the listed ones.

* `CreditEvent.fromPayload` and `verifyWithPolicy` read and check a signed
  event;
* `Ledger.listEvents` lists the events that still verify, and
  `Ledger.findByDedupe` looks one up among them;
* `Ledger.append` and `perform` are the calls, and `after` a run of them.
-/

namespace Credits

open Checked

/-! ### Values and exceptions -/

/-- What a call raises: a `CreditLedgerError`, or an exception of Python's own by
its class. -/
inductive Failure
  | ledger (message : String)
  | python (kind : String)
  deriving DecidableEq

/-- A Python float: its exact value, none when it is not finite, and its text. -/
structure PyFloat where
  value : Option Rat
  text : String
  deriving DecidableEq

/-- The JSON value of a float. -/
def PyFloat.json (x : PyFloat) : Json := .float x.value x.text

/-- What the code takes from Python and its libraries: `str`, `float` and `dict` of
a JSON value, the reading of a timestamp, the canonical text of a document,
SHA-256 as hexadecimal digits, and Ed25519 by its keys and texts. -/
structure Codec where
  str : Json → String
  float : Json → Except String PyFloat
  dict : Json → Except String Json
  fromisoformat : String → Except String Unit
  canonicalJson : Json → String
  sha256 : String → String
  publicKey : String → String
  signature : String → String → String
  verifies : String → String → String → Bool

/-- `IdentityTier`, in the order of `tier_can_issue`. -/
inductive IdentityTier
  | unverified
  | attested
  | staked
  | proven
  deriving DecidableEq

def IdentityTier.rank : IdentityTier → Nat
  | .unverified => 0
  | .attested => 1
  | .staked => 2
  | .proven => 3

def IdentityTier.value : IdentityTier → String
  | .unverified => "unverified"
  | .attested => "attested"
  | .staked => "staked"
  | .proven => "proven"

def TIER_MIN_TO_ISSUE : List (String × IdentityTier) :=
  [("node_joined", .unverified), ("content_published", .unverified),
    ("clip_published", .unverified), ("preview_served", .unverified),
    ("full_served", .unverified), ("registry_operated", .attested),
    ("availability_attested", .attested), ("safety_blocked", .attested),
    ("spam_reported", .attested), ("protocol_violation", .staked),
    ("illegal_content", .staked)]

/-- `tier_can_issue`. -/
def tierCanIssue (tier : IdentityTier) (kind : String) : Prop :=
  ((Dict.lookup kind TIER_MIN_TO_ISSUE).getD .staked).rank ≤ tier.rank

instance (tier : IdentityTier) (kind : String) : Decidable (tierCanIssue tier kind) :=
  inferInstanceAs (Decidable (_ ≤ _))

def CREDIT_LEDGER_VERSION : String := "rynmesh-credits-v0.1"
def GLOBAL_CATEGORY : String := "global"
def GENERAL_CATEGORY : String := "general"
def DEV_CATEGORY_PREFIX : String := "dev:"

def EVENT_WEIGHTS : List (String × PyFloat) :=
  [("node_joined", ⟨some 1, "1.0"⟩), ("content_published", ⟨some 8, "8.0"⟩),
    ("clip_published", ⟨some 8, "8.0"⟩), ("preview_served", ⟨some (1 / 2), "0.5"⟩),
    ("full_served", ⟨some 2, "2.0"⟩), ("registry_operated", ⟨some 10, "10.0"⟩),
    ("availability_attested", ⟨some 1, "1.0"⟩),
    ("job_capacity_advertised", ⟨some (1 / 4), "0.25"⟩),
    ("work_order_completed", ⟨some 0, "0.0"⟩), ("task_balance_opening", ⟨some 0, "0.0"⟩),
    ("task_hold", ⟨some 0, "0.0"⟩), ("task_release", ⟨some 0, "0.0"⟩),
    ("task_settle", ⟨some 0, "0.0"⟩), ("task_earning", ⟨some 0, "0.0"⟩),
    ("safety_blocked", ⟨some (-5), "-5.0"⟩), ("spam_reported", ⟨some (-10), "-10.0"⟩),
    ("protocol_violation", ⟨some (-25), "-25.0"⟩), ("illegal_content", ⟨some (-100), "-100.0"⟩)]

def CUSTOM_AMOUNT_EVENT_KINDS : List String :=
  ["work_order_completed", "task_balance_opening", "task_hold", "task_release", "task_settle",
    "task_earning"]

/-! ### Events -/

structure CreditEvent where
  subjectPeerId : String
  issuerPeerId : String
  kind : String
  amount : PyFloat
  role : String
  category : String
  subjectId : String
  evidenceHash : String
  reason : String
  dedupeKey : String
  metadata : Json
  createdAt : String
  creditVersion : String

/-- A signed document with its verification key. -/
structure SignedPayload where
  payload : Json
  signature : String
  publicKey : String
  alg : String

def SIGNATURE_ALG : String := "ed25519"

/-- `text or default`. -/
def orElse (text default : String) : String := if text = "" then default else text

def CreditEvent.unsignedPayload (event : CreditEvent) : Json :=
  .object [("credit_version", .str event.creditVersion), ("created_at", .str event.createdAt),
    ("subject_peer_id", .str event.subjectPeerId), ("issuer_peer_id", .str event.issuerPeerId),
    ("kind", .str event.kind), ("amount", event.amount.json), ("role", .str event.role),
    ("category", .str (orElse event.category GENERAL_CATEGORY)),
    ("subject_id", .str event.subjectId), ("evidence_hash", .str event.evidenceHash),
    ("reason", .str event.reason), ("dedupe_key", .str event.dedupeKey),
    ("metadata", event.metadata)]

variable (C : Codec)

/-- The digits of `credit_event_id`. -/
def eventDigest (unsigned : Json) : String := C.sha256 (C.canonicalJson unsigned)

/-- `credit_event_id`. -/
def creditEventId (unsigned : Json) : String := "sha256:" ++ eventDigest C unsigned

/-- The event id of an event. -/
def CreditEvent.eventId (event : CreditEvent) : String := creditEventId C event.unsignedPayload

def CreditEvent.toPayload (event : CreditEvent) : Json :=
  event.unsignedPayload.withField "event_id" (.str (event.eventId C))

/-- An exception of Python's own, by its class. -/
def raising {α : Type} : Except String α → Except Failure α
  | .ok a => .ok a
  | .error kind => .error (.python kind)

/-- `payload[key]`. -/
def field (payload : Json) (key : String) : Except Failure Json :=
  demand (.python "KeyError") (payload.get? key)

/-- `str(payload.get(key, default))`. -/
def textField (payload : Json) (key default : String) : String :=
  C.str ((payload.get? key).getD (.str default))

/-- `str(payload.get("category", GENERAL) or GENERAL)`. -/
def categoryField (payload : Json) : String :=
  match payload.get? "category" with
  | some value => C.str (if value.truthy then value else .str GENERAL_CATEGORY)
  | none => C.str (.str GENERAL_CATEGORY)

/-- A stated event id is the id of the rest of the document. -/
def checkEventId (payload : Json) : Except Failure Unit :=
  whenever ((payload.get? "event_id").any Json.truthy = true)
    (require (.ledger "credit_event_id_mismatch")
      (payload.get? "event_id" = some (.str (creditEventId C (payload.without "event_id")))))

def CreditEvent.fromPayload (payload : Json) : Except Failure CreditEvent := do
  checkEventId C payload
  let createdAt ← field payload "created_at"
  let subjectPeerId ← field payload "subject_peer_id"
  let issuerPeerId ← field payload "issuer_peer_id"
  let kind ← field payload "kind"
  let amount ← field payload "amount"
  let amount ← raising (C.float amount)
  let metadata ← raising (C.dict ((payload.get? "metadata").getD (.obj [])))
  pure {
    creditVersion := textField C payload "credit_version" CREDIT_LEDGER_VERSION
    createdAt := C.str createdAt
    subjectPeerId := C.str subjectPeerId
    issuerPeerId := C.str issuerPeerId
    kind := C.str kind
    amount
    role := textField C payload "role" "node"
    category := categoryField C payload
    subjectId := textField C payload "subject_id" ""
    evidenceHash := textField C payload "evidence_hash" ""
    reason := textField C payload "reason" ""
    dedupeKey := textField C payload "dedupe_key" ""
    metadata }

/-! ### Checks -/

/-- `default_credit_amount`. -/
def defaultCreditAmount (kind : String) : Except Failure PyFloat :=
  demand (.ledger ("unknown_credit_event_kind: " ++ kind)) (Dict.lookup kind EVENT_WEIGHTS)

/-- `_amount_allowed`. -/
def amountAllowed (kind : String) (amount : PyFloat) : Except Failure Bool := do
  let weight ← defaultCreditAmount kind
  pure <| match amount.value with
    | none => false
    | some value =>
        if kind ∈ CUSTOM_AMOUNT_EVENT_KINDS then decide (0 ≤ value)
        else decide (weight.value = some value)

/-- `_resolve_amount`. -/
def resolveAmount (kind : String) : Option PyFloat → Except Failure PyFloat
  | none => defaultCreditAmount kind
  | some amount => do
      let allowed ← amountAllowed kind amount
      require (.ledger "credit_event_amount_mismatch") (allowed = true)
      pure amount

/-- `value.replace("Z", "+00:00")`. -/
def zoned (value : String) : String :=
  String.ofList (value.toList.flatMap fun c => if c = 'Z' then "+00:00".toList else [c])

/-- `_parse_time`: what it returns is not used by a check. -/
def parseTime (value : String) : Except Failure Unit :=
  match C.fromisoformat (zoned value) with
  | .ok _ => .ok ()
  | .error kind =>
      .error (if kind = "ValueError" then .ledger "credit_event_time_invalid" else .python kind)

/-- `verify_signed_payload`; its `SignatureError` is a `ValueError`. -/
def verifySignedPayload (signed : SignedPayload) : Except Failure Unit :=
  require (.python "ValueError") (signed.alg = SIGNATURE_ALG ∧
    C.verifies signed.publicKey signed.signature (C.canonicalJson signed.payload) = true)

/-- The part of a policy that verification reads. -/
structure CreditPolicy where
  trustedPenaltyIssuers : List String
  enforceIssuerTier : Bool

/-- `except (KeyError, TypeError, ValueError)`, raised again as an error of the
ledger. -/
def invalidEvent : Failure → Failure
  | .python kind =>
      if kind ∈ ["KeyError", "TypeError", "ValueError"] then .ledger "invalid_credit_event"
      else .python kind
  | failure => failure

/-- The issuer's tier allows the kind, when the policy asks. -/
def checkIssuerTier (policy : CreditPolicy) (issuerTier : Option IdentityTier) (kind : String) :
    Except Failure Unit :=
  whenever (policy.enforceIssuerTier = true) do
    let tier ← demand (.ledger "credit_issuer_tier_required") issuerTier
    require (.ledger ("credit_issuer_tier_too_low: " ++ tier.value))
      (tierCanIssue tier kind)

/-- The first part of `verify_credit_event_with_policy`: the signature and the
fields. -/
def readSigned (signed : SignedPayload) : Except Failure CreditEvent := do
  verifySignedPayload C signed
  CreditEvent.fromPayload C signed.payload

/-- The checks that depend on the event alone. -/
def checkEvent (signed : SignedPayload) (event : CreditEvent) : Except Failure Unit := do
  require (.ledger "credit_event_issuer_key_mismatch")
    (event.issuerPeerId = signed.publicKey)
  let allowed ← amountAllowed event.kind event.amount
  require (.ledger "credit_event_amount_mismatch") (allowed = true)
  parseTime C event.createdAt

/-- The checks that depend on the policy and the issuer's tier. -/
def checkPolicy (policy : CreditPolicy) (issuerTier : Option IdentityTier) (event : CreditEvent) :
    Except Failure Unit := do
  require (.ledger "credit_penalty_issuer_untrusted")
    (¬ (event.amount.value.any (· < 0) = true ∧ event.issuerPeerId ≠ event.subjectPeerId ∧
      event.issuerPeerId ∉ policy.trustedPenaltyIssuers))
  checkIssuerTier policy issuerTier event.kind

/-- `verify_credit_event_with_policy`. -/
def verifyWithPolicy (policy : CreditPolicy) (issuerTier : Option IdentityTier)
    (signed : SignedPayload) : Except Failure CreditEvent := do
  let event ← (readSigned C signed).mapError invalidEvent
  checkEvent C signed event
  checkPolicy policy issuerTier event
  pure event

/-! ### The ledger -/

/-- The path of an event's file: its directory and its name. -/
abbrev EventPath : Type := String × String

/-- The order of two paths. -/
def EventPath.le (a b : EventPath) : Bool :=
  decide (a.1 < b.1) || (decide (a.1 = b.1) && decide (a.2 ≤ b.2))

/-- `_event_path`, below the directory of the events. -/
def CreditEvent.path (event : CreditEvent) : EventPath :=
  (String.ofList ((C.sha256 event.subjectPeerId).toList.take 16),
    eventDigest C event.unsignedPayload ++ ".json")

/-- The files of a ledger. -/
structure Ledger where
  files : Dict EventPath SignedPayload

def Ledger.empty : Ledger := ⟨.empty⟩

/-- What is outside a call: the policy, the tier resolver, the clock, and the
files that cannot be read. -/
structure Environment where
  policy : CreditPolicy
  issuerTier : String → Option IdentityTier
  now : String
  unreadable : EventPath → Bool

/-- Verify a signed event under the policy of the call. -/
def verify (env : Environment) (signed : SignedPayload) : Except Failure CreditEvent := do
  let peek ← CreditEvent.fromPayload C signed.payload
  verifyWithPolicy C env.policy (env.issuerTier peek.issuerPeerId) signed

/-- The `except` of `list_events`, which skips the file. -/
def skipping {α : Type} : Except Failure α → Except Failure (Option α)
  | .ok a => .ok (some a)
  | .error (.ledger _) => .ok none
  | .error (.python kind) =>
      if kind ∈ ["KeyError", "ValueError"] then .ok none else .error (.python kind)

/-- What the loop of `list_events` reads from a file. -/
def readFile (env : Environment) (path : EventPath) (signed : SignedPayload) :
    Except Failure (Option CreditEvent) :=
  if env.unreadable path then .ok none else skipping (verify C env signed)

/-- `_category_matches`. -/
def categoryMatches (eventCategory requested : String) : Bool :=
  if DEV_CATEGORY_PREFIX.toList.isPrefixOf eventCategory.toList then eventCategory = requested
  else if requested = "" ∨ requested = GLOBAL_CATEGORY then true
  else eventCategory ∈ [requested, GENERAL_CATEGORY]

/-- The event is listed for a subject and a category. -/
def listed (subject category : String) (event : CreditEvent) : Bool :=
  (subject = "" ∨ event.subjectPeerId = subject) && categoryMatches event.category category

/-- The loop of `list_events` over the paths in order. -/
def listFiles (env : Environment) (subject category : String) :
    List (EventPath × SignedPayload) → Except Failure (List SignedPayload)
  | [] => pure []
  | (path, signed) :: rest => do
      let event ← readFile C env path signed
      let events ← listFiles env subject category rest
      pure (if event.any (listed subject category) then signed :: events else events)

/-- The files in the order of their paths. -/
def Ledger.sorted (ledger : Ledger) : List (EventPath × SignedPayload) :=
  ledger.files.entries.insertionSort fun a b => a.1.le b.1 = true

def Ledger.listEvents (env : Environment) (ledger : Ledger) (subject category : String) :
    Except Failure (List SignedPayload) :=
  listFiles C env subject category ledger.sorted

/-- Issuer, subject, kind and dedupe key of two events agree. -/
def SameKey (event other : CreditEvent) : Prop :=
  event.issuerPeerId = other.issuerPeerId ∧ event.subjectPeerId = other.subjectPeerId ∧
    event.kind = other.kind ∧ event.dedupeKey = other.dedupeKey

/-- The loop of `find_by_dedupe`. -/
def firstMatching (issuer kind dedupeKey : String) :
    List SignedPayload → Except Failure (Option SignedPayload)
  | [] => pure none
  | signed :: rest => do
      let event ← CreditEvent.fromPayload C signed.payload
      if event.issuerPeerId = issuer ∧ event.kind = kind ∧ event.dedupeKey = dedupeKey then
        pure (some signed)
      else firstMatching issuer kind dedupeKey rest

def Ledger.findByDedupe (env : Environment) (ledger : Ledger)
    (issuer subject kind dedupeKey : String) : Except Failure (Option SignedPayload) := do
  let events ← ledger.listEvents C env subject GLOBAL_CATEGORY
  firstMatching C issuer kind dedupeKey events

/-- How a call answers. -/
inductive Status
  | recorded (path : EventPath)
  | alreadyRecorded

structure Receipt where
  status : Status
  eventId : String
  subjectPeerId : String
  kind : String
  amount : PyFloat

/-- The answer about an event. -/
def CreditEvent.receipt (event : CreditEvent) (status : Status) : Receipt :=
  { status, eventId := event.eventId C, subjectPeerId := event.subjectPeerId,
    kind := event.kind, amount := event.amount }

/-- The file of an event is written. -/
def Ledger.write (ledger : Ledger) (event : CreditEvent) (signed : SignedPayload) : Ledger :=
  ⟨ledger.files.set (event.path C) signed⟩

/-- The lookup of `append`, for an event with a dedupe key. -/
def Ledger.existing (env : Environment) (ledger : Ledger) (event : CreditEvent) :
    Except Failure (Option SignedPayload) :=
  if event.dedupeKey = "" then pure none
  else ledger.findByDedupe C env event.issuerPeerId event.subjectPeerId event.kind event.dedupeKey

/-- The end of `append`: answer with the existing event, or write the new one. -/
def Ledger.conclude (env : Environment) (ledger : Ledger) (event : CreditEvent)
    (signed : SignedPayload) : Option SignedPayload → Except Failure (Ledger × Receipt)
  | some existing => do
      let event ← verifyWithPolicy C env.policy (env.issuerTier event.issuerPeerId) existing
      pure (ledger, event.receipt C .alreadyRecorded)
  | none => pure (ledger.write C event signed, event.receipt C (.recorded (event.path C)))

def Ledger.append (env : Environment) (ledger : Ledger) (signed : SignedPayload) :
    Except Failure (Ledger × Receipt) := do
  let event ← verify C env signed
  let existing ← ledger.existing C env event
  ledger.conclude C env event signed existing

/-! ### Calls -/

/-- The arguments of `record`. -/
structure Recording where
  subjectPeerId : String
  issuerPeerId : String
  privateKey : String
  kind : String
  amount : Option PyFloat
  role : String
  category : String
  subjectId : String
  evidenceHash : String
  reason : String
  dedupeKey : String
  metadata : Json

/-- The event of `record`. -/
def Recording.event (recording : Recording) (amount : PyFloat) (now : String) : CreditEvent :=
  { subjectPeerId := recording.subjectPeerId, issuerPeerId := recording.issuerPeerId,
    kind := recording.kind, amount, role := recording.role,
    category := orElse recording.category GENERAL_CATEGORY, subjectId := recording.subjectId,
    evidenceHash := recording.evidenceHash, reason := recording.reason,
    dedupeKey := recording.dedupeKey, metadata := recording.metadata, createdAt := now,
    creditVersion := CREDIT_LEDGER_VERSION }

/-- `sign_credit_event`. -/
def signCreditEvent (event : CreditEvent) (privateKey : String) : SignedPayload :=
  { payload := event.toPayload C
    signature := C.signature privateKey (C.canonicalJson (event.toPayload C))
    publicKey := C.publicKey privateKey
    alg := SIGNATURE_ALG }

inductive Call
  | append (signed : SignedPayload)
  | record (recording : Recording)

/-- The signed event of a call. -/
def Call.signed (env : Environment) : Call → Except Failure SignedPayload
  | .append signed => pure signed
  | .record recording => do
      let amount ← resolveAmount recording.kind recording.amount
      pure (signCreditEvent C (recording.event amount env.now) recording.privateKey)

/-- A call on the ledger. -/
def perform (ledger : Ledger) (env : Environment) (call : Call) :
    Except Failure (Ledger × Receipt) := do
  let signed ← call.signed C env
  ledger.append C env signed

/-- The ledger after a call; one that raises leaves the files alone. -/
def Ledger.next (ledger : Ledger) (env : Environment) (call : Call) : Ledger :=
  match perform C ledger env call with
  | .ok (ledger, _) => ledger
  | .error _ => ledger

/-- The ledger after a run of calls. -/
def after (ledger : Ledger) : List (Environment × Call) → Ledger
  | [] => ledger
  | (env, call) :: rest => after (ledger.next C env call) rest

end Credits
