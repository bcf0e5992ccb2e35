import Rynmesh.CheckedComputation
import Rynmesh.JsonValue

/-!
# The exchange rules both protocol versions share

`protocol.py` and the frozen `legacy_v1.py` hold the same validators, manifest
check, account operations and listing, proposal and reward actions; they
differ in the order lifecycle.  This file models the shared part, generic in
the type of an order record.

Hashing and Ed25519 come from outside the repository: a `Codec` supplies
`sha256_bytes(canonical_json(.))`, signing and signature verification.  A
private key is named by the public key it determines.

Amounts and times are integers, as in the source, so that the run-time checks
against negative balances are checks and not artefacts of the number type.
-/

namespace Exchange

open Checked

/-! ### Errors -/

/-- The accounting checks, told apart from every other refusal: the supply and
balance checks that end `apply`, the one in `unhold`, the capacity in `earn`
and the reserve check of a ruling. -/
inductive Guard
  | supply
  | balance
  | unhold
  | earn
  | reserve
deriving DecidableEq

/-- An `ExchangeError` with its code, or another Python exception. -/
inductive Failure
  | exchange (code : String) (guard : Option Guard)
  | python (kind : String)
deriving DecidableEq

/-- The failure comes from one of the accounting checks. -/
def Failure.Guarded : Failure → Prop
  | .exchange _ (some _) => True
  | _ => False

/-- An `ExchangeError` of any check but the accounting ones. -/
def refusal (code : String) : Failure := .exchange code none

@[simp] theorem not_guarded_refusal (code : String) : ¬ (refusal code).Guarded := id

@[simp] theorem not_guarded_python (kind : String) : ¬ (Failure.python kind).Guarded := id

def require (p : Prop) [Decidable p] (code : String := "exchange_invalid") :
    Except Failure Unit :=
  Checked.require (refusal code) p

/-- `require` at one of the accounting checks. -/
def guarded (g : Guard) (p : Prop) [Decidable p] (code : String := "exchange_invalid") :
    Except Failure Unit :=
  Checked.require (.exchange code (some g)) p

/-- The value an expression of the source needs, with the code it refuses by. -/
def demand {α : Type} (o : Option α) (code : String := "exchange_invalid") :
    Except Failure α :=
  Checked.demand (refusal code) o

/-- `row[k]` for a key that may be missing. -/
def need {α : Type} (o : Option α) : Except Failure α :=
  Checked.demand (.python "KeyError") o

/-! ### Constants -/

def VERSION : String := "ryn.exchange.v2"
def LEGACY_VERSION : String := "ryn.exchange.v1"
def MAX_OPERATIONS : Int := 10000
def MAX_ACCOUNT_ADMISSIONS : Int := 100
def ORDER_OPERATION_RESERVE : Int := 24
def MAX_OPEN_ORDERS : Int := 6
def CLOCK_SKEW : Int := 30
def DELIVERY_WINDOW : Int := 7 * 86400
def REVIEW_WINDOW : Int := 2 * 86400
def CASE_WINDOW : Int := 2 * 86400
def UNITS : Int := 1000000
def MAX_MINOR : Int := 10 ^ 15

def PRINCIPLES : Json := .arr [.str "free participation", .str "no platform commission",
  .str "direct agreed prices", .str "honest delivery", .str "lawful ethical work",
  .str "consent and rights", .str "public rules and audit",
  .str "private keys and deliverables", .str "independent AI appeals"]

def COVENANT : Json := .object [
  ("version", .str "ryn.covenant.digital.v2"),
  ("principles", PRINCIPLES),
  ("acceptance", .str ("The buyer accepts delivery or both parties agree a refund. " ++
    "Disputed outcomes use independent model receipts. Accepted deadlines allow explicit " ++
    "timeout settlement: undelivered work is refunded; delivered work is paid after review; " ++
    "an unresolved initial dispute with delivery splits the price equally (without delivery " ++
    "it refunds); an unresolved appeal retains the first ruling. Committed judge fees remain " ++
    "paid."))]

def LEGACY_COVENANT : Json := .object [
  ("version", .str "ryn.covenant.digital.v1"),
  ("principles", PRINCIPLES),
  ("acceptance", .str ("The buyer accepts delivery or both parties agree a refund. " ++
    "Disputed outcomes use independent model receipts; uncertainty holds funds."))]

/-! ### Validators of single values -/

/-- The characters `str.strip` removes. -/
def isSpace (c : Char) : Bool :=
  let n := c.toNat
  (9 ≤ n && n ≤ 13) || (28 ≤ n && n ≤ 32) || n == 0x85 || n == 0xa0 || n == 0x1680 ||
    (0x2000 ≤ n && n ≤ 0x200a) || n == 0x2028 || n == 0x2029 || n == 0x202f ||
    n == 0x205f || n == 0x3000

def text (value : Json) (limit : Nat) : Except Failure String := do
  let s ← demand value.asStr?
  require (s.utf8ByteSize ≤ limit)
  require (s.toList.any fun c => !isSpace c)
  pure s

def integer (value : Json) (maximum : Int := MAX_MINOR) : Except Failure Int := do
  let n ← demand value.asInt?
  require (0 ≤ n ∧ n ≤ maximum)
  pure n

def isIdentifierChar (c : Char) : Bool :=
  c.isAlphanum || c == '_' || c == '-'

/-- `re.fullmatch("[a-zA-Z0-9_-]{8,80}", value)`. -/
def IsIdentifier (s : String) : Prop :=
  8 ≤ s.toList.length ∧ s.toList.length ≤ 80 ∧ s.toList.all isIdentifierChar = true

instance (s : String) : Decidable (IsIdentifier s) :=
  inferInstanceAs (Decidable (_ ∧ _ ∧ _))

def identifier (value : Json) : Except Failure String := do
  let s ← demand value.asStr?
  require (IsIdentifier s)
  pure s

def base64Alphabet : List Char :=
  "ABCDEFGHIJKLMNOPQRSTUVWXYZabcdefghijklmnopqrstuvwxyz0123456789+/".toList

/-- The text is what `b64encode` writes for 32 bytes: 43 letters of the
alphabet, the last of them without stray low bits, and one pad. -/
def IsKey (s : String) : Prop :=
  s.toList.length = 44 ∧ s.toList.drop 43 = ['='] ∧
    (s.toList.take 43).all (· ∈ base64Alphabet) = true ∧
    base64Alphabet.idxOf (s.toList.getD 42 'A') % 4 = 0

instance (s : String) : Decidable (IsKey s) :=
  inferInstanceAs (Decidable (_ ∧ _ ∧ _ ∧ _))

def key (value : Json) : Except Failure String := do
  let s ← demand value.asStr? "exchange_key_invalid"
  require (IsKey s) "exchange_key_invalid"
  pure s

/-- `re.fullmatch("sha256:[a-f0-9]{64}", s)`. -/
def IsDigest (s : String) : Prop :=
  s.toList.length = 71 ∧ s.toList.take 7 = "sha256:".toList ∧
    (s.toList.drop 7).all (fun c => c.isDigit || ('a' ≤ c && c ≤ 'f')) = true

instance (s : String) : Decidable (IsDigest s) :=
  inferInstanceAs (Decidable (_ ∧ _ ∧ _))

/-- The digest a command field must be; `re` raises on anything but text. -/
def digestText (value : Json) : Except Failure String := do
  let s ← Checked.demand (.python "TypeError") value.asStr?
  require (IsDigest s)
  pure s

/-- `value in {..}` for a set of strings; a list or an object has no hash. -/
def oneOf (value : Option Json) (names : List String) : Except Failure Unit :=
  match value with
  | some (.arr _) | some (.obj _) => .error (.python "TypeError")
  | some (.str s) => require (s ∈ names)
  | _ => require False

/-- `rows.get(k)` with the key under which the row was found. -/
def find {α : Type} (rows : Dict String α) (k : Option Json) :
    Except Failure (Option (String × α)) :=
  match k with
  | some (.str s) => .ok ((rows.get? s).map fun row => (s, row))
  | some (.arr _) | some (.obj _) => .error (.python "TypeError")
  | _ => .ok none

/-! ### Signed payloads -/

/-- Hashing and signatures, supplied from outside. -/
structure Codec where
  /-- `sha256_bytes(canonical_json(value))`. -/
  sha256 : Json → String
  /-- The Ed25519 signature the key pair of a public key makes on a payload. -/
  sign : String → Json → String
  /-- Ed25519 verification of a payload under a public key. -/
  verifies : (publicKey : String) → (signature : Json) → (payload : Json) → Bool
  /-- The integer that a text compares as with a column of integers. -/
  affinity : String → Option Int := String.toInt?

/-- A codec for examples: every value has one digest, and a key signs whatever
it signs with its name. -/
def Codec.plain : Codec where
  sha256 _ := "sha256:0000000000000000000000000000000000000000000000000000000000000000"
  sign key _ := key
  verifies key sig _ := sig == .str key

theorem Codec.plain_digest (value : Json) : IsDigest (Codec.plain.sha256 value) := by
  show IsDigest "sha256:0000000000000000000000000000000000000000000000000000000000000000"
  decide +kernel

/-- A codec for examples without collisions: the known values have short
digests, and any other is its own code. -/
def Codec.table (known : List Json) : Codec where
  sha256 value :=
    if value ∈ known then String.ofList ('%' :: List.replicate (known.idxOf value) '+')
    else String.ofList value.encode
  sign key _ := key
  verifies key sig _ := sig == .str key

theorem Codec.table_injective (known : List Json) :
    Function.Injective (Codec.table known).sha256 := by
  intro a b h
  have hcode : ∀ value rest, Json.encode value ≠ '%' :: rest := by
    intro value rest
    cases value with
    | bool b => cases b <;> simp [Json.encode]
    | _ => simp [Json.encode]
  simp only [Codec.table] at h
  by_cases ha : a ∈ known <;> by_cases hb : b ∈ known
  · simp only [ha, hb, if_true, String.ofList_inj, List.cons.injEq, true_and] at h
    have hidx : known.idxOf a = known.idxOf b := by
      simpa using congrArg List.length h
    exact (List.idxOf_inj ha).mp hidx
  · simp only [ha, hb, if_true, if_false, String.ofList_inj] at h
    exact absurd h.symm (hcode b _)
  · simp only [ha, hb, if_true, if_false, String.ofList_inj] at h
    exact absurd h (hcode a _)
  · simp only [ha, hb, if_false] at h
    exact Json.encode_injective h

variable (C : Codec)

structure SignedPayload where
  payload : Json
  publicKey : String

/-- `sign_payload(payload, private_key_bytes=..).to_dict()`. -/
def signPayload (publicKey : String) (payload : Json) : Json :=
  .object [("alg", .str "ed25519"), ("public_key", .str publicKey),
    ("signature", .str (C.sign publicKey payload)), ("payload", payload)]

/-- The wire names no algorithm but Ed25519. -/
def algorithmKnown (wire : Json) : Bool :=
  match wire.get? "alg" with
  | none => true
  | some alg => alg == .str "ed25519"

def signature (wire : Json) : Except Failure SignedPayload := do
  let payload ← demand ((wire.get? "payload").bind Json.dict?) "exchange_signature_invalid"
  let sig ← demand (wire.get? "signature") "exchange_signature_invalid"
  let publicKey ← demand ((wire.get? "public_key").bind Json.asStr?)
    "exchange_signature_invalid"
  require (algorithmKnown wire ∧ C.verifies publicKey sig payload = true)
    "exchange_signature_invalid"
  let _ ← key (.str publicKey)
  require (payload.size ≤ 256 * 1024) "exchange_capacity"
  pure { payload, publicKey }

/-! ### The manifest -/

structure Validator where
  peerId : String
  endpoint : String
deriving DecidableEq

structure Judge where
  peerId : String
  endpoint : String
  encryptionKey : String
  model : String
  fee : Int
deriving DecidableEq

def Judge.toJson (j : Judge) : Json :=
  .object [("peer_id", .str j.peerId), ("endpoint", .str j.endpoint),
    ("encryption_key", .str j.encryptionKey), ("model", .str j.model), ("fee", .int j.fee)]

/-- An accepted manifest.  What `genesis` checks is part of the type: four to
eight validators, no judge or at least six, every peer named once, one model
per judge, bounded fees, a reward within the issuance limit. -/
structure Config where
  raw : Json
  version : String
  validators : List Validator
  judges : List Judge
  issuanceLimit : Int
  workReward : Int
  appealWindow : Int
  covenant : Json
  validators_size : 4 ≤ validators.length ∧ validators.length ≤ 8
  judges_size : judges.length = 0 ∨ 6 ≤ judges.length ∧ judges.length ≤ 12
  validators_nodup : (validators.map (·.peerId)).Nodup
  judges_nodup : (judges.map (·.peerId)).Nodup
  peers_disjoint : ∀ j ∈ judges, j.peerId ∉ validators.map (·.peerId)
  fees_bounded : ∀ j ∈ judges, 0 ≤ j.fee ∧ j.fee ≤ UNITS
  models_nodup : (judges.map (·.model)).Nodup
  issuance_bounded : issuanceLimit ≤ 1000000 * UNITS
  reward_bounded : 0 < workReward ∧ workReward ≤ issuanceLimit
  window_bounded : 60 ≤ appealWindow ∧ appealWindow ≤ 604800

/-- One roster entry of the validators.  An entry that the judges list too is
read as a judge as well, and lacks the keys for it. -/
def readValidator (judges : List Json) (seen : List String) (entry : Json) :
    Except Failure Validator := do
  require (entry.HasKeys ["peer_id", "endpoint"])
  let peer ← key (← need (entry.get? "peer_id"))
  require (peer ∉ seen)
  let endpoint ← text (← need (entry.get? "endpoint")) 2048
  Checked.require (.python "KeyError") ((judges.any fun j => entry.pyEq j) = false)
  pure { peerId := peer, endpoint }

/-- One roster entry of the judges.  An entry that the validators list too has
to have the validators' keys. -/
def readJudge (validators : List Json) (seen : List String) (entry : Json) :
    Except Failure Judge := do
  require (entry.HasKeys
    (if (validators.any fun v => entry.pyEq v) then ["peer_id", "endpoint"]
      else ["peer_id", "endpoint", "encryption_key", "model", "fee"]))
  let peer ← key (← need (entry.get? "peer_id"))
  require (peer ∉ seen)
  let endpoint ← text (← need (entry.get? "endpoint")) 2048
  let encryptionKey ← key (← need (entry.get? "encryption_key"))
  let model ← text (← need (entry.get? "model")) 100
  let fee ← integer (← need (entry.get? "fee")) UNITS
  pure { peerId := peer, endpoint, encryptionKey, model, fee }

/-- Read the entries of one roster; `seen` are the peers read so far. -/
def readRoster {α : Type} (peer : α → String)
    (read : List String → Json → Except Failure α) :
    List String → List Json → Except Failure (List α)
  | _, [] => pure []
  | seen, entry :: rest => do
      let a ← read seen entry
      let as ← readRoster peer read (peer a :: seen) rest
      pure (a :: as)

section Roster

variable {α : Type} {peer : α → String} {read : List String → Json → Except Failure α}
  {P : α → Prop}

theorem readRoster_ok (hread : ∀ seen entry a, read seen entry = .ok a → peer a ∉ seen ∧ P a) :
    ∀ (seen : List String) (entries : List Json) (as : List α),
      readRoster peer read seen entries = .ok as →
      as.length = entries.length ∧ (as.map peer).Nodup ∧ ∀ a ∈ as, peer a ∉ seen ∧ P a := by
  intro seen entries
  induction entries generalizing seen with
  | nil =>
    intro as h
    have : [] = as := by simpa [readRoster] using h
    subst this
    simp
  | cons entry rest ih =>
    intro as h
    simp only [readRoster, bind_ok, pure_ok] at h
    obtain ⟨a, ha, bs, hbs, rfl⟩ := h
    obtain ⟨hlen, hnodup, hall⟩ := ih (peer a :: seen) bs hbs
    obtain ⟨hseen, hP⟩ := hread seen entry a ha
    refine ⟨by simp [hlen], ?_, ?_⟩
    · rw [List.map_cons, List.nodup_cons]
      refine ⟨?_, hnodup⟩
      intro hmem
      obtain ⟨b, hb, hab⟩ := List.mem_map.mp hmem
      exact (hall b hb).1 (by simp [hab])
    · intro b hb
      rcases List.mem_cons.mp hb with rfl | hb
      · exact ⟨hseen, hP⟩
      · exact ⟨fun hs => (hall b hb).1 (.tail _ hs), (hall b hb).2⟩

end Roster

@[simp] theorem require_ok {p : Prop} [Decidable p] {code : String} {u : Unit} :
    require p code = .ok u ↔ p :=
  Checked.require_ok

@[simp] theorem guarded_ok {g : Guard} {p : Prop} [Decidable p] {code : String} {u : Unit} :
    guarded g p code = .ok u ↔ p :=
  Checked.require_ok

@[simp] theorem demand_ok {α : Type} {o : Option α} {code : String} {a : α} :
    demand o code = .ok a ↔ o = some a :=
  Checked.demand_ok

@[simp] theorem need_ok {α : Type} {o : Option α} {a : α} : need o = .ok a ↔ o = some a :=
  Checked.demand_ok

theorem integer_ok {value : Json} {maximum n : Int} :
    integer value maximum = .ok n ↔ value = .int n ∧ 0 ≤ n ∧ n ≤ maximum := by
  cases value <;> simp [integer, bind_ok, Json.asInt?]
  grind

theorem key_ok {value : Json} {s : String} : key value = .ok s ↔ value = .str s ∧ IsKey s := by
  cases value <;> simp [key, bind_ok, Json.asStr?]
  grind

theorem identifier_ok {value : Json} {s : String} :
    identifier value = .ok s ↔ value = .str s ∧ IsIdentifier s := by
  cases value <;> simp [identifier, bind_ok, Json.asStr?]
  grind

theorem readValidator_ok {judges : List Json} {seen : List String} {entry : Json}
    {v : Validator} (h : readValidator judges seen entry = .ok v) :
    v.peerId ∉ seen := by
  simp only [readValidator, bind_ok, require_ok, pure_ok] at h
  obtain ⟨_, _, _, _, _, _, _, hseen, _, _, _, _, _, _, rfl⟩ := h
  exact hseen

theorem readJudge_ok {validators : List Json} {seen : List String} {entry : Json}
    {j : Judge} (h : readJudge validators seen entry = .ok j) :
    j.peerId ∉ seen ∧ 0 ≤ j.fee ∧ j.fee ≤ UNITS := by
  simp only [readJudge, bind_ok, require_ok, pure_ok, integer_ok] at h
  obtain ⟨_, _, _, _, _, _, _, hseen, _, _, _, _, _, _, _, _, _, _, _, _, _, _, fee, ⟨_, hfee⟩,
    rfl⟩ := h
  exact ⟨hseen, hfee⟩

/-- The manifest check for one version and its covenant. -/
def genesisOf (version : String) (covenant : Json) (value : Json) : Except Failure Config := do
  require (value.HasKeys ["version", "name", "validators", "judges", "issuance_limit",
    "work_reward", "appeal_window_s", "covenant"])
  require (value.get? "version" = some (.str version) ∧
    ((value.get? "covenant").any fun c => c.pyEq covenant) = true)
  let _ ← text (← need (value.get? "name")) 100
  let vs ← demand ((value.get? "validators").bind Json.asArr?)
  let js ← demand ((value.get? "judges").bind Json.asArr?)
  let ⟨_, hvsize⟩ ← attach (require (4 ≤ vs.length ∧ vs.length ≤ 8))
  let ⟨_, hjsize⟩ ← attach
    (require (js.length = 0 ∨ 6 ≤ js.length ∧ js.length ≤ 12))
  let ⟨validators, hvs⟩ ← attach (readRoster (·.peerId) (readValidator js) [] vs)
  let ⟨judges, hjs⟩ ← attach
    (readRoster (·.peerId) (readJudge vs) (validators.map (·.peerId)) js)
  let ⟨_, hmodels⟩ ← attach
    (require ((judges.map (·.model)).Nodup) "exchange_independent_models_required")
  let ⟨issuanceLimit, hlimit⟩ ← attach
    (integer (← need (value.get? "issuance_limit")) (1000000 * UNITS))
  let workReward ← integer (← need (value.get? "work_reward")) (100 * UNITS)
  let ⟨_, hreward⟩ ← attach (require (0 < workReward ∧ workReward ≤ issuanceLimit))
  let appealWindow ← demand ((value.get? "appeal_window_s").bind Json.asInt?)
  let ⟨_, hwindow⟩ ← attach (require (60 ≤ appealWindow ∧ appealWindow ≤ 604800))
  have hv := readRoster_ok (fun _ _ _ h => ⟨readValidator_ok h, trivial⟩) _ _ _ hvs
  have hj := readRoster_ok (fun _ _ _ h => readJudge_ok h) _ _ _ hjs
  pure {
    raw := value, version, validators, judges, issuanceLimit, workReward, appealWindow,
    covenant
    validators_size := by rw [hv.1]; exact require_ok.mp hvsize
    judges_size := by rw [hj.1]; exact require_ok.mp hjsize
    validators_nodup := hv.2.1
    judges_nodup := hj.2.1
    peers_disjoint := fun j h => (hj.2.2 j h).1
    fees_bounded := fun j h => (hj.2.2 j h).2
    models_nodup := require_ok.mp hmodels
    issuance_bounded := (integer_ok.mp hlimit).2.2
    reward_bounded := require_ok.mp hreward
    window_bounded := require_ok.mp hwindow }

def genesis (value : Json) : Except Failure Config :=
  if value.get? "version" = some (.str LEGACY_VERSION) then
    genesisOf LEGACY_VERSION LEGACY_COVENANT value
  else
    genesisOf VERSION COVENANT value

/-- A key for examples, told from others by a letter whose low bits are clear. -/
def sampleKey (letter : Char) : String :=
  String.ofList (List.replicate 42 'A' ++ [letter, '='])

/-- A manifest for examples: four validators and six judges. -/
def sampleManifest : Json :=
  .object [("version", .str VERSION), ("name", .str "sample"),
    ("validators", .arr (['A', 'E', 'I', 'M'].map fun letter =>
      .object [("peer_id", .str (sampleKey letter)), ("endpoint", .str "http://node")])),
    ("judges", .arr (['c', 'g', 'k', 'o', 's', 'w'].map fun letter =>
      .object [("peer_id", .str (sampleKey letter)), ("endpoint", .str "http://node"),
        ("encryption_key", .str (sampleKey letter)), ("model", .str (sampleKey letter)),
        ("fee", .int 2)])),
    ("issuance_limit", .int 100), ("work_reward", .int 10),
    ("appeal_window_s", .int 60), ("covenant", COVENANT)]

theorem sampleManifest_accepted : (genesis sampleManifest).toOption.isSome = true := by
  decide +kernel

def sampleConfig : Config := (genesis sampleManifest).toOption.get sampleManifest_accepted

theorem genesis_sampleManifest : genesis sampleManifest = .ok sampleConfig :=
  Checked.toOption_get sampleManifest_accepted

def network (config : Config) : String := C.sha256 config.raw

def quorum (config : Config) : Nat := config.validators.length * 2 / 3 + 1

def Config.validatorKeys (config : Config) : List String := config.validators.map (·.peerId)

end Exchange
