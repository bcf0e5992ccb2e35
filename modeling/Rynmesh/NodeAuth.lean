import Rynmesh.DoubleRounding
import Rynmesh.JsonValue
import Rynmesh.RouteHysteresis

/-!
# Who may use the control surface

`node_auth.py`: a request is let in when it is local, or when it shows a session, an access
assertion or the token of the node.

* `token` and `rotateToken` keep the token in a file;
* `verifySession`, `verifyAccessJwt` and the bearer check each judge one kind of credential;
* `authorize` asks them one after the other.

An attempt at the token file says what the system does there.  The keys that the perimeter
publishes and the signatures are those of the services outside.
-/

namespace NodeAuth

open Checked Route

abbrev Bytes := List UInt8

/-- A JWK. -/
structure Jwk where
  fields : List (String × Json)

structure Platform where
  /-- `str.strip`. -/
  strip : String → String
  /-- `str.lower`. -/
  lower : String → String
  /-- `float` of a text, none where it raises. -/
  float : String → Option Number
  /-- `int` of a text, none where it raises. -/
  int : String → Option Int
  /-- `str` of a JSON value. -/
  str : Json → String
  /-- `base64.urlsafe_b64decode` of an ASCII text with its padding, none where it raises. -/
  b64decode : String → Option Bytes
  /-- `json.loads`, none where it raises. -/
  loads : Bytes → Option Json
  /-- The HMAC of a text under the secret that is derived from a token, in base64. -/
  sign : String → String → String
  /-- `_rs256_verify`. -/
  rs256Verify : String → Bytes → Jwk → Bool

variable (p : Platform)

/-- The integers from which on `float` raises. -/
def floatOverflow : Nat := 2 ^ 1024 - 2 ^ 970

def isAscii (text : String) : Bool := text.toList.all fun c => c.toNat < 128

/-- `text.split(".")`. -/
def parts (text : String) : List String := (text.toList.splitOn '.').map String.ofList

/-! ### Local requests -/

def forwardHeaders : List String :=
  ["x-forwarded-for", "x-real-ip", "forwarded", "cf-connecting-ip", "x-forwarded-host",
    "x-forwarded-proto"]

def loopback : List String :=
  ["127.0.0.1", "::1", "localhost", "::ffff:127.0.0.1", "testclient"]

def localHostNames : List String := ["localhost", "127.0.0.1", "::1", "[::1]", "testserver"]

def isLoopbackAddr (host : String) : Bool := p.lower (p.strip host) ∈ loopback

/-- What follows the first `//`, if there is one. -/
def afterScheme : List Char → Option (List Char)
  | '/' :: '/' :: rest => some rest
  | _ :: rest => afterScheme rest
  | [] => none

/-- The host before its path; the brackets of an IPv6 address stay, a port goes. -/
def hostOf (text : List Char) : List Char :=
  let host := text.takeWhile (· ≠ '/')
  if host.head? = some '[' then
    if ']' ∈ host then host.takeWhile (· ≠ ']') ++ [']'] else host
  else if host.count ':' = 1 then host.takeWhile (· ≠ ':') else host

/-- `_hostname_of`. -/
def hostnameOf (value : String) : String :=
  let text := (p.lower (p.strip value)).toList
  String.ofList (hostOf ((afterScheme text).getD text))

/-- `_is_local_hostname`. -/
def isLocalHostname (value : String) : Bool :=
  let name := hostnameOf p value
  name = "" || name ∈ localHostNames ||
    (p.int (String.ofList (name.toList.filter (· ≠ '.')))).isSome

abbrev Headers := List (String × String)

/-- The headers by lower-case names, the last of each name. -/
def lowered (headers : Headers) : Dict String String :=
  headers.foldl (fun d header => d.set (p.lower header.1) header.2) .empty

def header (headers : Headers) (name : String) : String :=
  ((lowered p headers).get? name).getD ""

/-- `is_browser_cross_site`. -/
def isBrowserCrossSite (headers : Headers) : Bool :=
  let origin := p.strip (header p headers "origin")
  if origin ≠ "" ∧ p.lower origin ≠ "null" then
    if p.lower origin ∈ ["http://tauri.localhost", "https://tauri.localhost"] then false
    else if hostnameOf p origin = hostnameOf p (header p headers "host") then false
    else !isLocalHostname p origin
  else p.lower (p.strip (header p headers "sec-fetch-site")) ∈ ["cross-site", "same-site"]

/-- `is_forwarded`. -/
def isForwarded (headers : Headers) : Bool :=
  headers.any fun header => p.lower header.1 ∈ forwardHeaders

/-! ### The token -/

/-- The token file. -/
inductive TokenFile
  | missing
  /-- No UTF-8. -/
  | garbled
  | text (content : String)

/-- How a creation of the token file raises. -/
inductive Failure
  | untouched
  /-- Part of the text was written. -/
  | written (content : String)

/-- What the system does in a call of `token`. -/
structure Attempt where
  /-- Reading the file raises. -/
  unreadable : Bool
  failure : Option Failure
  /-- `secrets.token_urlsafe(32)`. -/
  created : String

/-- The token that the file holds. -/
def held (file : TokenFile) (attempt : Attempt) : Option String :=
  match file with
  | .text content =>
      if attempt.unreadable = true ∨ p.strip content = "" then none else some (p.strip content)
  | _ => none

/-- `NodeAuth.token`, and the file after it. -/
def token (file : TokenFile) (attempt : Attempt) : Except String String × TokenFile :=
  match held p file attempt with
  | some existing => (.ok existing, file)
  | none =>
      match attempt.failure with
      | some .untouched => (.error "OSError", file)
      | some (.written content) => (.error "OSError", .text content)
      | none => (.ok attempt.created, .text attempt.created)

/-- `NodeAuth.rotate_token`; `stuck` says that the file cannot be removed. -/
def rotateToken (file : TokenFile) (stuck : Bool) (attempt : Attempt) :
    Except String String × TokenFile :=
  token p (if stuck then file else .missing) attempt

/-! ### Sessions -/

/-- `int` of a number. -/
def truncate (q : Rat) : Int := if 0 ≤ q then ⌊q⌋ else ⌈q⌉

/-- A session that `issue_session` made: times are floats. -/
structure Session where
  token : String
  issued : Rat
  ttl : Rat
  whole : Rounding.nearest (truncate issued) = some (truncate issued : Rat) ∧
    Rounding.nearest (truncate (issued + ttl)) = some (truncate (issued + ttl) : Rat)

def Session.expires (s : Session) : Int := truncate (s.issued + s.ttl)

def Session.payload (s : Session) : String :=
  (truncate s.issued).repr ++ "." ++ s.expires.repr

/-- The cookie. -/
def Session.text (s : Session) : String := s.payload ++ "." ++ p.sign s.token s.payload

/-- `hmac.compare_digest` of texts. -/
def compareDigest (a b : String) : Except String Bool := do
  require "TypeError" (isAscii a = true ∧ isAscii b = true)
  return a = b

/-- `NodeAuth.verify_session`, when `current` is what `token` answers. -/
def verifySession (current : Except String String) (cookie : String) (now : Rat) :
    Except String Bool :=
  match parts cookie with
  | [issued, expires, provided] =>
      match p.float expires with
      | none => .ok false
      | some time =>
          if time.lt (.finite now) = true ∨ p.int issued = none then .ok false
          else do
            let secret ← current
            compareDigest (p.sign secret (issued ++ "." ++ expires)) provided
  | _ => .ok false

/-! ### Access assertions -/

section Perimeter

-- the keys that the team has ever published
variable (published : Jwk → Prop)

/-- A document of keys: `blank` when it is the empty object. -/
structure KeySet where
  blank : Bool
  keys : List Jwk
  keyless : blank = true → keys = []
  published : ∀ key ∈ keys, published key

structure Perimeter where
  accessTeamDomain : String
  accessAudience : String
  keySet : KeySet published
  fetchedAt : Rat
  refetchAt : Rat

variable {published}

def Perimeter.configured (perimeter : Perimeter published) : Prop :=
  perimeter.accessTeamDomain ≠ "" ∧ perimeter.accessAudience ≠ ""

instance (perimeter : Perimeter published) : Decidable perimeter.configured :=
  inferInstanceAs (Decidable (_ ∧ _))

/-- `_access_keys`; `fetched` is what the team's endpoint answers, none when it fails. -/
def accessKeys (perimeter : Perimeter published) (now : Rat) (force : Bool)
    (fetched : Option (KeySet published)) : List Jwk × Perimeter published :=
  if perimeter.accessTeamDomain = "" then ([], perimeter)
  else if (perimeter.keySet.blank = false ∧ now - perimeter.fetchedAt < 3600) ∧ force = false then
    (perimeter.keySet.keys, perimeter)
  else if force = true ∧ now - perimeter.refetchAt < 60 then (perimeter.keySet.keys, perimeter)
  else
    let perimeter := if force then { perimeter with refetchAt := now } else perimeter
    match fetched with
    | none => (perimeter.keySet.keys, perimeter)
    | some keySet => (keySet.keys, { perimeter with keySet, fetchedAt := now })

/-- The first key with an identifier. -/
def find (kid : Json) (keys : List Jwk) : Option Jwk :=
  keys.find? fun key => Json.pyEq (((Json.obj key.fields).get? "kid").getD .null) kid

/-- The key for an identifier: where the first look finds none, the keys are fetched again. -/
def keyFor (perimeter : Perimeter published) (now : Rat)
    (fetched : Option (KeySet published) × Option (KeySet published)) (kid : Json) :
    Option Jwk × Perimeter published :=
  let first := accessKeys perimeter now false fetched.1
  match find kid first.1 with
  | some key => (some key, first.2)
  | none =>
      let second := accessKeys first.2 now true fetched.2
      (find kid second.1, second.2)

/-- `float` of a JSON value, none where it raises. -/
def floatOf : Json → Option Number
  | .bool b => some (.finite (if b then 1 else 0))
  | .int n => if n.natAbs < floatOverflow then some (.finite n) else none
  | .float (some q) _ => some (.finite q)
  | .float none text =>
      some (if text = "Infinity" then .posInf else if text = "-Infinity" then .negInf else .nan)
  | .str text => p.float text
  | _ => none

/-- The bytes of a segment of an assertion. -/
def decode (segment : String) : Option Bytes :=
  let padding := String.ofList (List.replicate ((4 - segment.length % 4) % 4) '=')
  if isAscii segment then p.b64decode (segment ++ padding) else none

/-- An assertion as it is decoded. -/
structure Assertion where
  header : Json
  payload : Json
  signature : Bytes
  /-- The text that is signed; it is ASCII, as its segments were decoded. -/
  signed : String

/-- What an assertion says; none where decoding raises. -/
def readAssertion (text : String) : Option Assertion :=
  match parts text with
  | [header, payload, signature] => do
      return ⟨← p.loads (← decode p header), ← p.loads (← decode p payload), ← decode p signature,
        header ++ "." ++ payload⟩
  | _ => none

/-- The texts of the audiences of a payload. -/
def audiences (payload : Json) : List String :=
  match (payload.get? "aud").getD .null with
  | .arr items => items.map p.str
  | audience => [p.str audience]

/-- Whether an assertion is in time and for the audience. -/
def addressed (audience : String) (now : Rat) (assertion : Assertion) : Except String Bool := do
  require "AttributeError" (assertion.header.isObj = true)
  if Json.pyEq ((assertion.header.get? "alg").getD .null) (.str "RS256") = false then
    return false
  else do
    require "AttributeError" (assertion.payload.isObj = true)
    let expires ← demand "float" (floatOf p ((assertion.payload.get? "exp").getD (.int 0)))
    return !expires.lt (.finite now) && audience ∈ audiences p assertion.payload

/-- `NodeAuth.verify_access_jwt`, and the keys after it. -/
def verifyAccessJwt (perimeter : Perimeter published) (text : String) (now : Rat)
    (fetched : Option (KeySet published) × Option (KeySet published)) :
    Except String Bool × Perimeter published :=
  if perimeter.configured ∧ text ≠ "" then
    match readAssertion p text with
    | none => (.ok false, perimeter)
    | some assertion =>
        match addressed p perimeter.accessAudience now assertion with
        | .error e => (.error e, perimeter)
        | .ok false => (.ok false, perimeter)
        | .ok true =>
            let found := keyFor perimeter now fetched ((assertion.header.get? "kid").getD .null)
            (.ok (found.1.any fun key =>
              p.rs256Verify assertion.signed assertion.signature key), found.2)
  else (.ok false, perimeter)

/-! ### The decision -/

structure AuthDecision where
  allowed : Bool
  reason : String
  via : String
  deriving DecidableEq

structure Request where
  clientHost : String
  headers : Headers
  cookie : String

/-- A local request, that nothing forwarded. -/
def Local (request : Request) : Prop :=
  isForwarded p request.headers = false ∧ isLoopbackAddr p request.clientHost = true ∧
    isLocalHostname p (header p request.headers "host") = true ∧
    isBrowserCrossSite p request.headers = false

instance (request : Request) : Decidable (Local p request) :=
  inferInstanceAs (Decidable (_ ∧ _ ∧ _ ∧ _))

/-- What follows the first blank of a text. -/
def afterBlank (text : List Char) : Option (List Char) :=
  match text.dropWhile (· ≠ ' ') with
  | [] => none
  | _ :: rest => some rest

/-- The check of a bearer, when `current` is what `token` answers. -/
def verifyBearer (current : Except String String) (bearer : String) : Except String Bool :=
  if "bearer ".toList <+: (p.lower bearer).toList then do
    let presented ← demand "IndexError" (afterBlank bearer.toList)
    let secret ← current
    compareDigest (p.strip (String.ofList presented)) secret
  else .ok false

/-- What `authorize` meets: the answers of `token` to its two checks, and the endpoint's. -/
structure Env (published : Jwk → Prop) where
  session : Except String String
  bearer : Except String String
  fetched : Option (KeySet published) × Option (KeySet published)

/-- `NodeAuth.authorize`, and the keys after it. -/
def authorize (perimeter : Perimeter published) (env : Env published) (request : Request)
    (now : Rat) : Except String AuthDecision × Perimeter published :=
  if Local p request then (.ok ⟨true, "loopback", "local"⟩, perimeter)
  else
    match if request.cookie ≠ "" then verifySession p env.session request.cookie now
        else .ok false with
    | .error e => (.error e, perimeter)
    | .ok true => (.ok ⟨true, "session", "session"⟩, perimeter)
    | .ok false =>
        match verifyAccessJwt p perimeter (header p request.headers "cf-access-jwt-assertion") now
            env.fetched with
        | (.error e, perimeter) => (.error e, perimeter)
        | (.ok true, perimeter) => (.ok ⟨true, "cloudflare_access", "perimeter"⟩, perimeter)
        | (.ok false, perimeter) =>
            (do
              let known ← verifyBearer p env.bearer (header p request.headers "authorization")
              return if known then ⟨true, "bearer_token", "session"⟩
                else ⟨false, "unauthenticated", ""⟩, perimeter)

end Perimeter

end NodeAuth
