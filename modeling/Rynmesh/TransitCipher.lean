import Rynmesh.FileTransferResume

/-!
# Sealed frames between the source and the target of a transfer

`peer_transit.py`: a source signs a session open with an ephemeral key, both
sides derive one key of it, and each seals frames under that key, with a nonce
of the direction and a counter.

* `verifySessionOpen` checks a signed open;
* `deriveKey`, `forSource` and `forTarget` make the ciphers of both sides;
* `Cipher.sealFrame` and `Cipher.openFrame` are `seal` and `open`.

Signatures, X25519, HKDF and ChaCha20-Poly1305 are fields of `Crypto`, and so is
what the standard library reads of a text.
-/

namespace Transit

open Checked

def protocolVersion : String := "rynmesh.peer-transit.v1"

def maxPlaintextBytes : Nat := 1024 * 1024

def tagBytes : Nat := 16

def frameMagic : Bytes := [82, 89, 78, 84, 82, 78, 49, 0]

structure SignedPayload where
  payload : Json
  publicKey : String
  signature : String

/-- What a session uses of the cryptographic library and of the standard one. -/
structure Crypto (Key : Type) where
  /-- `verify_signed_payload` returns. -/
  verifies : SignedPayload → Bool
  /-- None where `base64.b64decode` raises. -/
  b64decode : String → Option Bytes
  b64encode : Bytes → String
  /-- The bytes of `uuid.UUID(hex=text)`, none where it raises. -/
  parseUuid : String → Option Bytes
  /-- `_parse_time` as an instant, none where it raises. -/
  parseTime : String → Option Rat
  publicKey : Bytes → Bytes
  /-- `private_key.exchange(remote)`, none where it raises. -/
  exchange : Bytes → Bytes → Option Bytes
  /-- HKDF with SHA-256, salted with the digest of a text. -/
  hkdf : String → Bytes → Key
  /-- `ChaCha20Poly1305(key).encrypt(nonce, plaintext, associated_data)`. -/
  encrypt : Key → Bytes → Bytes → Bytes → Bytes
  /-- None where `decrypt` raises an `InvalidTag`. -/
  decrypt : Key → Bytes → Bytes → Bytes → Option Bytes

/-! ### Session opens -/

/-- A `TransitSessionOpen`; nothing reads when it was created. -/
structure SessionOpen where
  sessionId : String
  sourcePeerId : String
  targetPeerId : String
  sourceEphemeralPub : String
  expiresAt : String
  hopLimit : Int
  protocolVersion : String
  deriving DecidableEq

/-- `from_dict`, none where it raises. -/
def SessionOpen.fromDict (p : Platform) (value : Json) : Option SessionOpen := do
  let sessionId ← value.get? "session_id"
  let sourcePeerId ← value.get? "source_peer_id"
  let targetPeerId ← value.get? "target_peer_id"
  let sourceEphemeralPub ← value.get? "source_ephemeral_pub"
  let expiresAt ← value.get? "expires_at"
  let hopLimit ← p.int ((value.get? "hop_limit").getD (.int 0))
  return ⟨p.str sessionId, p.str sourcePeerId, p.str targetPeerId, p.str sourceEphemeralPub,
    p.str expiresAt, hopLimit, p.str ((value.get? "protocol_version").getD (.str ""))⟩

variable {Key : Type} (p : Platform) (c : Crypto Key)

/-- The 32 bytes of an X25519 public key. -/
def Crypto.remoteKey (text : String) : Option Bytes :=
  (c.b64decode text).filter fun key => key.length = 32

/-- `verify_session_open`. -/
def verifySessionOpen (signed : SignedPayload) (expectedTargetPeerId : String) (now : Rat) :
    Except Failure SessionOpen := do
  require (c.verifies signed = true) "invalid signed transit session"
  require (signed.payload.get? "kind" = some (.str "peer_transit_session_open"))
    "invalid transit session kind"
  let session ← Checked.demand (.transit "invalid signed transit session")
    (SessionOpen.fromDict p signed.payload)
  require (c.parseUuid session.sessionId ≠ none) "invalid transit session id"
  require (c.remoteKey session.sourceEphemeralPub ≠ none) "invalid signed transit session"
  require (session.protocolVersion = Transit.protocolVersion)
    "unsupported transit protocol version"
  require (session.sourcePeerId = signed.publicKey) "transit source identity/signature mismatch"
  require (expectedTargetPeerId = "" ∨ session.targetPeerId = expectedTargetPeerId)
    "transit target identity mismatch"
  require (session.sourcePeerId ≠ session.targetPeerId) "transit source and target must differ"
  require (session.hopLimit = 1) "peer transit requires hop_limit=1"
  let expiry ← Checked.demand (.transit "invalid transit expiry") (c.parseTime session.expiresAt)
  require (now < expiry) "transit session expired"
  return session

/-! ### Keys -/

/-- The text that salts the key of a session. -/
def keyContext (sessionId sourcePeerId targetPeerId : String) : String :=
  "\x00".intercalate [protocolVersion, sessionId, sourcePeerId, targetPeerId]

/-- `_derive_key`. -/
def deriveKey (privateKey : Bytes) (remotePublic sessionId sourcePeerId targetPeerId : String) :
    Except Failure Key := do
  let remote ← Checked.demand (.transit "invalid transit X25519 public key")
    (c.remoteKey remotePublic)
  let shared ← Checked.demand .conversion (c.exchange privateKey remote)
  return c.hkdf (keyContext sessionId sourcePeerId targetPeerId) shared

inductive Direction
  | request
  | response
  deriving DecidableEq

/-- `_direction_code`. -/
def Direction.code : Direction → UInt8
  | .request => 1
  | .response => 2

/-- `_direction_name`. -/
def directionName (code : UInt8) : Except Failure Direction :=
  if code = 1 then .ok .request
  else if code = 2 then .ok .response
  else .error (.transit "invalid transit frame direction")

/-- A `TransitCipher`. -/
structure Cipher (Key : Type) where
  sessionId : String
  sourcePeerId : String
  targetPeerId : String
  sessionBytes : Bytes
  key : Key
  nextSend : Direction → Nat
  nextReceive : Direction → Nat

/-- `TransitCipher(..)`: both counters start at zero. -/
def Cipher.new (sessionId sourcePeerId targetPeerId : String) (key : Key) :
    Except Failure (Cipher Key) := do
  let sessionBytes ← Checked.demand (.transit "invalid transit session id")
    (c.parseUuid sessionId)
  return ⟨sessionId, sourcePeerId, targetPeerId, sessionBytes, key, fun _ => 0, fun _ => 0⟩

/-- `for_source` with the ephemeral key that it generates. -/
def forSource (sessionId sourcePeerId targetPeerId targetMessagingPub : String)
    (ephemeral : Bytes) : Except Failure (Cipher Key) := do
  let key ← deriveKey c ephemeral targetMessagingPub sessionId sourcePeerId targetPeerId
  Cipher.new c sessionId sourcePeerId targetPeerId key

/-- `for_target`. -/
def forTarget (session : SessionOpen) (targetMessagingKey : Bytes) :
    Except Failure (Cipher Key) := do
  let key ← deriveKey c targetMessagingKey session.sourceEphemeralPub session.sessionId
    session.sourcePeerId session.targetPeerId
  Cipher.new c session.sessionId session.sourcePeerId session.targetPeerId key

/-! ### Frames -/

/-- A number in so many bytes, the highest first. -/
def bigEndian (width n : Nat) : Bytes :=
  (List.range width).reverse.map fun i => UInt8.ofNat (n / 256 ^ i % 256)

def ofBigEndian (bytes : Bytes) : Nat := bytes.foldl (fun n byte => n * 256 + byte.toNat) 0

/-- `_nonce`. -/
def nonce (direction : Direction) (sequence : Nat) : Bytes :=
  (match direction with
    | .request => [82, 69, 81, 49]
    | .response => [82, 69, 83, 49]) ++ bigEndian 8 sequence

structure FrameHeader where
  sessionId : String
  direction : Direction
  sequence : Nat
  plaintextBytes : Nat
  final : Bool

/-- `_FRAME_HEADER.pack`. -/
def packHeader (sessionBytes : Bytes) (direction : Direction) (sequence plaintextBytes : Nat)
    (final : Bool) : Bytes :=
  frameMagic ++ sessionBytes ++ [direction.code] ++ bigEndian 8 sequence ++
    bigEndian 4 plaintextBytes ++ [if final then 1 else 0]

def headerSize : Nat := 38

/-- `uuid.UUID(bytes=..).hex`. -/
def hexText (bytes : Bytes) : String :=
  String.ofList (bytes.flatMap fun byte =>
    [Nat.digitChar (byte.toNat / 16), Nat.digitChar (byte.toNat % 16)])

/-- `inspect_frame`. -/
def inspectFrame (frame : Bytes) : Except Failure FrameHeader := do
  require (headerSize + tagBytes ≤ frame.length) "short transit frame"
  require (frame.take 8 = frameMagic) "invalid transit frame magic"
  let flags := ofBigEndian ((frame.drop 37).take 1)
  require (flags = 0 ∨ flags = 1) "invalid transit frame flags"
  let plaintextBytes := ofBigEndian ((frame.drop 33).take 4)
  require (1 ≤ plaintextBytes ∧ plaintextBytes ≤ maxPlaintextBytes)
    "transit frame declaration exceeds safe limits"
  require (frame.length = headerSize + plaintextBytes + tagBytes)
    "transit ciphertext length mismatch"
  let direction ← directionName ((frame.drop 24).headD 0)
  return ⟨hexText ((frame.drop 8).take 16), direction, ofBigEndian ((frame.drop 25).take 8),
    plaintextBytes, flags = 1⟩

namespace Cipher

variable {Key : Type} (c : Crypto Key) (cipher : Cipher Key)

/-- `_associated_data`. -/
def associatedData (header : Bytes) : Bytes :=
  protocolVersion.toUTF8.toList ++ 0 :: cipher.sourcePeerId.toUTF8.toList ++
    0 :: cipher.targetPeerId.toUTF8.toList ++ 0 :: header

/-- The cipher after it sent a frame. -/
def sent (direction : Direction) : Cipher Key :=
  { cipher with
    nextSend := Function.update cipher.nextSend direction (cipher.nextSend direction + 1) }

/-- `seal`; the header cannot hold a counter of more than 64 bits. -/
def sealFrame (direction : Direction) (plaintext : Bytes) (final : Bool) :
    Except Failure (Bytes × Cipher Key) := do
  require (plaintext ≠ [] ∧ plaintext.length ≤ maxPlaintextBytes)
    "transit plaintext frame size is invalid"
  Checked.require .conversion (cipher.nextSend direction < 2 ^ 64)
  let header := packHeader cipher.sessionBytes direction (cipher.nextSend direction)
    plaintext.length final
  return (header ++ c.encrypt cipher.key (nonce direction (cipher.nextSend direction)) plaintext
    (cipher.associatedData header), cipher.sent direction)

/-- `open`. -/
def openFrame (direction : Direction) (frame : Bytes) :
    Except Failure (Bytes × FrameHeader × Cipher Key) := do
  let header ← inspectFrame frame
  require (header.sessionId = cipher.sessionId) "transit frame session mismatch"
  require (header.direction = direction) "transit frame direction mismatch"
  require (cipher.nextReceive direction ≤ header.sequence) "replayed transit frame"
  require (header.sequence = cipher.nextReceive direction) "out-of-order transit frame"
  let plaintext ← Checked.demand (.transit "transit frame authentication failed")
    (c.decrypt cipher.key (nonce direction header.sequence) (frame.drop headerSize)
      (cipher.associatedData (frame.take headerSize)))
  require (plaintext.length = header.plaintextBytes) "transit plaintext length mismatch"
  return (plaintext, header,
    { cipher with
      nextReceive := Function.update cipher.nextReceive direction
        (cipher.nextReceive direction + 1) })

end Cipher

end Transit
