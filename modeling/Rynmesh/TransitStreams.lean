import Rynmesh.TransitNonces

/-!
# Streams of sealed frames

`send_encrypted_stream`, `receive_encrypted_stream` and the loop of
`relay_bidirectional_once` in `peer_transit.py`.

* `stream_fidelity`: whatever a relay does, the other end is handed a prefix of the chunks,
  and all of them when it returns; the relay of the code forwards, of whatever arrives, one
  frame of each number in their order.

The bytes that a hop counts on the wire are left out.
-/

namespace Transit

open Checked

variable {Key : Type} (c : Crypto Key) (sha256 : Bytes → String)

/-- What both ends return about a stream. -/
structure StreamReport where
  frames : Nat
  plaintextBytes : Nat
  sha256 : String

def StreamReport.of (chunks : List Bytes) : StreamReport :=
  ⟨chunks.length, (chunks.map List.length).sum, "sha256:" ++ sha256 chunks.flatten⟩

/-- `_with_final`: the last chunk is marked. -/
def withFinal : List Bytes → List (Bytes × Bool)
  | [] => []
  | chunk :: rest => (chunk, rest.isEmpty) :: withFinal rest

/-- The loop of `send_encrypted_stream`: the frames it sends, and how it ends. -/
def sealAll (direction : Direction) : Cipher Key → List (Bytes × Bool) →
    List Bytes × Except Failure Unit
  | _, [] => ([], .ok ())
  | cipher, (chunk, final) :: rest =>
      if chunk = [] then ([], .error (.transit "transit stream contains an empty chunk"))
      else match cipher.sealFrame c direction chunk final with
        | .error e => ([], .error e)
        | .ok (frame, cipher) =>
            (frame :: (sealAll direction cipher rest).1, (sealAll direction cipher rest).2)

/-- `send_encrypted_stream`. -/
def sendStream (cipher : Cipher Key) (direction : Direction) (chunks : List Bytes) :
    List Bytes × Except Failure StreamReport :=
  if chunks = [] then ([], .error (.transit "transit stream requires at least one chunk"))
  else
    ((sealAll c direction cipher (withFinal chunks)).1,
      (sealAll c direction cipher (withFinal chunks)).2.map fun _ => .of sha256 chunks)

/-- The loop of `receive_encrypted_stream` on the frames that arrive: what the sink is handed,
and how it ends, none where it waits. -/
def openAll (direction : Direction) : Cipher Key → List Bytes →
    List Bytes × Option (Except Failure Unit)
  | _, [] => ([], none)
  | cipher, frame :: rest =>
      match cipher.openFrame c direction frame with
      | .error e =>
          -- a hop has sent the frame again
          if e = .transit "replayed transit frame" then openAll direction cipher rest
          else ([], some (.error e))
      | .ok (plaintext, header, cipher) =>
          if header.final then ([plaintext], some (.ok ()))
          else
            (plaintext :: (openAll direction cipher rest).1, (openAll direction cipher rest).2)

/-- `receive_encrypted_stream`. -/
def receiveStream (cipher : Cipher Key) (direction : Direction) (arrived : List Bytes) :
    List Bytes × Option (Except Failure StreamReport) :=
  ((openAll c direction cipher arrived).1,
    (openAll c direction cipher arrived).2.map fun outcome =>
      outcome.map fun _ => .of sha256 (openAll c direction cipher arrived).1)

/-- `forward` of a relay that expects a number: the frames it sends on, and how it ends. -/
def forward (sessionId : String) (direction : Direction) : Nat → List Bytes →
    List Bytes × Option (Except Failure Unit)
  | _, [] => ([], none)
  | expected, frame :: rest =>
      match inspectFrame frame with
      | .error e => ([], some (.error e))
      | .ok header =>
          if header.sessionId ≠ sessionId ∨ header.direction ≠ direction then
            ([], some (.error (.transit "transit peer received a mismatched frame")))
          else if header.sequence < expected then forward sessionId direction expected rest
          else if expected < header.sequence then
            ([], some (.error (.transit "transit peer received a non-monotonic frame")))
          else if header.final then ([frame], some (.ok ()))
          else
            (frame :: (forward sessionId direction (expected + 1) rest).1,
              (forward sessionId direction (expected + 1) rest).2)

/-! ### Two ends of a session -/

/-- What ChaCha20-Poly1305 does: a tag is added, and what was encrypted is decrypted. -/
structure Crypto.Authenticates : Prop where
  length : ∀ key nonce plaintext data,
    (c.encrypt key nonce plaintext data).length = plaintext.length + tagBytes
  decrypt : ∀ key nonce plaintext data,
    c.decrypt key nonce (c.encrypt key nonce plaintext data) data = some plaintext

/-- The `uuid4` and the two private keys of a session, as the libraries handle them. -/
structure Agree (uuid ephemeral messagingKey : Bytes) : Prop where
  length : uuid.length = 16
  parseUuid : c.parseUuid (hexText uuid) = some uuid
  remoteKey : ∀ key ∈ [ephemeral, messagingKey],
    c.remoteKey (messagingPublicKey c key) = some (c.publicKey key)
  exchange : c.exchange ephemeral (c.publicKey messagingKey) =
    c.exchange messagingKey (c.publicKey ephemeral)

/-- A cipher of a session, whatever it has counted. -/
def Cipher.Of (cipher session : Cipher Key) : Prop :=
  ∃ sent received, cipher = { session with nextSend := sent, nextReceive := received }

/-- Two ends of a session. -/
structure Paired (sender receiver : Cipher Key) : Prop where
  length : sender.sessionBytes.length = 16
  hex : sender.sessionId = hexText sender.sessionBytes
  same : receiver.Of sender

/-- A frame that does not decrypt under the key of a session. -/
def Forged (cipher : Cipher Key) (direction : Direction) (frame : Bytes) : Prop :=
  ∀ n, c.decrypt cipher.key (nonce direction n) (frame.drop headerSize)
    (cipher.associatedData (frame.take headerSize)) = none

/-- The frame of a chunk under a number. -/
def Cipher.frame (cipher : Cipher Key) (direction : Direction) (n : Nat) (chunk : Bytes)
    (final : Bool) : Bytes :=
  packHeader cipher.sessionBytes direction n chunk.length final ++
    c.encrypt cipher.key (nonce direction n) chunk
      (cipher.associatedData (packHeader cipher.sessionBytes direction n chunk.length final))

/-- A receiver after a frame of a direction. -/
def Cipher.opened (cipher : Cipher Key) (direction : Direction) : Cipher Key :=
  { cipher with
    nextReceive := Function.update cipher.nextReceive direction
      (cipher.nextReceive direction + 1) }

/-- The sizes and numbers that a frame has room for. -/
def Fits (chunk : Bytes) (n : Nat) : Prop :=
  (1 ≤ chunk.length ∧ chunk.length ≤ maxPlaintextBytes) ∧ n < 2 ^ 64

/-- The frame that a stream has under a number. -/
def IsSent (sender : Cipher Key) (direction : Direction) (chunks : List Bytes) (n : Nat)
    (frame : Bytes) : Prop :=
  ∃ chunk final, Fits chunk n ∧ chunks.drop n = chunk :: chunks.drop (n + 1) ∧
    (final = true ↔ chunks.drop (n + 1) = []) ∧ frame = sender.frame c direction n chunk final

variable {c} {sha256} {sender receiver cipher : Cipher Key} {direction : Direction} {n i : Nat}
  {chunk frame : Bytes} {final : Bool} {chunks frames arrived : List Bytes}
  {marked : List (Bytes × Bool)}

@[simp]
theorem Cipher.sent_nextSend :
    (cipher.sent direction).nextSend direction = cipher.nextSend direction + 1 :=
  Function.update_self ..

@[simp]
theorem Cipher.opened_nextReceive :
    (cipher.opened direction).nextReceive direction = cipher.nextReceive direction + 1 :=
  Function.update_self ..

theorem Paired.opened (h : Paired sender receiver) : Paired sender (receiver.opened direction) := by
  obtain ⟨hlength, hhex, sent, received, rfl⟩ := h
  exact ⟨hlength, hhex, _, _, rfl⟩

theorem Paired.sent (h : Paired sender receiver) : Paired (sender.sent direction) receiver := by
  obtain ⟨hlength, hhex, sent, received, rfl⟩ := h
  exact ⟨hlength, hhex, _, _, rfl⟩

/-- What `for_source` and `for_target` make of one session are its ends, either of which may
send. -/
theorem sourceSession_paired {uuid ephemeral messagingKey : Bytes} {session : SourceSession Key}
    {sourcePeerId targetPeerId expiresAt : String} {target : Cipher Key}
    (hagree : Agree c uuid ephemeral messagingKey)
    (hsource : sourceSession c uuid sourcePeerId targetPeerId (messagingPublicKey c messagingKey)
      expiresAt ephemeral chunks = .ok session)
    (htarget : forTarget c session.opened messagingKey = .ok target)
    (hsender : sender.Of session.cipher) (hreceiver : receiver.Of target) :
    Paired sender receiver := by
  simp only [sourceSession, forSource, deriveKey, Cipher.new, bind_ok, Checked.demand_ok, pure_ok,
    hagree.remoteKey messagingKey (by simp), hagree.parseUuid, Option.some.injEq] at hsource
  obtain ⟨_, ⟨_, ⟨_, rfl, shared, hshared, rfl⟩, _, rfl, rfl⟩, rfl⟩ := hsource
  simp only [forTarget, deriveKey, Cipher.new, bind_ok, Checked.demand_ok, pure_ok,
    hagree.remoteKey ephemeral (by simp), hagree.parseUuid, Option.some.injEq] at htarget
  obtain ⟨_, ⟨_, rfl, shared', hshared', rfl⟩, _, rfl, rfl⟩ := htarget
  obtain rfl := Option.mem_unique hshared (hagree.exchange.trans hshared')
  obtain ⟨_, _, rfl⟩ := hsender
  obtain ⟨sent, received, rfl⟩ := hreceiver
  exact ⟨hagree.length, rfl, sent, received, rfl⟩

/-! ### Frames -/

theorem inspectFrame_frame (hc : c.Authenticates) (hpair : Paired sender receiver)
    (hfits : Fits chunk n) :
    inspectFrame (sender.frame c direction n chunk final) =
      .ok ⟨sender.sessionId, direction, n, chunk.length, final⟩ := by
  rw [hpair.hex]
  exact inspectFrame_pack hpair.length hfits.2 hfits.1 (hc.length ..)

/-- What a receiver does with a frame of the sender depends on its number alone. -/
theorem openFrame_frame (hc : c.Authenticates) (hpair : Paired sender receiver)
    (hfits : Fits chunk n) :
    receiver.openFrame c direction (sender.frame c direction n chunk final) =
      if n < receiver.nextReceive direction then .error (.transit "replayed transit frame")
      else if receiver.nextReceive direction < n then
        .error (.transit "out-of-order transit frame")
      else .ok (chunk, ⟨sender.sessionId, direction, n, chunk.length, final⟩,
        receiver.opened direction) := by
  have hlength : (packHeader sender.sessionBytes direction n chunk.length final).length =
      headerSize := by
    simp [packHeader, hpair.length, length_bigEndian, headerSize, frameMagic]
  have hinspect : inspectFrame (sender.frame c direction n chunk final) = _ :=
    inspectFrame_frame hc hpair hfits
  obtain ⟨sent, received, rfl⟩ := hpair.same
  simp only [Cipher.openFrame, hinspect, ok_bind, require, Checked.require, if_true]
  rcases Nat.lt_trichotomy n (received direction) with hlt | rfl | hgt
  · rw [if_pos hlt, if_neg (Nat.not_le.mpr hlt)]
    rfl
  · simp only [lt_irrefl, le_refl, if_true, if_false, Cipher.frame, List.drop_left' hlength,
      List.take_left' hlength, ok_bind]
    rw [Cipher.associatedData, Cipher.associatedData, hc.decrypt]
    simp only [Checked.demand, ok_bind, if_true]
    rfl
  · rw [if_neg hgt.not_gt, if_pos hgt, if_pos hgt.le, if_neg hgt.ne']
    rfl

theorem openFrame_forged (hpair : Paired sender receiver) (h : Forged c sender direction frame) :
    ∃ e, receiver.openFrame c direction frame = .error e := by
  obtain ⟨sent, received, rfl⟩ := hpair.same
  rcases hopen : Cipher.openFrame c _ direction frame with e | opened
  · exact ⟨e, rfl⟩
  · simp only [Cipher.openFrame, bind_ok, Checked.demand_ok] at hopen
    obtain ⟨header, -, -, -, -, -, -, -, -, -, plaintext, hplaintext, -⟩ := hopen
    cases (h header.sequence).symm.trans hplaintext

/-- A chunk is sealed into its frame, or the stream ends at it. -/
theorem sealAll_cons (c : Crypto Key) (direction : Direction) (cipher : Cipher Key) (chunk : Bytes)
    (final : Bool) (marked : List (Bytes × Bool)) :
    (∃ e, sealAll c direction cipher ((chunk, final) :: marked) = ([], .error e)) ∨
      Fits chunk (cipher.nextSend direction) ∧
        sealAll c direction cipher ((chunk, final) :: marked) =
          (cipher.frame c direction (cipher.nextSend direction) chunk final ::
            (sealAll c direction (cipher.sent direction) marked).1,
            (sealAll c direction (cipher.sent direction) marked).2) := by
  rw [sealAll]
  split_ifs with hempty
  · exact .inl ⟨_, rfl⟩
  · rcases hsealed : cipher.sealFrame c direction chunk final with e | ⟨frame, next⟩
    · exact .inl ⟨e, rfl⟩
    · simp only [Cipher.sealFrame, bind_ok, require_ok, Checked.require_ok, pure_ok,
        exists_const] at hsealed
      obtain ⟨⟨hne, hle⟩, hcount, hframe⟩ := hsealed
      cases hframe
      exact .inr ⟨⟨⟨List.length_pos_iff.mpr hne, hle⟩, hcount⟩, rfl⟩

theorem sealAll_sent {rest : List Bytes} (hdrop : chunks.drop (cipher.nextSend direction) = rest)
    (hframe : (sealAll c direction cipher (withFinal rest)).1[i]? = some frame) :
    IsSent c cipher direction chunks (cipher.nextSend direction + i) frame := by
  induction rest generalizing cipher i with
  | nil => cases hframe
  | cons chunk rest ih =>
    have hnext : chunks.drop (cipher.nextSend direction + 1) = rest := by
      rw [← List.drop_drop, hdrop]
      rfl
    obtain ⟨e, hsealed⟩ | ⟨hfits, hsealed⟩ := sealAll_cons c direction cipher chunk rest.isEmpty
      (withFinal rest)
    all_goals rw [withFinal, hsealed] at hframe
    · cases hframe
    · cases i with
      | zero =>
        obtain rfl := Option.some.inj hframe
        exact ⟨chunk, rest.isEmpty, hfits, hdrop.trans (by rw [← hnext]), by simp [hnext], rfl⟩
      | succ i =>
        have hlater := ih (by rwa [Cipher.sent_nextSend]) hframe
        rwa [Cipher.sent_nextSend, Nat.add_assoc, Nat.add_comm 1 i] at hlater

theorem sendStream_sent (hsent : cipher.nextSend direction = 0)
    (hframe : frame ∈ (sendStream c sha256 cipher direction chunks).1) :
    ∃ i, (sendStream c sha256 cipher direction chunks).1[i]? = some frame ∧
      IsSent c cipher direction chunks i frame := by
  obtain ⟨i, hi⟩ := List.mem_iff_getElem?.mp hframe
  refine ⟨i, hi, ?_⟩
  rw [sendStream] at hi
  split_ifs at hi
  · cases hi
  · have hframe := sealAll_sent (by rw [hsent]; rfl) hi
    rwa [hsent, Nat.zero_add] at hframe

/-! ### Streams -/

/-- **What the sink is handed**, from any number of received chunks on. -/
theorem openAll_below (hc : c.Authenticates) (hpair : Paired sender receiver)
    (harrived : ∀ frame ∈ arrived, Forged c sender direction frame ∨
      ∃ i, IsSent c sender direction chunks i frame) :
    (openAll c direction receiver arrived).1 <+: chunks.drop (receiver.nextReceive direction) ∧
      ((openAll c direction receiver arrived).2 = some (.ok ()) →
        (openAll c direction receiver arrived).1 =
          chunks.drop (receiver.nextReceive direction)) := by
  induction arrived generalizing receiver with
  | nil => exact ⟨ List.nil_prefix, nofun⟩
  | cons frame arrived ih =>
    rw [List.forall_mem_cons] at harrived
    obtain ⟨hframe, hrest⟩ := harrived
    by_cases herror : ∃ e, receiver.openFrame c direction frame = .error e
    · obtain ⟨e, hopen⟩ := herror
      rw [openAll, hopen]
      dsimp only
      split_ifs
      · exact ih hpair hrest
      · exact ⟨ List.nil_prefix, nofun⟩
    · obtain hforged | ⟨i, chunk, final, hfits, hdrop, hfinal, rfl⟩ := hframe
      · exact absurd (openFrame_forged hpair hforged) herror
      · have hopen : receiver.openFrame c direction (sender.frame c direction i chunk final) = _ :=
          openFrame_frame hc hpair hfits
        rw [hopen] at herror
        split_ifs at hopen herror with hlt hgt
        · exact absurd ⟨_, rfl⟩ herror
        · exact absurd ⟨_, rfl⟩ herror
        · obtain rfl : i = receiver.nextReceive direction := by omega
          rw [openAll, hopen, hdrop]
          dsimp only
          split_ifs with hlast
          · rw [hfinal.mp hlast]
            exact ⟨ List.prefix_rfl, fun _ => rfl⟩
          · have hlater := @ih (receiver.opened direction) hpair.opened hrest
            rw [Cipher.opened_nextReceive] at hlater
            exact ⟨List.cons_prefix_cons.mpr ⟨rfl, hlater.1⟩,
              fun hdone => congrArg (chunk :: ·) (hlater.2 hdone)⟩

/-- **What a relay sends on**, from any number of forwarded frames on. -/
theorem forward_below (hc : c.Authenticates) (hpair : Paired sender receiver)
    (hframes : ∀ frame ∈ frames, ∃ i, frames[i]? = some frame ∧
      IsSent c sender direction chunks i frame)
    (harrived : ∀ frame ∈ arrived, frame ∈ frames) (expected : Nat) :
    (forward sender.sessionId direction expected arrived).1 <+: frames.drop expected := by
  induction arrived generalizing expected with
  | nil => exact List.nil_prefix
  | cons frame arrived ih =>
    rw [List.forall_mem_cons] at harrived
    obtain ⟨hmem, hrest⟩ := harrived
    obtain ⟨i, hi, chunk, final, hfits, -, -, rfl⟩ := hframes frame hmem
    rw [forward, inspectFrame_frame hc hpair hfits]
    dsimp only
    rw [if_neg (by simp)]
    split_ifs with hlt hgt hlast
    · exact ih hrest expected
    · exact List.nil_prefix
    all_goals
      obtain rfl : i = expected := by omega
      rw [List.drop_eq_getElem?_toList_append, hi]
    · exact List.cons_prefix_cons.mpr ⟨rfl, List.nil_prefix⟩
    · exact List.cons_prefix_cons.mpr ⟨rfl, ih hrest (i + 1)⟩

/-- **Whatever arrives, one frame of each number is sent on**, from the expected one on. -/
theorem forward_numbered (sessionId : String) (direction : Direction) (arrived : List Bytes)
    (expected : Nat) :
    (forward sessionId direction expected arrived).1.Sublist arrived ∧
      ∀ i frame, (forward sessionId direction expected arrived).1[i]? = some frame →
        ∃ header, inspectFrame frame = .ok header ∧ header.sessionId = sessionId ∧
          header.direction = direction ∧ header.sequence = expected + i := by
  induction arrived generalizing expected with
  | nil => exact ⟨.refl _, fun i frame h => by cases h⟩
  | cons frame arrived ih =>
    have hnone : ([] : List Bytes).Sublist (frame :: arrived) ∧
        ∀ i other, ([] : List Bytes)[i]? = some other →
          ∃ header, inspectFrame other = .ok header ∧ header.sessionId = sessionId ∧
            header.direction = direction ∧ header.sequence = expected + i :=
      ⟨ List.nil_sublist _, fun i other h => by cases h⟩
    rw [forward]
    rcases hinspect : inspectFrame frame with e | header
    · exact hnone
    dsimp only
    split_ifs with hmismatch hlt hgt hlast
    · exact hnone
    · exact ⟨(ih expected).1.cons frame, (ih expected).2⟩
    · exact hnone
    all_goals
      obtain ⟨hsession, hdirection⟩ := not_or.mp hmismatch
      have hfirst : header.sessionId = sessionId ∧ header.direction = direction ∧
          header.sequence = expected + 0 :=
        ⟨not_not.mp hsession, not_not.mp hdirection, by omega⟩
    · refine ⟨(List.nil_sublist _).cons_cons frame, fun i other hother => ?_⟩
      cases i with
      | zero =>
        obtain rfl := Option.some.inj hother
        exact ⟨header, hinspect, hfirst⟩
      | succ i => cases hother
    · refine ⟨(ih (expected + 1)).1.cons_cons frame, fun i other hother => ?_⟩
      cases i with
      | zero =>
        obtain rfl := Option.some.inj hother
        exact ⟨header, hinspect, hfirst⟩
      | succ i =>
        obtain ⟨later, hlater, hid, hway, hcount⟩ := (ih (expected + 1)).2 i other hother
        exact ⟨later, hlater, hid, hway, by omega⟩

/-- The frames in their order are forwarded and opened to the end. -/
theorem sealAll_whole (hc : c.Authenticates) (hpair : Paired sender receiver)
    (hnext : receiver.nextReceive direction = sender.nextSend direction) (hne : chunks ≠ [])
    (h : sealAll c direction sender (withFinal chunks) = (frames, .ok ())) :
    openAll c direction receiver frames = (chunks, some (.ok ())) ∧
      forward sender.sessionId direction (sender.nextSend direction) frames =
        (frames, some (.ok ())) := by
  induction chunks generalizing sender receiver frames with
  | nil => exact absurd rfl hne
  | cons chunk rest ih =>
    obtain ⟨e, herror⟩ | ⟨hfits, hall⟩ := sealAll_cons c direction sender chunk rest.isEmpty
      (withFinal rest)
    · cases herror.symm.trans h
    · obtain ⟨rfl, hrest⟩ := Prod.mk.inj (hall.symm.trans h)
      rw [openAll, forward, openFrame_frame hc hpair hfits, hnext,
        inspectFrame_frame hc hpair hfits]
      cases rest with
      | nil => simp [withFinal, sealAll]
      | cons next rest =>
        obtain ⟨hopened, hforwarded⟩ := @ih (sender.sent direction) (receiver.opened direction) _
          hpair.opened.sent (by simp [hnext]) (List.cons_ne_nil _ _) (Prod.ext rfl hrest)
        have hid : (sender.sent direction).sessionId = sender.sessionId := rfl
        rw [hid, Cipher.sent_nextSend] at hforwarded
        simp [hopened, hforwarded]

/-- **The other end is handed what the sender has sent**, whatever happens to the frames.  A relay
sends on one frame of each number: the sender's own, unless another arrives under its header. -/
theorem stream_fidelity {uuid ephemeral messagingKey : Bytes} {session : SourceSession Key}
    {sourcePeerId targetPeerId expiresAt : String} {target : Cipher Key} {toSend : List Bytes}
    (hc : c.Authenticates) (hagree : Agree c uuid ephemeral messagingKey)
    (hsource : sourceSession c uuid sourcePeerId targetPeerId (messagingPublicKey c messagingKey)
      expiresAt ephemeral toSend = .ok session)
    (htarget : forTarget c session.opened messagingKey = .ok target)
    (hsender : sender.Of session.cipher) (hreceiver : receiver.Of target)
    (hsent : sender.nextSend direction = 0) (hreceived : receiver.nextReceive direction = 0) :
    (∀ arrived, (∀ frame ∈ arrived, Forged c sender direction frame ∨
        frame ∈ (sendStream c sha256 sender direction chunks).1) →
      (receiveStream c sha256 receiver direction arrived).1 <+: chunks ∧
        ∀ report, (receiveStream c sha256 receiver direction arrived).2 = some (.ok report) →
          (receiveStream c sha256 receiver direction arrived).1 = chunks ∧
            report = .of sha256 chunks) ∧
      (∀ arrived, (forward sender.sessionId direction 0 arrived).1.Sublist arrived ∧
        ∀ i frame, (forward sender.sessionId direction 0 arrived).1[i]? = some frame →
          ∃ header, inspectFrame frame = .ok header ∧ header.sessionId = sender.sessionId ∧
            header.direction = direction ∧ header.sequence = i) ∧
      (∀ arrived, (∀ frame ∈ arrived, frame ∈ (sendStream c sha256 sender direction chunks).1) →
        (forward sender.sessionId direction 0 arrived).1 <+:
          (sendStream c sha256 sender direction chunks).1) ∧
      ∀ frames report, sendStream c sha256 sender direction chunks = (frames, .ok report) →
        forward sender.sessionId direction 0 frames = (frames, some (.ok ())) ∧
          receiveStream c sha256 receiver direction frames = (chunks, some (.ok report)) := by
  have hpair := sourceSession_paired hagree hsource htarget hsender hreceiver
  have hnumbered := fun arrived => forward_numbered sender.sessionId direction arrived 0
  simp only [Nat.zero_add] at hnumbered
  refine ⟨fun arrived harrived => ?_, hnumbered, fun arrived harrived => ?_,
    fun frames report h => ?_⟩
  · have hbelow := openAll_below hc hpair fun frame hframe =>
      (harrived frame hframe).imp_right fun hmem => by
        obtain ⟨i, -, hchunk⟩ := sendStream_sent hsent hmem
        exact ⟨i, hchunk⟩
    rw [hreceived] at hbelow
    refine ⟨hbelow.1, fun report hreport => ?_⟩
    simp only [receiveStream, Option.map_eq_some_iff] at hreport
    obtain ⟨outcome, houtcome, hreport⟩ := hreport
    cases outcome with
    | error e => cases hreport
    | ok done =>
      have hall := hbelow.2 houtcome
      cases hreport
      exact ⟨hall, congrArg (StreamReport.of sha256) hall⟩
  · exact forward_below hc hpair (fun frame => sendStream_sent hsent) harrived 0
  · rw [sendStream] at h
    split_ifs at h with hne
    · cases h
    · rcases hall : sealAll c direction sender (withFinal chunks) with ⟨frames', e | done⟩
      all_goals rw [hall] at h
      all_goals cases h
      obtain ⟨hopened, hforwarded⟩ := sealAll_whole hc hpair (hreceived.trans hsent.symm) hne hall
      rw [hsent] at hforwarded
      refine ⟨hforwarded, ?_⟩
      rw [receiveStream, hopened]
      rfl

theorem stream_fidelity_sample : ∃ session target frames report,
    sourceSession sampleCrypto sampleUuid "source" "target" sampleMessagingPub ""
        (List.replicate 32 1) [] = .ok session ∧
      forTarget sampleCrypto session.opened (List.replicate 32 2) = .ok target ∧
      sendStream sampleCrypto sampleSha256 session.cipher .request [[1], [2, 3]] =
        (frames, .ok report) ∧
      receiveStream sampleCrypto sampleSha256 target .request frames =
        ([[1], [2, 3]], some (.ok report)) := by
  have hc : sampleCrypto.Authenticates :=
    ⟨fun _ _ plaintext _ => by simp [sampleCrypto, tagBytes],
      fun _ _ plaintext _ => by simp [sampleCrypto]⟩
  have hagree : Agree sampleCrypto sampleUuid (List.replicate 32 1) (List.replicate 32 2) :=
    ⟨rfl, rfl, by decide, rfl⟩
  refine ⟨_, _, _, _, rfl, rfl, rfl, ?_⟩
  exact ((stream_fidelity hc hagree rfl rfl ⟨_, _, rfl⟩ ⟨_, _, rfl⟩ rfl rfl).2.2.2 _ _ rfl).2

end Transit
