import Rynmesh.TransitSessions

/-!
# When a nonce is used twice

* `keyContext_injective`: two sessions of honest sources never share a key
  context, since its identifier stands at a fixed place and is fresh;
* `World.Sound` says what was sealed: a request is the chunk of its number in a
  session of a source, a response is the first of an order that was answered;
* `World.Sound.step` carries it along every run, and `nonces_unique_unreplayed`
  reads it off.
-/

namespace Transit

open Checked

variable {Key : Type} {p : Platform} {c : Crypto Key} {target : Target}

/-! ### Keys -/

variable {sourcePeerId targetPeerId : String}

theorem deriveKey_ok {privateKey : Bytes} {remotePublic sessionId : String} {key : Key}
    (h : deriveKey c privateKey remotePublic sessionId sourcePeerId targetPeerId = .ok key) :
    ∃ remote shared, c.remoteKey remotePublic = some remote ∧
      c.exchange privateKey remote = some shared ∧
      key = c.hkdf (keyContext sessionId sourcePeerId targetPeerId) shared := by
  simp only [deriveKey, bind_ok, Checked.demand_ok, pure_ok] at h
  obtain ⟨remote, hremote, shared, hshared, rfl⟩ := h
  exact ⟨remote, shared, hremote, hshared, rfl⟩

variable {cipher : Cipher Key}

theorem Cipher.new_ok {sessionId : String} {key : Key}
    (h : Cipher.new c sessionId sourcePeerId targetPeerId key = .ok cipher) :
    cipher.sessionId = sessionId ∧ cipher.key = key ∧ cipher.nextSend = fun _ => 0 := by
  simp only [Cipher.new, bind_ok, Checked.demand_ok, pure_ok] at h
  obtain ⟨bytes, -, rfl⟩ := h
  exact ⟨rfl, rfl, rfl⟩

theorem forTarget_ok {session : SessionOpen} {messagingKey : Bytes}
    (h : forTarget c session messagingKey = .ok cipher) :
    (∃ inputs, session.keyInputs c messagingKey = some inputs ∧
      cipher.key = c.hkdf inputs.1 inputs.2) ∧ cipher.nextSend .response = 0 := by
  obtain ⟨key, hkey, hnew⟩ := bind_ok.mp h
  obtain ⟨remote, shared, hremote, hshared, rfl⟩ := deriveKey_ok hkey
  obtain ⟨-, hcipher, hsend⟩ := Cipher.new_ok hnew
  refine ⟨⟨(_, shared), ?_, hcipher⟩, congrFun hsend .response⟩
  simp only [SessionOpen.keyInputs, hremote, hshared, Option.bind_eq_bind, Option.bind_some]
  rfl

theorem forSource_ok {sessionId targetMessagingPub : String} {ephemeral : Bytes}
    (h : forSource c sessionId sourcePeerId targetPeerId targetMessagingPub ephemeral =
      .ok cipher) :
    cipher.sessionId = sessionId ∧
      ∃ shared, cipher.key = c.hkdf (keyContext sessionId sourcePeerId targetPeerId) shared := by
  obtain ⟨key, hkey, hnew⟩ := bind_ok.mp h
  obtain ⟨remote, shared, -, -, rfl⟩ := deriveKey_ok hkey
  obtain ⟨hid, hcipher, -⟩ := Cipher.new_ok hnew
  exact ⟨hid, shared, hcipher⟩

theorem length_hexText (bytes : Bytes) : (hexText bytes).toList.length = 2 * bytes.length := by
  rw [hexText, String.toList_ofList]
  induction bytes with
  | nil => rfl
  | cons byte bytes ih =>
    rw [List.flatMap_cons, List.length_append, ih, List.length_cons]
    simp only [List.length_cons, List.length_nil]
    omega

/-- **The session identifier can be read back from a key context.** -/
theorem keyContext_injective {sessionId sessionId' sourcePeerId' targetPeerId' : String}
    (h : keyContext sessionId sourcePeerId targetPeerId =
      keyContext sessionId' sourcePeerId' targetPeerId')
    (hlength : sessionId.toList.length = sessionId'.toList.length) : sessionId = sessionId' := by
  have hlists := congrArg String.toList h
  simp only [keyContext, String.intercalate_cons_cons, String.toList_append,
    List.append_assoc] at hlists
  have hrest := List.append_cancel_left (List.append_cancel_left hlists)
  exact String.toList_inj.mp (List.append_inj_left hrest hlength)

/-! ### Frames -/

variable {direction : Direction}

theorem Cipher.sealFrame_ok {cipher' : Cipher Key} {plaintext frame : Bytes} {final : Bool}
    (h : cipher.sealFrame c direction plaintext final = .ok (frame, cipher')) :
    cipher' = cipher.sent direction := by
  simp only [Cipher.sealFrame, bind_ok, pure_ok, Prod.mk.injEq] at h
  obtain ⟨-, -, -, -, -, rfl⟩ := h
  rfl

theorem Cipher.openFrame_ok {cipher' : Cipher Key} {plaintext frame : Bytes} {header : FrameHeader}
    (h : cipher.openFrame c direction frame = .ok (plaintext, header, cipher')) :
    cipher'.key = cipher.key ∧ cipher'.nextSend = cipher.nextSend := by
  simp only [Cipher.openFrame, bind_ok, pure_ok, Prod.mk.injEq] at h
  obtain ⟨-, -, -, -, -, -, -, -, -, -, -, -, -, -, -, -, rfl⟩ := h
  exact ⟨rfl, rfl⟩

theorem bigEndian_succ (width n : Nat) :
    bigEndian (width + 1) n = UInt8.ofNat (n / 256 ^ width % 256) :: bigEndian width n := by
  simp only [bigEndian, List.range_succ, List.reverse_append, List.reverse_singleton,
    List.singleton_append, List.map_cons]

theorem length_bigEndian (width n : Nat) : (bigEndian width n).length = width := by
  simp [bigEndian]

theorem foldl_bigEndian (start width n : Nat) :
    (bigEndian width n).foldl (fun n byte => n * 256 + byte.toNat) start =
      start * 256 ^ width + n % 256 ^ width := by
  induction width generalizing start with
  | zero => simp [bigEndian, Nat.mod_one]
  | succ width ih =>
    have hbyte : (UInt8.ofNat (n / 256 ^ width % 256)).toNat = n / 256 ^ width % 256 := by
      simp
    rw [bigEndian_succ, List.foldl_cons, ih, hbyte, Nat.mod_pow_succ, pow_succ]
    ring

/-- A number that fits is read back. -/
theorem ofBigEndian_bigEndian {width n : Nat} (h : n < 256 ^ width) :
    ofBigEndian (bigEndian width n) = n := by
  rw [ofBigEndian, foldl_bigEndian, Nat.zero_mul, Nat.zero_add, Nat.mod_eq_of_lt h]

theorem directionName_code (direction : Direction) :
    directionName direction.code = .ok direction := by
  cases direction <;> rfl

/-- **A packed header is inspected again.** -/
theorem inspectFrame_pack {sessionBytes ciphertext : Bytes} {sequence size : Nat} {final : Bool}
    (hbytes : sessionBytes.length = 16) (hsequence : sequence < 2 ^ 64)
    (hsize : 1 ≤ size ∧ size ≤ maxPlaintextBytes)
    (hciphertext : ciphertext.length = size + tagBytes) :
    inspectFrame (packHeader sessionBytes direction sequence size final ++ ciphertext) =
      .ok ⟨hexText sessionBytes, direction, sequence, size, final⟩ := by
  have hmagic : frameMagic.length = 8 := rfl
  have h8 := length_bigEndian 8 sequence
  have h4 := length_bigEndian 4 size
  have hparts : packHeader sessionBytes direction sequence size final ++ ciphertext =
      frameMagic ++ (sessionBytes ++ (direction.code :: (bigEndian 8 sequence ++
        (bigEndian 4 size ++ (if final then 1 else 0) :: ciphertext)))) := by
    simp only [packHeader, List.append_assoc, List.cons_append, List.nil_append]
  have hflag : ofBigEndian [if final then 1 else 0] = if final then 1 else 0 := by
    cases final <;> rfl
  have hlength : (packHeader sessionBytes direction sequence size final ++ ciphertext).length =
      headerSize + size + tagBytes := by
    rw [hparts]
    simp only [List.length_append, List.length_cons, hmagic, hbytes, h8, h4, hciphertext,
      headerSize]
    omega
  rw [hparts] at hlength ⊢
  generalize hlast : (if final then 1 else 0 : UInt8) :: ciphertext = last at hlength ⊢
  have h24 : (frameMagic ++ (sessionBytes ++ (direction.code :: (bigEndian 8 sequence ++
      (bigEndian 4 size ++ last))))).drop 24 =
      direction.code :: (bigEndian 8 sequence ++ (bigEndian 4 size ++ last)) := by
    rw [show 24 = 8 + 16 from rfl, ← List.drop_drop, List.drop_left' hmagic,
      List.drop_left' hbytes]
  have h25 : (frameMagic ++ (sessionBytes ++ (direction.code :: (bigEndian 8 sequence ++
      (bigEndian 4 size ++ last))))).drop 25 = bigEndian 8 sequence ++
        (bigEndian 4 size ++ last) := by
    rw [show 25 = 24 + 1 from rfl, ← List.drop_drop, h24, List.drop_one, List.tail_cons]
  have h33 : (frameMagic ++ (sessionBytes ++ (direction.code :: (bigEndian 8 sequence ++
      (bigEndian 4 size ++ last))))).drop 33 = bigEndian 4 size ++ last := by
    rw [show 33 = 25 + 8 from rfl, ← List.drop_drop, h25, List.drop_left' h8]
  have h37 : (frameMagic ++ (sessionBytes ++ (direction.code :: (bigEndian 8 sequence ++
      (bigEndian 4 size ++ last))))).drop 37 = last := by
    rw [show 37 = 33 + 4 from rfl, ← List.drop_drop, h33, List.drop_left' h4]
  have hflags : ofBigEndian (last.take 1) = if final then 1 else 0 := by
    rw [← hlast]
    exact hflag
  have hsize' : size < 256 ^ 4 := lt_of_le_of_lt hsize.2 (by decide)
  have hsequence' : sequence < 256 ^ 8 := lt_of_lt_of_eq hsequence (by decide)
  simp only [inspectFrame, List.take_left' hmagic, List.drop_left' hmagic, h24, h25, h33, h37,
    List.take_left' hbytes, List.take_left' h8, List.take_left' h4, hflags, hlength,
    ofBigEndian_bigEndian hsize', ofBigEndian_bigEndian hsequence', List.headD_cons,
    directionName_code, require, Checked.require]
  have hshort : headerSize + tagBytes ≤ headerSize + size + tagBytes := by omega
  cases final <;> simp [hshort, hsize]

/-! ### The invariant -/

/-- The key of a session is derived from its open. -/
def KeyOf (c : Crypto Key) (target : Target) (session : SessionOpen) (key : Key) : Prop :=
  ∃ inputs, session.keyInputs c target.messagingKey = some inputs ∧
    key = c.hkdf inputs.1 inputs.2

/-- What is known of an order that is being served. -/
structure TargetOk (c : Crypto Key) (target : Target) (session : TargetSession Key) : Prop where
  key : KeyOf c target session.opened session.cipher.key
  unsent : session.stage ≠ .answered → session.cipher.nextSend .response = 0

/-- What is known of a session of a source. -/
structure SourceOk (c : Crypto Key) (session : SourceSession Key) : Prop where
  length : session.cipher.sessionId.toList.length = 32
  key : ∃ sourcePeerId targetPeerId shared, session.cipher.key =
    c.hkdf (keyContext session.cipher.sessionId sourcePeerId targetPeerId) shared

/-- A request is the chunk of its number in a session of a source. -/
def RequestOf (sources : Nat → Option (SourceSession Key)) (e : Sealed Key) : Prop :=
  ∃ id session, sources id = some session ∧ e.key = session.cipher.key ∧
    session.chunks[e.sequence]? = some e.plaintext

/-- A response is the first of an order that was answered, and carries its receipt. -/
def ResponseOf (p : Platform) (c : Crypto Key) (target : Target)
    (answered : List (SessionOpen × Receipt)) (e : Sealed Key) : Prop :=
  e.sequence = 0 ∧ ∃ a ∈ answered, KeyOf c target a.1 e.key ∧ e.plaintext = p.dumps a.2.document

/-- **What is sealed in a run where no answered open comes back.** -/
structure World.Sound (p : Platform) (c : Crypto Key) (target : Target) (w : World Key) :
    Prop where
  targets : ∀ id session, w.targets id = some session → TargetOk c target session
  sources : ∀ id session, w.sources id = some session → SourceOk c session
  distinct : ∀ id id' session session', w.sources id = some session →
    w.sources id' = some session' → session.cipher.sessionId = session'.cipher.sessionId → id = id'
  requests : ∀ e ∈ w.log, e.direction = .request → RequestOf w.sources e
  responses : ∀ e ∈ w.log, e.direction = .response → ResponseOf p c target w.answered e
  once : w.answered.Pairwise fun a b =>
    a.1.keyInputs c target.messagingKey ≠ b.1.keyInputs c target.messagingKey

variable {session : TargetSession Key}

namespace World

variable {w : World Key}

theorem sound_start (inbox : Inbox) : (start inbox : World Key).Sound p c target where
  targets id session h := by cases h
  sources id session h := by cases h
  distinct id id' session session' h := by cases h
  requests e h := by cases h
  responses e h := by cases h
  once := .nil

theorem setTarget_self (inbox : Inbox) (id : Nat) (session : Option (TargetSession Key)) :
    (w.setTarget inbox id session).targets id = session := by
  simp only [setTarget, Function.update_self]

theorem setTarget_other {id id' : Nat} (h : id' ≠ id) (inbox : Inbox)
    (session : Option (TargetSession Key)) :
    (w.setTarget inbox id session).targets id' = w.targets id' := by
  simp only [setTarget, Function.update_of_ne h]

theorem setSource_self (id : Nat) (session : SourceSession Key) :
    (w.setSource id session).sources id = some session := by
  simp only [setSource, Function.update_self]

theorem setSource_other {id id' : Nat} (h : id' ≠ id) (session : SourceSession Key) :
    (w.setSource id session).sources id' = w.sources id' := by
  simp only [setSource, Function.update_of_ne h]

/-- Only the named order changes. -/
theorem setTarget_cases {inbox : Inbox} {id id' : Nat} {session : Option (TargetSession Key)}
    {s : TargetSession Key} (h : (w.setTarget inbox id session).targets id' = some s) :
    session = some s ∨ w.targets id' = some s := by
  by_cases heq : id' = id
  · rw [heq, setTarget_self] at h
    exact .inl h
  · rw [setTarget_other heq] at h
    exact .inr h

theorem setSource_cases {id id' : Nat} {session s : SourceSession Key}
    (h : (w.setSource id session).sources id' = some s) :
    id' = id ∧ s = session ∨ id' ≠ id ∧ w.sources id' = some s := by
  by_cases heq : id' = id
  · rw [heq, setSource_self] at h
    exact .inl ⟨heq, (Option.some.inj h).symm⟩
  · rw [setSource_other heq] at h
    exact .inr ⟨heq, h⟩

namespace Sound

/-- An order is taken up, moves on, or ends. -/
theorem setTarget (hw : w.Sound p c target) (inbox : Inbox) (id : Nat)
    {session : Option (TargetSession Key)} (h : ∀ s, session = some s → TargetOk c target s) :
    (w.setTarget inbox id session).Sound p c target where
  targets id' s hs := by
    rcases setTarget_cases hs with hsession | hbefore
    · exact h s hsession
    · exact hw.targets id' s hbefore
  sources := hw.sources
  distinct := hw.distinct
  requests := hw.requests
  responses := hw.responses
  once := hw.once

theorem close (hw : w.Sound p c target) (inbox : Inbox) (sink : Sink) (id : Nat) :
    (w.close inbox sink id).Sound p c target := by
  refine hw.setTarget _ id fun s hs => ?_
  cases hs

theorem serve (hw : w.Sound p c target) (id : Nat) (order : Order) (now : Rat) :
    (w.serve p c target id order now).Sound p c target := by
  unfold World.serve
  split
  · next session _ haccept =>
    refine hw.setTarget _ id fun s hs => ?_
    obtain rfl := Option.some.inj hs
    simp only [acceptOrder, bind_ok, pure_ok] at haccept
    obtain ⟨opened, -, -, -, cipher, hcipher, rfl⟩ := haccept
    obtain ⟨hkey, hsend⟩ := forTarget_ok hcipher
    exact ⟨hkey, fun _ => hsend⟩
  · exact hw

theorem receive (hw : w.Sound p c target) (id : Nat) (hok : TargetOk c target session)
    (hstage : session.stage ≠ .answered) (frame : Bytes) :
    (w.receive p c id session frame).Sound p c target := by
  unfold World.receive
  split
  · split
    · exact hw
    · exact hw.close ..
  rename_i plaintext header cipher hopen
  obtain ⟨hkey, hsend⟩ := Cipher.openFrame_ok hopen
  split
  · exact hw.close ..
  refine hw.setTarget _ id fun s hs => ?_
  obtain rfl := Option.some.inj hs
  refine ⟨?_, fun _ => ?_⟩
  · rw [hkey]
    exact hok.key
  · rw [hsend]
    exact hok.unsent hstage

theorem finish (hw : w.Sound p c target) (id : Nat) (hok : TargetOk c target session)
    (hstage : session.stage ≠ .answered) : (w.finish p id session).Sound p c target := by
  unfold World.finish
  split
  · exact hw.close ..
  · refine hw.setTarget _ id fun s hs => ?_
    obtain rfl := Option.some.inj hs
    exact ⟨hok.key, fun _ => hok.unsent hstage⟩

/-- **A response is sealed.**  Its cipher has sent nothing, and no answered open
has the same key. -/
theorem answer (hw : w.Sound p c target) (id : Nat) (hok : TargetOk c target session)
    (hstage : session.stage ≠ .answered) (receipt : Receipt)
    (hnew : ∀ a ∈ w.answered, a.1.keyInputs c target.messagingKey ≠
      session.opened.keyInputs c target.messagingKey) :
    (w.answer p c id session receipt).Sound p c target := by
  simp only [World.answer]
  split
  · exact hw.close ..
  rename_i frame cipher hseal
  obtain rfl := Cipher.sealFrame_ok hseal
  have hset : (w.setTarget w.inbox id (some { session with
      cipher := session.cipher.sent .response, stage := .answered })).Sound p c target := by
    refine hw.setTarget _ id fun s hs => ?_
    obtain rfl := Option.some.inj hs
    exact ⟨hok.key, fun h => absurd rfl h⟩
  refine ⟨hset.targets, hset.sources, hset.distinct, ?_, ?_, ?_⟩
  · intro e he hdirection
    rcases List.mem_cons.mp he with rfl | he
    · cases hdirection
    · exact hw.requests e he hdirection
  · intro e he hdirection
    rcases List.mem_cons.mp he with rfl | he
    · exact ⟨hok.unsent hstage, _, (.head _), hok.key, rfl⟩
    · obtain ⟨hfirst, a, ha, hsealed⟩ := hw.responses e he hdirection
      exact ⟨hfirst, a, .tail _ ha, hsealed⟩
  · exact List.pairwise_cons.mpr ⟨fun a ha => (hnew a ha).symm, hw.once⟩

theorem restart (hw : w.Sound p c target) : w.restart.Sound p c target where
  targets id session h := by cases h
  sources := hw.sources
  distinct := hw.distinct
  requests := hw.requests
  responses := hw.responses
  once := hw.once

theorem openSession (hw : w.Sound p c target) {id : Nat} {session : SourceSession Key}
    (hnone : w.sources id = none) (hok : SourceOk c session)
    (hfresh : ∀ id s, w.sources id = some s → s.cipher.sessionId ≠ session.cipher.sessionId) :
    (w.setSource id session).Sound p c target where
  targets := hw.targets
  sources id' s hs := by
    rcases setSource_cases hs with ⟨-, rfl⟩ | ⟨-, hbefore⟩
    · exact hok
    · exact hw.sources id' s hbefore
  distinct i j s t hs ht hid := by
    rcases setSource_cases hs with ⟨rfl, rfl⟩ | ⟨-, hs'⟩
    · rcases setSource_cases ht with ⟨rfl, rfl⟩ | ⟨-, ht'⟩
      · rfl
      · exact absurd hid.symm (hfresh j t ht')
    · rcases setSource_cases ht with ⟨rfl, rfl⟩ | ⟨-, ht'⟩
      · exact absurd hid (hfresh i s hs')
      · exact hw.distinct i j s t hs' ht' hid
  requests e he hdirection := by
    obtain ⟨id', s, hs, hsealed⟩ := hw.requests e he hdirection
    have hne : id' ≠ id := by
      intro heq
      rw [heq, hnone] at hs
      cases hs
    exact ⟨id', s, (setSource_other hne session).trans hs, hsealed⟩
  responses := hw.responses
  once := hw.once

/-- **A request is sealed.**  The session keeps its key and its chunks. -/
theorem send (hw : w.Sound p c target) {id : Nat} {session : SourceSession Key}
    (hfound : w.sources id = some session) : (w.send c id session).Sound p c target := by
  unfold World.send
  split
  · exact hw
  rename_i chunk hchunk
  split
  · exact hw
  rename_i frame cipher hseal
  obtain rfl := Cipher.sealFrame_ok hseal
  have hok := hw.sources id session hfound
  refine ⟨hw.targets, ?_, ?_, ?_, ?_, hw.once⟩
  · intro id' s hs
    rcases setSource_cases hs with ⟨-, rfl⟩ | ⟨-, hbefore⟩
    · exact ⟨hok.length, hok.key⟩
    · exact hw.sources id' s hbefore
  · intro i j s t hs ht hid
    rcases setSource_cases hs with ⟨rfl, rfl⟩ | ⟨-, hs'⟩
    · rcases setSource_cases ht with ⟨rfl, rfl⟩ | ⟨-, ht'⟩
      · rfl
      · exact hw.distinct i j session t hfound ht' hid
    · rcases setSource_cases ht with ⟨rfl, rfl⟩ | ⟨-, ht'⟩
      · exact hw.distinct i j s session hs' hfound hid
      · exact hw.distinct i j s t hs' ht' hid
  · intro e he hdirection
    rcases List.mem_cons.mp he with rfl | he
    · exact ⟨id, _, setSource_self .., rfl, hchunk⟩
    · obtain ⟨id', s, hs, hkey, hsealed⟩ := hw.requests e he hdirection
      by_cases heq : id' = id
      · obtain rfl := Option.mem_unique hs (heq ▸ hfound)
        exact ⟨id, _, setSource_self .., hkey, hsealed⟩
      · exact ⟨id', s, (setSource_other heq _).trans hs, hkey, hsealed⟩
  · intro e he hdirection
    rcases List.mem_cons.mp he with rfl | he
    · cases hdirection
    · exact hw.responses e he hdirection

/-- **One step of a run keeps the invariant.** -/
theorem step (hw : w.Sound p c target) {event : Event} (hfresh : FreshUuid w event)
    (hallowed : Unreplayed c target w event) : (w.step p c target event).Sound p c target := by
  cases event with
  | serve id order now => exact hw.serve id order now
  | frame id frame =>
    simp only [World.step]
    split
    · next hfound => exact hw.receive id (hw.targets id _ hfound) nofun frame
    · exact hw
  | finish id =>
    simp only [World.step]
    split
    · next hfound => exact hw.finish id (hw.targets id _ hfound) nofun
    · exact hw
  | answer id =>
    simp only [World.step]
    split
    · next hfound =>
      exact hw.answer id (hw.targets id _ hfound) nofun _
        (hallowed _ hfound)
    · exact hw
  | acknowledge id =>
    simp only [World.step]
    split
    · refine hw.setTarget _ id fun s hs => ?_
      cases hs
    · exact hw
  | lose id =>
    simp only [World.step]
    split
    · exact hw.close ..
    · exact hw
  | restart => exact hw.restart
  | openSession id uuid sourcePeerId targetPeerId targetMessagingPub expiresAt ephemeral chunks =>
    simp only [World.step]
    split
    · next session hnone hsession =>
      simp only [sourceSession, bind_ok, pure_ok] at hsession
      obtain ⟨cipher, hcipher, rfl⟩ := hsession
      obtain ⟨hid, shared, hkey⟩ := forSource_ok hcipher
      refine hw.openSession hnone ⟨?_, sourcePeerId, targetPeerId, shared, ?_⟩ ?_
      · rw [hid, length_hexText, hfresh.1]
      · rw [hid]
        exact hkey
      · rw [hid]
        exact hfresh.2
    · exact hw
  | send id =>
    simp only [World.step]
    split
    · next hfound => exact hw.send hfound
    · exact hw

theorem request_unique (hw : w.Sound p c target) (hhkdf : Function.Injective2 c.hkdf)
    {e e' : Sealed Key} (he : RequestOf w.sources e) (he' : RequestOf w.sources e')
    (hkey : e.key = e'.key) (hsequence : e.sequence = e'.sequence) :
    e.plaintext = e'.plaintext := by
  obtain ⟨id, s, hs, hk, hchunk⟩ := he
  obtain ⟨id', s', hs', hk', hchunk'⟩ := he'
  obtain ⟨sourcePeerId, targetPeerId, shared, hshared⟩ := (hw.sources id s hs).key
  obtain ⟨sourcePeerId', targetPeerId', shared', hshared'⟩ := (hw.sources id' s' hs').key
  have hderived : c.hkdf (keyContext s.cipher.sessionId sourcePeerId targetPeerId) shared =
      c.hkdf (keyContext s'.cipher.sessionId sourcePeerId' targetPeerId') shared' := by
    rw [← hshared, ← hshared', ← hk, ← hk', hkey]
  have hsession := keyContext_injective (hhkdf hderived).1
    ((hw.sources id s hs).length.trans (hw.sources id' s' hs').length.symm)
  obtain rfl := hw.distinct id id' s s' hs hs' hsession
  obtain rfl := Option.mem_unique hs hs'
  exact Option.mem_unique hchunk (hsequence ▸ hchunk')

theorem response_unique (hw : w.Sound p c target) (hhkdf : Function.Injective2 c.hkdf)
    {e e' : Sealed Key} (he : ResponseOf p c target w.answered e)
    (he' : ResponseOf p c target w.answered e') (hkey : e.key = e'.key) :
    e.plaintext = e'.plaintext := by
  obtain ⟨-, a, ha, ⟨inputs, hinputs, hk⟩, hplain⟩ := he
  obtain ⟨-, b, hb, ⟨inputs', hinputs', hk'⟩, hplain'⟩ := he'
  have hsame : inputs = inputs' := by
    obtain ⟨hcontext, hshared⟩ := hhkdf (hk.symm.trans (hkey.trans hk'))
    exact Prod.ext hcontext hshared
  have hab : a = b := by
    by_contra hne
    have hsymm : Std.Symm fun a b : SessionOpen × Receipt =>
      a.1.keyInputs c target.messagingKey ≠ b.1.keyInputs c target.messagingKey :=
      ⟨fun _ _ h => h.symm⟩
    exact hw.once.forall ha hb hne (by rw [hinputs, hinputs', hsame])
  rw [hplain, hplain', hab]

/-- **Nothing that is sealed under the invariant shares a nonce.** -/
theorem nonceUnique (hw : w.Sound p c target) (hhkdf : Function.Injective2 c.hkdf) :
    NonceUnique w.log := by
  intro e he e' he' hkey hdirection hsequence
  cases hd : e.direction with
  | request =>
    exact hw.request_unique hhkdf (hw.requests e he hd)
      (hw.requests e' he' (hdirection.symm.trans hd)) hkey hsequence
  | response =>
    exact hw.response_unique hhkdf (hw.responses e he hd)
      (hw.responses e' he' (hdirection.symm.trans hd)) hkey

end Sound

end World

theorem Run.sound {w : World Key} (h : Run p c target (Unreplayed c target) w) :
    w.Sound p c target := by
  induction h with
  | start inbox => exact World.sound_start inbox
  | step before event fresh ok ih => exact ih.step fresh ok

/-- **Nonces are used once, when no answered open comes back.**  In every run of
a target worker and of the honest sources it talks to, where no order is answered
whose signed open gives the same key inputs as one answered before, no two
different plaintexts are sealed under one key with one direction and sequence
number.  HKDF is taken to be free of collisions. -/
theorem nonces_unique_unreplayed {w : World Key} (hhkdf : Function.Injective2 c.hkdf)
    (h : Run p c target (Unreplayed c target) w) : NonceUnique w.log :=
  h.sound.nonceUnique hhkdf

/-! ### An answered open that comes back -/

def sampleUuid : Bytes := [0, 0, 0, 0, 0, 0, 64, 0, 128, 0, 0, 0, 0, 0, 0, 0]

def sampleMessagingPub : String := "AgICAgICAgICAgICAgICAgICAgICAgICAgICAgICAgI="

def sampleEphemeralPub : String := "AQEBAQEBAQEBAQEBAQEBAQEBAQEBAQEBAQEBAQEBAQE="

/-- Keys that are told apart by what they were derived from. -/
def sampleCrypto : Crypto (String × Bytes) :=
  { verifies := fun signed => signed.signature = "signature"
    b64decode := fun text =>
      if text = sampleEphemeralPub then some (List.replicate 32 1)
      else if text = sampleMessagingPub then some (List.replicate 32 2)
      else none
    b64encode := fun bytes =>
      if bytes = List.replicate 32 1 then sampleEphemeralPub else sampleMessagingPub
    parseUuid := fun text => if text = hexText sampleUuid then some sampleUuid else none
    parseTime := fun text => if text = "2026-01-01T00:02:00+00:00" then some 120 else none
    publicKey := id
    exchange := fun privateKey remote => some (List.zipWith (· + ·) privateKey remote)
    hkdf := Prod.mk
    encrypt := fun _ _ plaintext _ => plaintext ++ List.replicate 16 0
    decrypt := fun _ _ ciphertext _ => some (ciphertext.take (ciphertext.length - 16)) }

/-- The JSON of a receipt of the only transfer. -/
def sampleReceiptText (duplicate : Bool) : Bytes :=
  ("\x7b\"complete\":true,\"duplicate\":" ++ (if duplicate then "true" else "false") ++
    ",\"filename\":\"data\",\"next_offset_bytes\":3,\"offset_bytes\":0,\"prefix_sha256\":\"" ++
    sampleSha256 [1, 2, 3] ++ "\",\"segment_sha256\":\"" ++ sampleSha256 [1, 2, 3] ++
    "\",\"segment_size_bytes\":3,\"session_id\":\"" ++ hexText sampleUuid ++ "\",\"sha256\":\"" ++
    sampleSha256 [1, 2, 3] ++ "\",\"size_bytes\":3,\"source_peer_id\":\"source\"," ++
    "\"status\":\"stored\",\"stored_path\":\"62453fa521ca78b52a61fa65fc45d755-data\"," ++
    "\"transfer_id\":\"0123456789abcdef0123456789abcdef\"\x7d").toUTF8.data.toList

def receiptPlatform : Platform :=
  { samplePlatform with
    dumps := fun value => sampleReceiptText (value.get? "duplicate" = some (.bool true)) }

def sampleTarget : Target := ⟨"target", List.replicate 32 2, true⟩

def sampleOpen : SessionOpen :=
  ⟨hexText sampleUuid, "source", "target", sampleEphemeralPub, "2026-01-01T00:02:00+00:00", 1,
    Transit.protocolVersion⟩

/-- The order that a relay submits, as often as it likes. -/
def sampleOrder : Order := ⟨.accept, "relay", "relay", ⟨sampleOpen.document, "source", "signature"⟩⟩

def sampleChunks : List Bytes := [77 :: sampleText, [68, 1, 2, 3]]

/-- What the source sends for a chunk. -/
def sampleFrame (sequence : Nat) (chunk : Bytes) (final : Bool) : Bytes :=
  packHeader sampleUuid .request sequence chunk.length final ++ chunk ++ List.replicate 16 0

/-- A relay brings the order and both frames. -/
def sampleDelivery (id : Nat) : List Event :=
  [.serve id sampleOrder 0, .frame id (sampleFrame 0 (77 :: sampleText) false),
    .frame id (sampleFrame 1 [68, 1, 2, 3] true), .finish id, .answer id, .acknowledge id]

/-- A source opens a session and sends its chunks. -/
def sampleSource : List Event :=
  [.openSession 0 sampleUuid "source" "target" sampleMessagingPub "2026-01-01T00:02:00+00:00"
    (List.replicate 32 1) sampleChunks, .send 0, .send 0]

def sampleWorld (events : List Event) : World (String × Bytes) :=
  events.foldl (World.step receiptPlatform sampleCrypto sampleTarget)
    (.start Server.empty.inbox)

theorem Run.foldl {allowed : World Key → Event → Prop} {events : List Event} {w : World Key}
    (h : Run p c target allowed w)
    (hevents : ∀ e ∈ events, ∀ w : World Key, FreshUuid w e ∧ allowed w e) :
    Run p c target allowed (events.foldl (World.step p c target) w) := by
  induction events generalizing w with
  | nil => exact h
  | cons event events ih =>
    obtain ⟨hfresh, hallowed⟩ := hevents event (.head _) w
    exact ih (.step h event hfresh hallowed) fun e he => hevents e (.tail _ he)

theorem sampleWorld_append (events more : List Event) :
    sampleWorld (events ++ more) =
      more.foldl (World.step receiptPlatform sampleCrypto sampleTarget) (sampleWorld events) :=
  List.foldl_append

theorem sample_run {allowed : World (String × Bytes) → Event → Prop} {more : List Event}
    (hopen : ∀ w, allowed w (.openSession 0 sampleUuid "source" "target" sampleMessagingPub
      "2026-01-01T00:02:00+00:00" (List.replicate 32 1) sampleChunks))
    (hevents : ∀ e ∈ sampleSource.drop 1 ++ more, ∀ w, FreshUuid w e ∧ allowed w e) :
    Run receiptPlatform sampleCrypto sampleTarget allowed (sampleWorld (sampleSource ++ more)) := by
  have hfresh : FreshUuid (World.start Server.empty.inbox : World (String × Bytes))
      (.openSession 0 sampleUuid "source" "target" sampleMessagingPub
        "2026-01-01T00:02:00+00:00" (List.replicate 32 1) sampleChunks) :=
    ⟨rfl, fun id session h => by cases h⟩
  have hfirst : Run receiptPlatform sampleCrypto sampleTarget allowed
      (sampleWorld (sampleSource.take 1)) := .step (.start _) _ hfresh (hopen _)
  rw [← List.take_append_drop 1 sampleSource, List.append_assoc, sampleWorld_append]
  exact hfirst.foldl hevents

theorem nonces_unique_unreplayed_sample :
    (sampleWorld (sampleSource ++ sampleDelivery 0)).log.length = 3 ∧
      NonceUnique (sampleWorld (sampleSource ++ sampleDelivery 0)).log := by
  have hbefore : Run receiptPlatform sampleCrypto sampleTarget
      (Unreplayed sampleCrypto sampleTarget)
      (sampleWorld (sampleSource ++ (sampleDelivery 0).take 4)) := by
    refine sample_run (fun _ => trivial) ?_
    simp [sampleSource, sampleDelivery, FreshUuid, Unreplayed]
  have hfirst : (sampleWorld (sampleSource ++ (sampleDelivery 0).take 4)).answered.length = 0 := by
    decide +kernel
  refine ⟨by decide +kernel, ?_⟩
  have hsplit : sampleSource ++ sampleDelivery 0 =
      sampleSource ++ (sampleDelivery 0).take 4 ++ [.answer 0, .acknowledge 0] := rfl
  rw [hsplit, sampleWorld_append, List.foldl_cons, List.foldl_cons, List.foldl_nil]
  refine nonces_unique_unreplayed (fun _ _ _ _ h => Prod.mk.inj h)
    (.step (.step hbefore (.answer 0) trivial ?_) (.acknowledge 0) trivial trivial)
  intro session _ a ha
  rw [List.eq_nil_of_length_eq_zero hfirst] at ha
  cases ha

/-- **An answered open comes back**, and its second receipt says `duplicate`: it
is sealed with the nonce of the first. -/
theorem replayed_open_reuses_nonce :
    Function.Injective2 sampleCrypto.hkdf ∧
      ¬ ∀ w, Run receiptPlatform sampleCrypto sampleTarget (fun _ _ => True) w →
        NonceUnique w.log := by
  refine ⟨fun _ _ _ _ h => Prod.mk.inj h, fun hunique => ?_⟩
  have hrun : Run receiptPlatform sampleCrypto sampleTarget (fun _ _ => True)
      (sampleWorld (sampleSource ++ sampleDelivery 0 ++ sampleDelivery 1)) := by
    rw [List.append_assoc]
    refine sample_run (fun _ => trivial) ?_
    simp [sampleSource, sampleDelivery, FreshUuid]
  have hreused : ¬ NonceUnique
      (sampleWorld (sampleSource ++ sampleDelivery 0 ++ sampleDelivery 1)).log := by decide +kernel
  exact hreused (hunique _ hrun)

end Transit
