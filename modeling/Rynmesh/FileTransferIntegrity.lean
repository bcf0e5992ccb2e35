import Rynmesh.FileTransfer
import Mathlib.Logic.Relation

/-!
# Integrity of the stored files

* `Described` says that a checkpoint describes the bytes that are stored: the
  start of the partial file, and the whole of it, at its destination, once the
  transfer is complete;
* `Rested` says that nothing else is in a partial file that no session writes;
* `SessionOk` is what a session knows about its own transfer, and `Sound` puts
  them together;
* `Sound.update` is the frame: a call touches the one transfer it has claimed;
* `Sound.step` and `Reachable.sound` carry it along every run.
-/

namespace Transit

open Checked

variable {p : Platform} {inbox inbox' : Inbox}

/-! ### The invariant -/

/-- **A checkpoint describes what is stored.** -/
structure Described (p : Platform) (inbox : Inbox) (slug : String) (c : Checkpoint) : Prop where
  bound : c.verifiedOffset ≤ c.size
  segments : ∀ r ∈ c.segments, r.endOffset ≤ c.verifiedOffset
  incomplete : c.status = .incomplete → c.verifiedOffset < c.size ∧
    ∃ content, inbox.parts slug = some content ∧ c.verifiedOffset ≤ content.length ∧
      p.sha256 (content.take c.verifiedOffset) = c.prefixSha256
  complete : c.status = .complete → inbox.parts slug = none ∧ c.verifiedOffset = c.size ∧
    ∃ content, inbox.files (destinationOf slug c.filename) = some content ∧
      content.length = c.size ∧ p.sha256 content = c.prefixSha256 ∧ c.sha256 = c.prefixSha256

/-- The partial file is exactly what its checkpoint has verified. -/
def Rested (inbox : Inbox) (slug : String) : Prop :=
  match inbox.checkpoints slug with
  | none => inbox.parts slug = none
  | some c => ∀ content, inbox.parts slug = some content → content.length = c.verifiedOffset

variable {slug : String}

theorem rested_of (hnone : inbox.checkpoints slug = none → inbox.parts slug = none)
    (hsome : ∀ c content, inbox.checkpoints slug = some c → inbox.parts slug = some content →
      content.length = c.verifiedOffset) : Rested inbox slug := by
  unfold Rested
  split
  · next h => exact hnone h
  · next c h => exact fun content hcontent => hsome c content h hcontent

/-- The offset a transfer is verified up to. -/
def Inbox.verified (inbox : Inbox) (slug : String) : Nat :=
  match inbox.checkpoints slug with
  | none => 0
  | some c => c.verifiedOffset

/-- The session may write the partial file of a transfer. -/
def Session.Writes (session : Session) (slug : String) : Prop :=
  session.sink.claimed = some slug ∧ session.sink.finished = false ∧
    ∃ loaded, session.sink.loaded = some loaded ∧ loaded.duplicate = false

/-- What a session that writes knows. -/
structure Writing (p : Platform) (inbox : Inbox) (session : Session) (loaded : Loaded) :
    Prop where
  offset : loaded.verifiedOffset = loaded.manifest.offset
  current : loaded.verifiedOffset = inbox.verified loaded.slug
  unfinished : ∀ c, inbox.checkpoints loaded.slug = some c → c.status = .incomplete
  stored : ∃ content, inbox.parts loaded.slug = some content ∧
    loaded.verifiedOffset ≤ content.length
  receiving : session.phase = .receiving →
    loaded.state.size = loaded.manifest.size ∧ loaded.state.filename = loaded.manifest.filename ∧
    loaded.state.sha256 = loaded.manifest.sha256 ∧
    (∀ r ∈ loaded.state.segments, r.endOffset ≤ loaded.verifiedOffset) ∧
    session.sink.segmentReceived = session.sink.segmentDigest.length ∧
    ∃ kept, inbox.parts loaded.slug = some (kept ++ session.sink.segmentDigest) ∧
      kept.length = loaded.verifiedOffset ∧
      loaded.handle = some (kept ++ session.sink.segmentDigest).length

/-- What a session knows about its transfer. -/
structure SessionOk (p : Platform) (inbox : Inbox) (session : Session) : Prop where
  active : ∀ slug, session.sink.claimed = some slug → inbox.active slug = true
  closed : session.phase = .closed → session.sink.claimed = none
  finished : session.phase = .finished → session.sink.finished = true
  unfinished : session.phase = .receiving ∨ session.phase = .raised →
    session.sink.finished = false
  unloaded : session.phase = .receiving → session.sink.loaded = none →
    session.sink.claimed = none ∧ session.sink.segmentReceived = 0 ∧
      session.sink.segmentDigest = []
  claimed : ∀ loaded, session.sink.loaded = some loaded → session.phase ≠ .closed →
    session.sink.claimed = some loaded.slug
  duplicate : ∀ loaded, session.sink.loaded = some loaded → loaded.duplicate = true →
    loaded.handle = none
  final : ∀ loaded, session.sink.loaded = some loaded → session.phase ≠ .closed →
    loaded.duplicate = true ∨ session.sink.finished = true → loaded.manifest.final = true →
    ∀ c, inbox.checkpoints loaded.slug = some c → c.status = .complete
  writing : ∀ loaded, session.sink.loaded = some loaded → session.phase ≠ .closed →
    session.sink.finished = false → loaded.duplicate = false → Writing p inbox session loaded

/-- **The invariant of the inbox and its sessions.** -/
structure Sound (p : Platform) (server : Server) : Prop where
  described : ∀ slug c, server.inbox.checkpoints slug = some c →
    Described p server.inbox slug c
  rested : ∀ slug, (∀ id session, server.sessions id = some session → ¬ session.Writes slug) →
    Rested server.inbox slug
  sessions : ∀ id session, server.sessions id = some session →
    SessionOk p server.inbox session
  exclusive : ∀ id id' session session' slug, server.sessions id = some session →
    server.sessions id' = some session' → session.sink.claimed = some slug →
    session'.sink.claimed = some slug → id = id'

/-! ### The frame -/

/-- Only one transfer is touched, and stored files stay. -/
structure Touches (slug : Option String) (inbox inbox' : Inbox) : Prop where
  parts : ∀ k, slug ≠ some k → inbox'.parts k = inbox.parts k
  checkpoints : ∀ k, slug ≠ some k → inbox'.checkpoints k = inbox.checkpoints k
  active : ∀ k, slug ≠ some k → inbox'.active k = inbox.active k
  files : ∀ name content, inbox.files name = some content → inbox'.files name = some content

theorem Touches.refl (slug : Option String) (inbox : Inbox) : Touches slug inbox inbox :=
  ⟨fun _ _ => rfl, fun _ _ => rfl, fun _ _ => rfl, fun _ _ h => h⟩

theorem Touches.trans {slug : Option String} {inbox'' : Inbox} (h : Touches slug inbox inbox')
    (h' : Touches slug inbox' inbox'') : Touches slug inbox inbox'' where
  parts k hk := (h'.parts k hk).trans (h.parts k hk)
  checkpoints k hk := (h'.checkpoints k hk).trans (h.checkpoints k hk)
  active k hk := (h'.active k hk).trans (h.active k hk)
  files name content hname := h'.files name content (h.files name content hname)

theorem update_other {α : Type} {f : String → α} {k : String} {v : α} (h : some slug ≠ some k) :
    Function.update f slug v k = f k :=
  Function.update_of_ne (fun hk => h (congrArg some hk.symm)) ..

theorem Touches.setPart (inbox : Inbox) (slug : String) (part : Option Bytes) :
    Touches (some slug) inbox (inbox.setPart slug part) :=
  ⟨fun _ hk => update_other hk, fun _ _ => rfl, fun _ _ => rfl, fun _ _ h => h⟩

theorem Touches.setCheckpoint (inbox : Inbox) (slug : String) (c : Option Checkpoint) :
    Touches (some slug) inbox (inbox.setCheckpoint slug c) :=
  ⟨fun _ _ => rfl, fun _ hk => update_other hk, fun _ _ => rfl, fun _ _ h => h⟩

theorem Touches.claim (inbox : Inbox) (slug : String) :
    Touches (some slug) inbox (inbox.claim slug) :=
  ⟨fun _ _ => rfl, fun _ _ => rfl, fun _ hk => update_other hk, fun _ _ h => h⟩

theorem Touches.release (inbox : Inbox) (slug : String) :
    Touches (some slug) inbox (inbox.release slug) :=
  ⟨fun _ _ => rfl, fun _ _ => rfl, fun _ hk => update_other hk, fun _ _ h => h⟩

theorem Touches.store {slug : Option String} {destination : String}
    (hnew : inbox.files destination = none) (content : Bytes) :
    Touches slug inbox (inbox.store destination content) := by
  refine ⟨fun _ _ => rfl, fun _ _ => rfl, fun _ _ => rfl, fun name stored hname => ?_⟩
  have hne : name ≠ destination := by
    intro heq
    rw [heq, hnew] at hname
    cases hname
  exact (Function.update_of_ne hne ..).trans hname

variable {c : Checkpoint}

theorem Described.frame (h : Described p inbox slug c)
    (hparts : inbox'.parts slug = inbox.parts slug)
    (hfiles : ∀ name content, inbox.files name = some content →
      inbox'.files name = some content) : Described p inbox' slug c where
  bound := h.bound
  segments := h.segments
  incomplete hstatus := by
    rw [hparts]
    exact h.incomplete hstatus
  complete hstatus := by
    obtain ⟨hpart, hverified, content, hcontent, hrest⟩ := h.complete hstatus
    exact ⟨hparts.trans hpart, hverified, content, hfiles _ _ hcontent, hrest⟩

variable {session : Session}

theorem SessionOk.frame (h : SessionOk p inbox session) {slug : Option String}
    (htouches : Touches slug inbox inbox')
    (hother : ∀ k, session.sink.claimed = some k → slug ≠ some k) : SessionOk p inbox' session where
  active k hk := (htouches.active k (hother k hk)).trans (h.active k hk)
  closed := h.closed
  finished := h.finished
  unfinished := h.unfinished
  unloaded := h.unloaded
  claimed := h.claimed
  duplicate := h.duplicate
  final loaded hloaded hopen hdone hfinal := by
    have hk := hother _ (h.claimed loaded hloaded hopen)
    rw [htouches.checkpoints _ hk]
    exact h.final loaded hloaded hopen hdone hfinal
  writing loaded hloaded hopen hfinished hduplicate := by
    have hk := hother _ (h.claimed loaded hloaded hopen)
    obtain ⟨hoffset, hcurrent, hunfinished, hstored, hreceiving⟩ :=
      h.writing loaded hloaded hopen hfinished hduplicate
    refine ⟨hoffset, ?_, ?_, ?_, ?_⟩
    · rw [Inbox.verified, htouches.checkpoints _ hk]
      exact hcurrent
    · rw [htouches.checkpoints _ hk]
      exact hunfinished
    · rw [htouches.parts _ hk]
      exact hstored
    · rw [htouches.parts _ hk]
      exact hreceiving

variable {server : Server}

/-- **A call on one transfer keeps the invariant** when it keeps it there. -/
theorem Sound.update (h : Sound p server) {id : Nat} (slug : Option String)
    (htouches : Touches slug server.inbox inbox')
    (hprevious : ∀ session k, server.sessions id = some session →
      session.sink.claimed = some k → slug = some k)
    (halone : ∀ k, slug = some k → ∀ id' session', id' ≠ id →
      server.sessions id' = some session' → session'.sink.claimed ≠ some k)
    (hclaimed : ∀ k, session.sink.claimed = some k → slug = some k)
    (hsession : SessionOk p inbox' session)
    (hdescribed : ∀ k, slug = some k → ∀ c, inbox'.checkpoints k = some c →
      Described p inbox' k c)
    (hrested : ∀ k, slug = some k → ¬ session.Writes k → Rested inbox' k) :
    Sound p (server.set inbox' id session) := by
  have hself : (server.set inbox' id session).sessions id = some session :=
    Function.update_self ..
  have hrest : ∀ id', id' ≠ id →
      (server.set inbox' id session).sessions id' = server.sessions id' :=
    fun id' hne => Function.update_of_ne hne ..
  refine ⟨fun k c hc => ?_, fun k hnone => ?_, fun id' session' hsession' => ?_, ?_⟩
  · by_cases hk : slug = some k
    · exact hdescribed k hk c hc
    · refine (h.described k c ?_).frame (htouches.parts k hk) htouches.files
      rw [← htouches.checkpoints k hk]
      exact hc
  · by_cases hk : slug = some k
    · exact hrested k hk (hnone id session hself)
    have hold : Rested server.inbox k := by
      refine h.rested k fun id' session' hsession' hwrites => ?_
      by_cases hid : id' = id
      · subst hid
        exact hk (hprevious session' k hsession' hwrites.1)
      · exact hnone id' session' ((hrest id' hid).trans hsession') hwrites
    show match inbox'.checkpoints k with
      | none => inbox'.parts k = none
      | some c => ∀ content, inbox'.parts k = some content → content.length = c.verifiedOffset
    rw [htouches.checkpoints k hk, htouches.parts k hk]
    exact hold
  · by_cases hid : id' = id
    · subst hid
      obtain rfl := Option.mem_unique hself hsession'
      exact hsession
    · rw [hrest id' hid] at hsession'
      exact (h.sessions id' session' hsession').frame htouches fun k hk hslug =>
        halone k hslug id' session' hid hsession' hk
  · intro id₁ id₂ session₁ session₂ k h₁ h₂ hk₁ hk₂
    by_cases hid₁ : id₁ = id
    · by_cases hid₂ : id₂ = id
      · rw [hid₁, hid₂]
      · subst hid₁
        obtain rfl := Option.mem_unique hself h₁
        rw [hrest id₂ hid₂] at h₂
        exact absurd hk₂ (halone k (hclaimed k hk₁) id₂ session₂ hid₂ h₂)
    · rw [hrest id₁ hid₁] at h₁
      by_cases hid₂ : id₂ = id
      · subst hid₂
        obtain rfl := Option.mem_unique hself h₂
        exact absurd hk₁ (halone k (hclaimed k hk₂) id₁ session₁ hid₁ h₁)
      · rw [hrest id₂ hid₂] at h₂
        exact h.exclusive id₁ id₂ session₁ session₂ k h₁ h₂ hk₁ hk₂

/-! ### Loading a manifest -/

variable {m : Manifest} {state : Checkpoint}

theorem resumeState_ok {sourcePeerId : String}
    (h : resumeState p inbox sourcePeerId slug m = .ok state) :
    state.size = m.size ∧ state.filename = m.filename ∧ state.sha256 = m.sha256 ∧
      (inbox.checkpoints slug = some state ∨
        inbox.checkpoints slug = none ∧ state.segments = [] ∧
          ((inbox.files (destinationOf slug m.filename)).isSome ∧ state.status = .complete ∧
              m.final = true ∨
            inbox.files (destinationOf slug m.filename) = none ∧ state.status = .incomplete ∧
              state.verifiedOffset = 0)) := by
  unfold resumeState at h
  split at h
  · next found hfound =>
    simp only [bind_ok, require_ok, pure_ok] at h
    obtain ⟨-, ⟨-, -, hfilename, hsize, hsha⟩, rfl⟩ := h
    exact ⟨hsize, hfilename, hsha, .inl hfound⟩
  · next hnone =>
    split at h
    · next content hcontent =>
      simp only [bind_ok, require_ok, pure_ok] at h
      obtain ⟨-, ⟨hfinal, -, -⟩, rfl⟩ := h
      exact ⟨rfl, rfl, rfl, .inr ⟨hnone, rfl, .inl ⟨by rw [hcontent]; rfl, rfl, hfinal⟩⟩⟩
    · next hcontent =>
      obtain rfl := pure_ok.mp h
      exact ⟨rfl, rfl, rfl, .inr ⟨hnone, rfl, .inr ⟨hcontent, rfl, rfl⟩⟩⟩

theorem isDuplicate_true (h : isDuplicate state m = .ok true) :
    state.confirms m = true ∨ state.status = .complete := by
  simp only [isDuplicate, bind_ok, require_ok] at h
  obtain ⟨-, -, h⟩ := h
  split at h
  · simp only [bind_ok, require_ok] at h
    obtain ⟨-, hwhich, -⟩ := h
    exact hwhich.imp id And.left
  · have hstatus := pure_ok.mp h
    exact .inr (of_decide_eq_true hstatus)

theorem isDuplicate_false (h : isDuplicate state m = .ok false) :
    m.offset = state.verifiedOffset ∧ state.status = .incomplete := by
  simp only [isDuplicate, bind_ok, require_ok] at h
  obtain ⟨-, -, h⟩ := h
  split at h
  · simp only [bind_ok, pure_ok] at h
    obtain ⟨-, -, hfalse⟩ := h
    cases hfalse
  · next hoffset =>
    have hstatus := of_decide_eq_false (pure_ok.mp h)
    refine ⟨not_not.mp hoffset, ?_⟩
    cases hcase : state.status with
    | incomplete => rfl
    | complete => exact absurd hcase hstatus

variable {content : Bytes}

theorem openPart_ok {verifiedOffset : Nat} (h : openPart inbox slug verifiedOffset = .ok content) :
    content.length = verifiedOffset ∧
      content = ((inbox.parts slug).getD []).take verifiedOffset := by
  unfold openPart at h
  split at h
  · next stored hstored =>
    simp only [bind_ok, require_ok, pure_ok] at h
    obtain ⟨-, hle, rfl⟩ := h
    rw [hstored]
    exact ⟨List.length_take_of_le hle, rfl⟩
  · next hnone =>
    simp only [bind_ok, require_ok, pure_ok] at h
    obtain ⟨-, rfl, rfl⟩ := h
    exact ⟨rfl, rfl⟩

variable {loaded : Loaded}

/-- **What a session finds when it resumes.** -/
theorem resume_ok {sourcePeerId : String} {part : Option Bytes}
    (h : resume p inbox sourcePeerId slug m = .ok (loaded, part)) :
    loaded.manifest = m ∧ loaded.slug = slug ∧
      resumeState p inbox sourcePeerId slug m = .ok loaded.state ∧
      loaded.verifiedOffset = loaded.state.verifiedOffset ∧
      (part = none ∧ loaded.duplicate = true ∧ loaded.handle = none ∧
          isDuplicate loaded.state m = .ok true ∨
        ∃ content, part = some content ∧ loaded.duplicate = false ∧
          loaded.handle = some loaded.verifiedOffset ∧
          isDuplicate loaded.state m = .ok false ∧
          openPart inbox slug loaded.verifiedOffset = .ok content) := by
  simp only [resume, bind_ok] at h
  obtain ⟨state, hstate, duplicate, hduplicate, h⟩ := h
  cases duplicate with
  | true =>
    obtain ⟨rfl, rfl⟩ := Prod.mk.inj (pure_ok.mp h)
    exact ⟨rfl, rfl, hstate, rfl, .inl ⟨rfl, rfl, rfl, hduplicate⟩⟩
  | false =>
    simp only [Bool.false_eq_true, if_false, bind_ok, pure_ok] at h
    obtain ⟨content, hcontent, h⟩ := h
    obtain ⟨rfl, rfl⟩ := Prod.mk.inj h
    exact ⟨rfl, rfl, hstate, rfl, .inr ⟨content, rfl, rfl, rfl, hduplicate, hcontent⟩⟩

/-- **What loading a manifest does.** -/
inductive Loads (p : Platform) (inbox : Inbox) (sink : Sink) (body : Bytes) :
    Except Failure Unit → Inbox → Sink → Prop
  | refused (e : Failure) : Loads p inbox sink body (.error e) inbox sink
  | conflicts {m : Manifest} (e : Failure) (read : readManifest p body = .ok m)
      (free : inbox.active (p.resumeSlug sink.sourcePeerId m.transferId) = false) :
      Loads p inbox sink body (.error e)
        (inbox.claim (p.resumeSlug sink.sourcePeerId m.transferId))
        { sink with claimed := some (p.resumeSlug sink.sourcePeerId m.transferId) }
  | repeats {m : Manifest} {loaded : Loaded} (read : readManifest p body = .ok m)
      (free : inbox.active (p.resumeSlug sink.sourcePeerId m.transferId) = false)
      (resumes : resume p (inbox.claim (p.resumeSlug sink.sourcePeerId m.transferId))
        sink.sourcePeerId (p.resumeSlug sink.sourcePeerId m.transferId) m = .ok (loaded, none)) :
      Loads p inbox sink body (.ok ())
        (inbox.claim (p.resumeSlug sink.sourcePeerId m.transferId))
        { sink with
          claimed := some (p.resumeSlug sink.sourcePeerId m.transferId)
          loaded := some loaded }
  | opens {m : Manifest} {loaded : Loaded} {content : Bytes} (read : readManifest p body = .ok m)
      (free : inbox.active (p.resumeSlug sink.sourcePeerId m.transferId) = false)
      (resumes : resume p (inbox.claim (p.resumeSlug sink.sourcePeerId m.transferId))
        sink.sourcePeerId (p.resumeSlug sink.sourcePeerId m.transferId) m =
          .ok (loaded, some content)) :
      Loads p inbox sink body (.ok ())
        ((inbox.claim (p.resumeSlug sink.sourcePeerId m.transferId)).setPart
          (p.resumeSlug sink.sourcePeerId m.transferId) (some content))
        { sink with
          claimed := some (p.resumeSlug sink.sourcePeerId m.transferId)
          loaded := some loaded }

theorem loadManifest_loads (p : Platform) (inbox : Inbox) (sink : Sink) (body : Bytes) :
    Loads p inbox sink body (loadManifest p inbox sink body).1
      (loadManifest p inbox sink body).2.1 (loadManifest p inbox sink body).2.2 := by
  unfold loadManifest
  split
  · next e hread => exact .refused e
  rename_i m hread
  dsimp only
  split
  · exact .refused _
  rename_i hactive
  have hfree := Bool.eq_false_iff.mpr hactive
  split
  · next e hresume => exact .conflicts e hread hfree
  · next loaded hresume => exact .repeats hread hfree hresume
  · next loaded content hresume => exact .opens hread hfree hresume

/-! ### Calls that leave the inbox alone -/

variable {sink : Sink}

variable {phase : Phase}

section

variable {server : Server} {id : Nat}

theorem Sound.alone (h : Sound p server) (hfound : server.sessions id = some session) {k : String}
    (hk : session.sink.claimed = some k) (id' : Nat) (session' : Session) (hne : id' ≠ id)
    (hfound' : server.sessions id' = some session') : session'.sink.claimed ≠ some k :=
  fun hk' => hne (h.exclusive id' id session' session k hfound' hfound hk' hk)

theorem Sound.at_rest (h : Sound p server) (hfound : server.sessions id = some session) {k : String}
    (hk : session.sink.claimed = some k) (hwrites : ¬ session.Writes k) :
    Rested server.inbox k := by
  refine h.rested k fun id' session' hfound' hwrites' => ?_
  by_cases hid : id' = id
  · subst hid
    obtain rfl := Option.mem_unique hfound hfound'
    exact hwrites hwrites'
  · exact h.alone hfound hk id' session' hid hfound' hwrites'.1

theorem Sound.quiet (h : Sound p server) {session' : Session}
    (hfound : server.sessions id = some session)
    (hclaimed : session'.sink.claimed = session.sink.claimed)
    (hok : SessionOk p server.inbox session')
    (hwrites : ∀ k, session.Writes k → session'.Writes k) :
    Sound p (server.set server.inbox id session') := by
  refine h.update session.sink.claimed (.refl ..) ?_ (fun k hk => h.alone hfound hk) ?_ hok
    (fun k _ => h.described k) fun k hk hnot => h.at_rest hfound hk fun hw => hnot (hwrites k hw)
  · intro previous k hprevious hk
    obtain rfl := Option.mem_unique hfound hprevious
    exact hk
  · intro k hk
    rw [← hclaimed]
    exact hk

theorem Sound.own (h : Sound p server) {session' : Session} {k : String}
    (hfound : server.sessions id = some session)
    (hk : ∀ slug, session.sink.claimed = some slug → k = slug)
    (halone : ∀ id' session', id' ≠ id → server.sessions id' = some session' →
      session'.sink.claimed ≠ some k)
    (hclaimed : session'.sink.claimed = some k) (htouches : Touches (some k) server.inbox inbox')
    (hok : SessionOk p inbox' session')
    (hdescribed : ∀ c, inbox'.checkpoints k = some c → Described p inbox' k c)
    (hrested : ¬ session'.Writes k → Rested inbox' k) :
    Sound p (server.set inbox' id session') := by
  refine h.update (some k) htouches ?_ ?_ (fun _ hs => hclaimed.symm.trans hs) hok ?_ ?_
  · intro previous slug hprevious hslug
    obtain rfl := Option.mem_unique hfound hprevious
    exact congrArg some (hk slug hslug)
  · rintro _ ⟨⟩
    exact halone
  · rintro _ ⟨⟩
    exact hdescribed
  · rintro _ ⟨⟩
    exact hrested

theorem SessionOk.holding (hphase : phase = .receiving ∨ phase = .raised)
    (hloaded : sink.loaded = some loaded) (hclaimed : sink.claimed = some loaded.slug)
    (hactive : ∀ k, sink.claimed = some k → inbox.active k = true)
    (hfinished : sink.finished = false)
    (hrepeats : loaded.duplicate = true → loaded.handle = none ∧
      (loaded.manifest.final = true →
        ∀ c, inbox.checkpoints loaded.slug = some c → c.status = .complete))
    (hwrites : loaded.duplicate = false → Writing p inbox ⟨sink, phase⟩ loaded) :
    SessionOk p inbox ⟨sink, phase⟩ := by
  have hthis : ∀ {l}, sink.loaded = some l → l = loaded :=
    fun hl => Option.mem_unique hl hloaded
  refine ⟨hactive, ?_, ?_, fun _ => hfinished, ?_, ?_, ?_, ?_, ?_⟩
  · rcases hphase with rfl | rfl <;> rintro ⟨⟩
  · rcases hphase with rfl | rfl <;> rintro ⟨⟩
  · intro _ hnone
    rw [show sink.loaded = none from hnone] at hloaded
    cases hloaded
  · intro l hl _
    exact hthis hl ▸ hclaimed
  · intro l hl hduplicate
    obtain rfl := hthis hl
    exact (hrepeats hduplicate).1
  · intro l hl _ hdone
    obtain rfl := hthis hl
    refine (hrepeats (hdone.resolve_right ?_)).2
    rw [show sink.finished = false from hfinished]
    exact Bool.false_ne_true
  · intro l hl _ _ hduplicate
    obtain rfl := hthis hl
    exact hwrites hduplicate

/-- The same transfer, as far as an abort can tell. -/
structure SameTransfer (loaded loaded' : Loaded) : Prop where
  manifest : loaded'.manifest = loaded.manifest
  slug : loaded'.slug = loaded.slug
  verifiedOffset : loaded'.verifiedOffset = loaded.verifiedOffset
  duplicate : loaded'.duplicate = loaded.duplicate
  handle : loaded.handle = none → loaded'.handle = none

theorem SameTransfer.refl (loaded : Loaded) : SameTransfer loaded loaded :=
  ⟨rfl, rfl, rfl, rfl, id⟩

theorem SessionOk.raise {sink' : Sink} (h : SessionOk p inbox ⟨sink, .receiving⟩)
    (hclaimed : sink'.claimed = sink.claimed) (hfinished : sink'.finished = sink.finished)
    (hloaded : ∀ loaded', sink'.loaded = some loaded' →
      ∃ loaded, sink.loaded = some loaded ∧ SameTransfer loaded loaded') :
    SessionOk p inbox ⟨sink', .raised⟩ where
  active k hk := h.active k (hclaimed ▸ hk)
  closed hphase := by cases hphase
  finished hphase := by cases hphase
  unfinished _ := hfinished.trans (h.unfinished (.inl rfl))
  unloaded hphase := by cases hphase
  claimed loaded' hl _ := by
    obtain ⟨loaded, hl, hsame⟩ := hloaded loaded' hl
    rw [hsame.slug, ← h.claimed loaded hl (by simp)]
    exact hclaimed
  duplicate loaded' hl hduplicate := by
    obtain ⟨loaded, hl, hsame⟩ := hloaded loaded' hl
    exact hsame.handle (h.duplicate loaded hl (hsame.duplicate ▸ hduplicate))
  final loaded' hl _ hdone hfinal := by
    obtain ⟨loaded, hl, hsame⟩ := hloaded loaded' hl
    rw [hsame.slug]
    refine h.final loaded hl (by simp) ?_ (hsame.manifest ▸ hfinal)
    exact hdone.imp (fun hd => hsame.duplicate ▸ hd) fun hf => hfinished ▸ hf
  writing loaded' hl _ _ hduplicate := by
    obtain ⟨loaded, hl, hsame⟩ := hloaded loaded' hl
    obtain ⟨hoffset, hcurrent, hunfinished, hstored, -⟩ :=
      h.writing loaded hl (by simp) (h.unfinished (.inl rfl)) (hsame.duplicate ▸ hduplicate)
    refine ⟨?_, ?_, ?_, ?_, nofun⟩
    · rw [hsame.verifiedOffset, hsame.manifest]
      exact hoffset
    · rw [hsame.verifiedOffset, hsame.slug]
      exact hcurrent
    · rw [hsame.slug]
      exact hunfinished
    · rw [hsame.verifiedOffset, hsame.slug]
      exact hstored

theorem SessionOk.raise_same (h : SessionOk p inbox ⟨sink, .receiving⟩) :
    SessionOk p inbox ⟨sink, .raised⟩ :=
  h.raise rfl rfl fun loaded hl => ⟨loaded, hl, .refl loaded⟩

theorem Sound.raise (h : Sound p server) (hfound : server.sessions id = some ⟨sink, .receiving⟩) :
    Sound p (server.set server.inbox id ⟨sink, .raised⟩) :=
  h.quiet hfound rfl (h.sessions id _ hfound).raise_same fun _ hw => hw

/-! ### Calls that load -/

/-- The record a segment is confirmed by ends within the verified bytes, so the
segment is not the last one of an incomplete transfer. -/
theorem Described.not_confirms (h : Described p inbox slug c) (hsize : c.size = m.size)
    (hstatus : c.status = .incomplete) (hfinal : m.final = true) : c.confirms m = false := by
  rw [Checkpoint.confirms, List.any_eq_false]
  intro r hr hmatch
  simp only [Bool.and_eq_true, decide_eq_true_eq] at hmatch
  obtain ⟨⟨⟨-, hsegment⟩, -⟩, -⟩ := hmatch
  have hend := h.segments r hr
  have hlt := (h.incomplete hstatus).1
  have hwhole := m.final_iff.mp hfinal
  unfold Manifest.endOffset at hsegment
  omega

/-- Cutting a partial file to its verified bytes keeps the checkpoint's description. -/
theorem Described.cut (h : Described p inbox slug c) (hstatus : c.status = .incomplete)
    (hlength : content.length = c.verifiedOffset)
    (hcontent : content = ((inbox.parts slug).getD []).take c.verifiedOffset)
    (hpart : inbox'.parts slug = some content) : Described p inbox' slug c := by
  refine ⟨h.bound, h.segments, fun _ => ?_, fun hcomplete => ?_⟩
  · obtain ⟨hlt, stored, hstored, hle, hsha⟩ := h.incomplete hstatus
    refine ⟨hlt, content, hpart, by omega, ?_⟩
    rw [hstored, Option.getD_some] at hcontent
    rw [hcontent, List.take_take, min_self]
    exact hsha
  · rw [hstatus] at hcomplete
    cases hcomplete

theorem writing_opened (hm : loaded.manifest = m) (hslug : loaded.slug = slug)
    (hverified : loaded.verifiedOffset = loaded.state.verifiedOffset)
    (hlength : content.length = loaded.verifiedOffset)
    (hoffset : m.offset = loaded.state.verifiedOffset) (hstatus : loaded.state.status = .incomplete)
    (hhandle : loaded.handle = some loaded.verifiedOffset) (hsize : loaded.state.size = m.size)
    (hfilename : loaded.state.filename = m.filename) (hsha : loaded.state.sha256 = m.sha256)
    (hwhere : server.inbox.checkpoints slug = some loaded.state ∨
      server.inbox.checkpoints slug = none ∧ loaded.state.segments = [] ∧
        loaded.state.verifiedOffset = 0)
    (hdescribed : ∀ c, server.inbox.checkpoints slug = some c → Described p server.inbox slug c)
    (hreceived : sink.segmentReceived = 0) (hdigest : sink.segmentDigest = []) :
    Writing p ((server.inbox.claim slug).setPart slug (some content))
      ⟨{ sink with claimed := some slug, loaded := some loaded }, .receiving⟩ loaded := by
  subst hslug hm
  have hpart : ((server.inbox.claim loaded.slug).setPart loaded.slug (some content)).parts
      loaded.slug = some content := Function.update_self ..
  refine ⟨hverified.trans hoffset.symm, ?_, ?_, ⟨content, hpart, hlength.ge⟩, fun _ => ?_⟩
  · show loaded.verifiedOffset = server.inbox.verified loaded.slug
    unfold Inbox.verified
    rcases hwhere with hfound | ⟨hnone, -, hzero⟩
    · rw [hfound]
      exact hverified
    · rw [hnone]
      exact hverified.trans hzero
  · intro c hc
    rcases hwhere with hfound | ⟨hnone, -⟩
    · obtain rfl := Option.mem_unique hfound hc
      exact hstatus
    · exact absurd (hnone.symm.trans hc) (by simp)
  · refine ⟨hsize, hfilename, hsha, ?_, ?_, content, ?_, hlength, ?_⟩
    · intro r hr
      rcases hwhere with hfound | ⟨-, hnil, -⟩
      · exact hverified ▸ (hdescribed _ hfound).segments r hr
      · rw [hnil] at hr
        cases hr
    · show sink.segmentReceived = sink.segmentDigest.length
      rw [hreceived, hdigest]
      rfl
    · show _ = some (content ++ sink.segmentDigest)
      rw [hdigest, List.append_nil]
      exact hpart
    · show loaded.handle = some (content ++ sink.segmentDigest).length
      rw [hdigest, List.append_nil, hlength]
      exact hhandle

theorem Sound.load (h : Sound p server) (hfound : server.sessions id = some ⟨sink, .receiving⟩)
    (hunloaded : sink.loaded = none) {body : Bytes} {result : Except Failure Unit} {inbox' : Inbox}
    {sink' : Sink} (hloads : Loads p server.inbox sink body result inbox' sink') :
    Sound p (server.set inbox' id ⟨sink', phaseAfter result .receiving⟩) := by
  have hsession := h.sessions id _ hfound
  obtain ⟨hunclaimed, hreceived, hdigest⟩ := hsession.unloaded rfl hunloaded
  have hunfinished := hsession.unfinished (.inl rfl)
  have hprevious : ∀ k slug, sink.claimed = some slug → k = slug := by
    intro k slug hslug
    rw [show sink.claimed = none from hunclaimed] at hslug
    cases hslug
  have halone : ∀ k, server.inbox.active k = false → ∀ id' session', id' ≠ id →
      server.sessions id' = some session' → session'.sink.claimed ≠ some k := by
    intro k hfree id' session' _ hfound' hk
    rw [(h.sessions id' session' hfound').active k hk] at hfree
    cases hfree
  have hrested : ∀ k, server.inbox.active k = false → Rested server.inbox k := by
    intro k hfree
    refine h.rested k fun id' session' hfound' hwrites => ?_
    rw [(h.sessions id' session' hfound').active k hwrites.1] at hfree
    cases hfree
  have hclaim : ∀ {k : String} {inbox' : Inbox}, inbox'.active = (server.inbox.claim k).active →
      ∀ slug, some k = some slug → inbox'.active slug = true := by
    rintro k inbox' hactive _ ⟨⟩
    rw [hactive]
    exact Function.update_self ..
  have hdescribed : ∀ k c, server.inbox.checkpoints k = some c →
      Described p (server.inbox.claim k) k c :=
    fun k c hc => (h.described k c hc).frame rfl fun _ _ hf => hf
  cases hloads with
  | refused e => exact h.raise hfound
  | @conflicts m e read free =>
    refine h.own hfound (hprevious _) (halone _ free) rfl (.claim ..) ?_
      (hdescribed _) fun _ => hrested _ free
    refine ⟨hclaim rfl, ?_, ?_, fun _ => hunfinished, ?_, ?_, ?_, ?_, ?_⟩
    · rintro ⟨⟩
    · rintro ⟨⟩
    · rintro ⟨⟩
    all_goals
      intro loaded hloaded
      rw [show sink.loaded = none from hunloaded] at hloaded
      cases hloaded
  | @repeats m loaded read free resumes =>
    obtain ⟨hm, hslug, hstate, hverified, ⟨-, hdup, hhandle, hisdup⟩ | ⟨_, hsome, -⟩⟩ :=
      resume_ok resumes
    · obtain ⟨hsize, hfilename, hsha, hwhere⟩ := resumeState_ok hstate
      refine h.own hfound (hprevious _) (halone _ free) rfl (.claim ..) ?_
        (hdescribed _) fun _ => hrested _ free
      refine .holding (.inl rfl) rfl (by rw [hslug]) (hclaim rfl) hunfinished
        (fun _ => ⟨hhandle, fun hfinal c hc => ?_⟩) fun hnotdup => ?_
      · rw [hslug] at hc
        rcases hwhere with hfound' | ⟨hnone, -⟩
        · obtain rfl := Option.mem_unique hfound' hc
          cases hstatus : loaded.state.status with
          | complete => rfl
          | incomplete =>
            have hnot := (h.described _ _ hc).not_confirms hsize hstatus (hm ▸ hfinal)
            rcases isDuplicate_true hisdup with hconfirms | hcomplete
            · rw [hnot] at hconfirms
              cases hconfirms
            · rw [hstatus] at hcomplete
              cases hcomplete
        · rw [hnone] at hc
          cases hc
      · rw [hdup] at hnotdup
        cases hnotdup
    · cases hsome
  | @opens m loaded content read free resumes =>
    obtain ⟨hm, hslug, hstate, hverified, ⟨hnone, -⟩ | ⟨_, hsome, hdup, hhandle, hisdup, hpart⟩⟩ :=
      resume_ok resumes
    · cases hnone
    · obtain rfl := Option.some.inj hsome
      obtain ⟨hsize, hfilename, hsha, hwhere⟩ := resumeState_ok hstate
      obtain ⟨hlength, hcontent⟩ := openPart_ok hpart
      obtain ⟨hoffset, hstatus⟩ := isDuplicate_false hisdup
      refine h.own hfound (hprevious _) (halone _ free) rfl
        ((Touches.claim ..).trans (.setPart ..)) ?_ ?_
        fun hnot => absurd ⟨rfl, hunfinished, loaded, rfl, hdup⟩ hnot
      · refine .holding (.inl rfl) rfl (by rw [hslug]) (hclaim rfl) hunfinished (fun hd => ?_)
          fun _ => ?_
        · rw [hdup] at hd
          cases hd
        · exact writing_opened hm hslug hverified hlength hoffset hstatus hhandle hsize hfilename
            hsha (hwhere.imp_right fun hw => ⟨hw.1, hw.2.1, hw.2.2.elim
              (fun hd => by rw [hstatus] at hd; cases hd.2.1) fun hd => hd.2.2⟩)
            (fun c hc => h.described _ c hc) hreceived hdigest
      · intro c hc
        have hcheckpoint : loaded.state = c := by
          rcases hwhere with hfound' | ⟨hnone, -⟩
          · exact Option.mem_unique hfound' hc
          · exact absurd (hnone.symm.trans hc) (by simp)
        subst hcheckpoint
        exact (h.described _ _ hc).cut hstatus (hverified ▸ hlength)
          (hverified ▸ hcontent) (Function.update_self ..)

/-! ### Calls that write -/

theorem writeAt_end (content body : Bytes) :
    writeAt content content.length body = content ++ body := by
  simp [writeAt]

/-- An open partial file that grows keeps the description of its checkpoint. -/
theorem Described.grow (h : Described p inbox slug c) (hstatus : c.status = .incomplete)
    {body : Bytes} (hcontent : inbox.parts slug = some content)
    (hpart : inbox'.parts slug = some (content ++ body)) : Described p inbox' slug c := by
  refine ⟨h.bound, h.segments, fun _ => ?_, fun hcomplete => ?_⟩
  · obtain ⟨hlt, stored, hstored, hle, hsha⟩ := h.incomplete hstatus
    obtain rfl := Option.mem_unique hstored hcontent
    refine ⟨hlt, stored ++ body, hpart, by simp; omega, ?_⟩
    rw [List.take_append_of_le_length hle]
    exact hsha
  · rw [hstatus] at hcomplete
    cases hcomplete

theorem Sound.data (h : Sound p server) (hfound : server.sessions id = some ⟨sink, .receiving⟩)
    (hloaded : sink.loaded = some loaded) (body : Bytes) :
    Sound p (server.set (writeData server.inbox sink loaded body).2.1 id
      ⟨(writeData server.inbox sink loaded body).2.2,
        phaseAfter (writeData server.inbox sink loaded body).1 .receiving⟩) := by
  have hsession := h.sessions id _ hfound
  have hunfinished := hsession.unfinished (.inl rfl)
  have hclaimed := hsession.claimed loaded hloaded (by simp)
  unfold writeData
  dsimp only
  split
  · refine h.quiet hfound rfl (hsession.raise rfl rfl fun l hl => ⟨l, hl, .refl l⟩) ?_
    exact fun k hw => hw
  split
  · next hhandle =>
    have hdup : loaded.duplicate = true := by
      by_contra hnot
      obtain ⟨-, -, -, -, hreceiving⟩ :=
        hsession.writing loaded hloaded (by simp) hunfinished (by simpa using hnot)
      obtain ⟨-, -, -, -, -, _, -, -, hsome⟩ := hreceiving rfl
      rw [hhandle] at hsome
      cases hsome
    refine h.quiet hfound rfl ?_ fun k hw => hw
    refine .holding (.inl rfl) hloaded hclaimed hsession.active hunfinished
      (fun _ => ⟨hhandle, hsession.final loaded hloaded (by simp) (.inl hdup)⟩) fun hnotdup => ?_
    rw [hdup] at hnotdup
    cases hnotdup
  · next position hhandle =>
    have hdup : loaded.duplicate = false := by
      by_contra hnot
      have hnone := hsession.duplicate loaded hloaded (by simpa using hnot)
      rw [hhandle] at hnone
      cases hnone
    obtain ⟨hoffset, hcurrent, hincomplete, hstored, hreceiving⟩ :=
      hsession.writing loaded hloaded (by simp) hunfinished hdup
    obtain ⟨hsize, hfilename, hsha, hsegments, hlength, kept, hpart, hkept, hposition⟩ :=
      hreceiving rfl
    obtain rfl := Option.mem_unique hhandle hposition
    rw [show server.inbox.parts loaded.slug = some (kept ++ sink.segmentDigest) from hpart,
      Option.getD_some, writeAt_end]
    set inbox' := server.inbox.setPart loaded.slug
      (some (kept ++ sink.segmentDigest ++ body)) with hinbox
    have hpart' : inbox'.parts loaded.slug = some (kept ++ (sink.segmentDigest ++ body)) := by
      rw [← List.append_assoc]
      exact Function.update_self ..
    refine h.own hfound (fun k hk => Option.mem_unique hclaimed hk)
      (h.alone hfound hclaimed) hclaimed (.setPart ..) ?_ ?_
      fun hnot => absurd ⟨hclaimed, hunfinished, _, rfl, hdup⟩ hnot
    · refine .holding (.inl rfl) rfl hclaimed hsession.active hunfinished (fun hd => ?_)
        fun _ => ?_
      · rw [show loaded.duplicate = true from hd] at hdup
        cases hdup
      · refine ⟨hoffset, hcurrent, hincomplete, ⟨_, hpart', ?_⟩, fun _ => ⟨hsize, hfilename,
          hsha, hsegments, ?_, kept, hpart', hkept, ?_⟩⟩
        · show loaded.verifiedOffset ≤ _
          rw [List.length_append, hkept]
          exact Nat.le_add_right ..
        · simp only [List.length_append]
          exact congrArg (· + body.length) hlength
        · simp [Nat.add_assoc]
    · intro c hc
      exact (h.described _ c hc).grow (hincomplete c hc) hpart
        (hpart'.trans (by rw [List.append_assoc]))

theorem Sound.chunk (h : Sound p server) (hfound : server.sessions id = some ⟨sink, .receiving⟩)
    (chunk : Bytes) :
    Sound p (server.set (write p server.inbox sink chunk).2.1 id
      ⟨(write p server.inbox sink chunk).2.2,
        phaseAfter (write p server.inbox sink chunk).1 .receiving⟩) := by
  unfold write
  split
  · exact h.raise hfound
  rename_i kind body
  split
  · next hunloaded =>
    split
    · exact h.load hfound hunloaded (loadManifest_loads ..)
    · exact h.raise hfound
  · next loaded hloaded =>
    split
    · exact h.data hfound hloaded body
    · exact h.raise hfound

/-! ### Calls that finish -/

theorem described_advance {segmentSha256 : String} (hsize : state.size = m.size)
    (hfilename : state.filename = m.filename) (hsha : state.sha256 = m.sha256)
    (hsegments : ∀ r ∈ state.segments, r.endOffset ≤ m.offset)
    (hlength : content.length = m.endOffset)
    (hincomplete : m.final = false → inbox'.parts slug = some content)
    (hcomplete : m.final = true → inbox'.parts slug = none ∧
      inbox'.files (destinationOf slug m.filename) = some content ∧
      m.sha256 = p.sha256 content) :
    Described p inbox' slug (state.advance m segmentSha256 (p.sha256 content)) := by
  have hfits := m.fits
  refine ⟨?_, ?_, fun hstatus => ?_, fun hstatus => ?_⟩
  · show m.endOffset ≤ state.size
    rw [hsize]
    exact hfits
  · intro r hr
    rcases List.mem_append.mp hr with hr | hr
    · exact le_trans (hsegments r hr) (Nat.le_add_right ..)
    · rw [List.mem_singleton.mp hr]
      rfl
  · have hfinal : m.final = false := by
      cases hcase : m.final with
      | false => rfl
      | true => simp [Checkpoint.advance, hcase] at hstatus
    have hne : m.offset + m.segmentSize ≠ m.size := fun heq => by
      rw [m.final_iff.mpr heq] at hfinal
      cases hfinal
    refine ⟨?_, content, hincomplete hfinal, hlength.ge, ?_⟩
    · show m.endOffset < state.size
      rw [hsize]
      exact lt_of_le_of_ne hfits hne
    · show p.sha256 (content.take m.endOffset) = p.sha256 content
      rw [← hlength, List.take_length]
  · have hfinal : m.final = true := by
      cases hcase : m.final with
      | true => rfl
      | false => simp [Checkpoint.advance, hcase] at hstatus
    obtain ⟨hpart, hfile, hdigest⟩ := hcomplete hfinal
    have hend : m.endOffset = m.size := m.final_iff.mp hfinal
    refine ⟨hpart, hend.trans hsize.symm, content, ?_, ?_, rfl, hsha.trans hdigest⟩
    · show inbox'.files (destinationOf slug state.filename) = some content
      rw [hfilename]
      exact hfile
    · exact (hlength.trans hend).trans hsize.symm

theorem SessionOk.finish (hactive : ∀ k, sink.claimed = some k → inbox.active k = true)
    (hclaimed : sink.claimed = some loaded.slug) (hloaded : sink.loaded = some loaded)
    (hfinished : sink.finished = true) (hhandle : loaded.handle = none)
    (hfinal : loaded.manifest.final = true →
      ∀ c, inbox.checkpoints loaded.slug = some c → c.status = .complete) :
    SessionOk p inbox ⟨sink, .finished⟩ := by
  refine ⟨hactive, ?_, fun _ => hfinished, ?_, ?_, ?_, ?_, ?_, ?_⟩
  · rintro ⟨⟩
  · rintro (⟨⟨⟩⟩ | ⟨⟨⟩⟩)
  · rintro ⟨⟩
  all_goals
    intro l hl
    obtain rfl := Option.mem_unique hloaded hl
  · exact fun _ => hclaimed
  · exact fun _ => hhandle
  · exact fun _ _ => hfinal
  · intro _ hnot
    rw [show sink.finished = false from hnot] at hfinished
    cases hfinished

theorem Sound.committed (h : Sound p server) {sink' : Sink} {loaded' : Loaded}
    (hfound : server.sessions id = some ⟨sink, .receiving⟩)
    (hclaimed : sink.claimed = some loaded.slug)
    (htouches : Touches (some loaded.slug) server.inbox inbox')
    (hactive : inbox'.active = server.inbox.active)
    (hcheckpoint : inbox'.checkpoints loaded.slug = some state)
    (hdescribed : Described p inbox' loaded.slug state)
    (hpart : ∀ content, inbox'.parts loaded.slug = some content →
      content.length = state.verifiedOffset)
    (hstatus : loaded.manifest.final = true → state.status = .complete)
    (hclaimed' : sink'.claimed = sink.claimed) (hloaded' : sink'.loaded = some loaded')
    (hfinished' : sink'.finished = true) (htransfer : SameTransfer loaded loaded')
    (hhandle : loaded'.handle = none) : Sound p (server.set inbox' id ⟨sink', .finished⟩) := by
  have hslug := hclaimed'.trans hclaimed
  refine h.own hfound (fun k hk => Option.mem_unique hclaimed hk)
    (h.alone hfound hclaimed) hslug htouches ?_ (fun c hc => ?_) fun _ => ?_
  · refine .finish ?_ (htransfer.slug ▸ hslug) hloaded' hfinished' hhandle ?_
    · intro k hk
      rw [hactive]
      exact (h.sessions id _ hfound).active k (hclaimed' ▸ hk)
    · intro hfinal c hc
      rw [htransfer.slug, hcheckpoint] at hc
      obtain rfl := Option.some.inj hc
      exact hstatus (htransfer.manifest ▸ hfinal)
  · obtain rfl := Option.mem_unique hcheckpoint hc
    exact hdescribed
  · unfold Rested
    rw [hcheckpoint]
    exact hpart

theorem Sound.commit (h : Sound p server) (hfound : server.sessions id = some ⟨sink, .receiving⟩)
    (hloaded : sink.loaded = some loaded) (hdup : loaded.duplicate = false)
    (segmentSha256 : String) :
    Sound p (server.set (commit p server.inbox sink loaded segmentSha256).2.1 id
      ⟨(commit p server.inbox sink loaded segmentSha256).2.2,
        phaseAfter (commit p server.inbox sink loaded segmentSha256).1 .finished⟩) := by
  have hsession := h.sessions id _ hfound
  have hunfinished := hsession.unfinished (.inl rfl)
  have hclaimed := hsession.claimed loaded hloaded (by simp)
  obtain ⟨hoffset, hcurrent, hunfinal, ⟨content, hcontent, hle⟩, hreceiving⟩ :=
    hsession.writing loaded hloaded (by simp) hunfinished hdup
  obtain ⟨hsize, hfilename, hsha, hsegments, -⟩ := hreceiving rfl
  rw [hoffset] at hsegments
  have hraise : ∀ {sink' : Sink} {loaded' : Loaded}, sink'.claimed = sink.claimed →
      sink'.finished = sink.finished → sink'.loaded = some loaded' →
      SameTransfer loaded loaded' → SessionOk p server.inbox ⟨sink', .raised⟩ := by
    intro sink' loaded' hc hf hl htransfer
    refine hsession.raise hc hf fun l hl' => ⟨loaded, hloaded, ?_⟩
    obtain rfl := Option.mem_unique hl hl'
    exact htransfer
  have hwrites : ∀ {sink' : Sink} {loaded' : Loaded}, sink'.claimed = sink.claimed →
      sink'.finished = sink.finished → sink'.loaded = some loaded' →
      loaded'.duplicate = false → ∀ k, (Session.mk sink .receiving).Writes k →
      (Session.mk sink' .raised).Writes k := by
    intro sink' loaded' hc hf hl hd k hw
    exact ⟨hc.trans hw.1, hf.trans hw.2.1, loaded', hl, hd⟩
  unfold Transit.commit
  dsimp only
  rw [hcontent, Option.getD_some]
  split
  · exact h.quiet hfound rfl (hraise rfl rfl rfl ⟨rfl, rfl, rfl, rfl, fun _ => rfl⟩)
      (hwrites rfl rfl rfl hdup)
  rename_i hlength
  have hlength := not_not.mp hlength
  split
  · refine h.own hfound (fun k hk => Option.mem_unique hclaimed hk)
      (h.alone hfound hclaimed) hclaimed (.setPart ..) ?_ (fun c hc => ?_)
      fun hnot => absurd ⟨hclaimed, hunfinished, _, rfl, hdup⟩ hnot
    · refine .holding (.inr rfl) rfl hclaimed hsession.active hunfinished (fun hd => ?_) fun _ =>
        ⟨hoffset, hcurrent, hunfinal, ⟨content.take loaded.verifiedOffset, Function.update_self ..,
          (List.length_take_of_le hle).ge⟩, nofun⟩
      rw [show loaded.duplicate = true from hd] at hdup
      cases hdup
    · have hverified : loaded.verifiedOffset = c.verifiedOffset := by
        rw [hcurrent, Inbox.verified, show server.inbox.checkpoints _ = some c from hc]
      refine (h.described _ c hc).cut (hunfinal c hc) ?_ ?_ (Function.update_self ..)
      · rw [List.length_take_of_le hle, hverified]
      · rw [hcontent, Option.getD_some, hverified]
  · next hfront =>
    split
    · next hfinal =>
      split
      · exact h.quiet hfound rfl (hraise rfl rfl rfl ⟨rfl, rfl, rfl, rfl, fun _ => rfl⟩)
          (hwrites rfl rfl rfl hdup)
      rename_i hwhole
      split
      · exact h.quiet hfound rfl
          (hraise rfl rfl rfl ⟨rfl, rfl, rfl, rfl, fun _ => rfl⟩)
          (hwrites rfl rfl rfl hdup)
      rename_i hnew
      have hnew := Option.not_isSome_iff_eq_none.mp hnew
      refine h.committed hfound hclaimed
        (((Touches.store hnew content).trans (.setPart ..)).trans
          (.setCheckpoint ..)) rfl (Function.update_self ..)
        (described_advance hsize hfilename hsha hsegments hlength ?_ ?_) ?_
        (fun _ => if_pos hfinal) rfl rfl rfl
        ⟨rfl, rfl, rfl, rfl, fun _ => rfl⟩ rfl
      · intro hnot
        rw [hfinal] at hnot
        cases hnot
      · intro _
        exact ⟨Function.update_self .., Function.update_self ..,
          (not_not.mp hwhole).symm⟩
      · intro stored hstored
        have hmoved : Function.update server.inbox.parts loaded.slug none
          loaded.slug = none := Function.update_self ..
        exact absurd (hmoved.symm.trans hstored) (by simp)
    · next hfinal =>
      have hfinal := Bool.eq_false_iff.mpr hfinal
      refine h.committed hfound hclaimed (.setCheckpoint ..) rfl (Function.update_self ..)
        (described_advance hsize hfilename hsha hsegments hlength ?_ ?_) ?_ ?_ rfl rfl rfl
        ⟨rfl, rfl, rfl, rfl, fun _ => rfl⟩ rfl
      · intro _
        exact hcontent
      · intro hnot
        rw [hfinal] at hnot
        cases hnot
      · intro stored hstored
        obtain rfl := Option.mem_unique hcontent hstored
        exact hlength
      · intro hnot
        rw [hfinal] at hnot
        cases hnot

theorem Sound.finish (h : Sound p server) (hfound : server.sessions id = some ⟨sink, .receiving⟩) :
    Sound p (server.set (finish p server.inbox sink).2.1 id
      ⟨(finish p server.inbox sink).2.2,
        phaseAfter (finish p server.inbox sink).1 .finished⟩) := by
  have hsession := h.sessions id _ hfound
  unfold Transit.finish
  split
  · exact h.raise hfound
  rename_i loaded hloaded
  dsimp only
  split
  · exact h.raise hfound
  split
  · exact h.raise hfound
  split
  · next hdup =>
    have hclaimed := hsession.claimed loaded hloaded (by simp)
    refine h.quiet hfound rfl ?_ ?_
    · exact .finish hsession.active hclaimed hloaded rfl
        (hsession.duplicate loaded hloaded hdup)
        (hsession.final loaded hloaded (by simp) (.inl hdup))
    · rintro k ⟨-, -, l, hl, hnot⟩
      obtain rfl := Option.mem_unique hloaded hl
      rw [hdup] at hnot
      cases hnot
  · next hdup => exact h.commit hfound hloaded (Bool.eq_false_iff.mpr hdup) _

/-! ### Calls that close -/

theorem SessionOk.close (hclaimed : sink.claimed = none)
    (hduplicate : ∀ loaded, sink.loaded = some loaded → loaded.duplicate = true →
      loaded.handle = none) : SessionOk p inbox ⟨sink, .closed⟩ := by
  refine ⟨?_, fun _ => hclaimed, ?_, ?_, ?_, ?_, hduplicate, ?_, ?_⟩
  · intro k hk
    rw [show sink.claimed = none from hclaimed] at hk
    cases hk
  · rintro ⟨⟩
  · rintro (⟨⟨⟩⟩ | ⟨⟨⟩⟩)
  · rintro ⟨⟩
  · exact fun _ _ hopen => absurd rfl hopen
  · exact fun _ _ hopen => absurd rfl hopen
  · exact fun _ _ hopen => absurd rfl hopen

theorem Sound.release (h : Sound p server) (hfound : server.sessions id = some session)
    (hclaimed : sink.claimed = session.sink.claimed)
    (hduplicate : ∀ loaded, sink.loaded = some loaded → loaded.duplicate = true →
      loaded.handle = none) (htouches : Touches session.sink.claimed server.inbox inbox')
    (hdescribed : ∀ k, session.sink.claimed = some k → ∀ c, inbox'.checkpoints k = some c →
      Described p inbox' k c) (hrested : ∀ k, session.sink.claimed = some k → Rested inbox' k) :
    Sound p
      (server.set (releaseClaim inbox' sink).1 id ⟨(releaseClaim inbox' sink).2, .closed⟩) := by
  have hprevious : ∀ previous k, server.sessions id = some previous →
      previous.sink.claimed = some k → session.sink.claimed = some k := by
    intro previous k hsame hk
    obtain rfl := Option.mem_unique hfound hsame
    exact hk
  unfold releaseClaim
  split
  · next slug hslug =>
    have hk : session.sink.claimed = some slug := hclaimed.symm.trans hslug
    rw [hk] at htouches
    refine h.update (some slug) (htouches.trans (.release ..)) ?_ ?_ ?_
      (.close rfl hduplicate) ?_ ?_
    · exact fun previous k hsame hk' => hk.symm.trans (hprevious previous k hsame hk')
    · rintro k ⟨⟩
      exact h.alone hfound hk
    · rintro k ⟨⟩
    · rintro k ⟨⟩ c hc
      exact (hdescribed _ hk c hc).frame rfl fun _ _ hf => hf
    · rintro k ⟨⟩ -
      exact hrested _ hk
  · next hnone =>
    have hk : session.sink.claimed = none := hclaimed.symm.trans hnone
    rw [hk] at htouches
    refine h.update none htouches ?_ ?_ ?_ (.close hnone hduplicate) ?_ ?_
    · exact fun previous k hsame hk' => hk.symm.trans (hprevious previous k hsame hk')
    · rintro k ⟨⟩
    · intro k hk'
      exact hnone.symm.trans hk'
    · rintro k ⟨⟩
    · rintro k ⟨⟩

theorem Sound.release_quiet (h : Sound p server) (hfound : server.sessions id = some ⟨sink, phase⟩)
    (hwrites : ∀ k, ¬ (Session.mk sink phase).Writes k) :
    Sound p (server.set (releaseClaim server.inbox sink).1 id
      ⟨(releaseClaim server.inbox sink).2, .closed⟩) :=
  h.release hfound rfl (h.sessions id _ hfound).duplicate (.refl ..)
    (fun k _ => h.described k) fun k hk => h.at_rest hfound hk (hwrites k)

theorem Sound.acknowledge (h : Sound p server)
    (hfound : server.sessions id = some ⟨sink, .finished⟩) :
    Sound p (server.set (acknowledgeReceipt server.inbox sink).1 id
      ⟨(acknowledgeReceipt server.inbox sink).2, .closed⟩) := by
  have hsession := h.sessions id _ hfound
  have hfinished := hsession.finished rfl
  have hidle : ∀ k, ¬ (Session.mk sink .finished).Writes k := by
    rintro k ⟨-, hnot, -⟩
    rw [hfinished] at hnot
    cases hnot
  unfold acknowledgeReceipt
  split
  · next loaded hloaded =>
    split
    · next hfinal =>
      have hclaimed := hsession.claimed loaded hloaded (by simp)
      have hrest := h.at_rest hfound hclaimed (hidle _)
      refine h.release hfound rfl hsession.duplicate (hclaimed ▸ .setCheckpoint ..) ?_ ?_
      · intro k hk c hc
        obtain rfl := Option.mem_unique hclaimed hk
        have hnone := Function.update_self loaded.slug none server.inbox.checkpoints
        exact absurd (hnone.symm.trans hc) (by simp)
      · intro k hk
        obtain rfl := Option.mem_unique hclaimed hk
        unfold Rested
        rw [show (server.inbox.setCheckpoint loaded.slug none).checkpoints loaded.slug = none
          from Function.update_self ..]
        show server.inbox.parts loaded.slug = none
        cases hc : server.inbox.checkpoints loaded.slug with
        | none =>
          rw [Rested, hc] at hrest
          exact hrest
        | some c =>
          have hcomplete := hsession.final loaded hloaded (by simp) (.inr hfinished)
            hfinal.2 c hc
          exact ((h.described _ c hc).complete hcomplete).1
    · exact h.release_quiet hfound hidle
  · exact h.release_quiet hfound hidle

/-- An abort keeps the invariant: it cuts the partial file to the verified bytes. -/
theorem Sound.abort (h : Sound p server) (hfound : server.sessions id = some ⟨sink, phase⟩)
    (hopen : phase ≠ .closed) :
    Sound p (server.set (abort server.inbox sink).1 id
      ⟨(abort server.inbox sink).2, .closed⟩) := by
  have hsession := h.sessions id _ hfound
  unfold Transit.abort
  split
  · next hunloaded =>
    refine h.release_quiet hfound ?_
    rintro k ⟨-, -, loaded, hloaded, -⟩
    rw [show sink.loaded = none from hunloaded] at hloaded
    cases hloaded
  · next loaded hloaded =>
    split
    · next hdone =>
      refine h.release_quiet hfound ?_
      rintro k ⟨-, hfinished, l, hl, hdup⟩
      obtain rfl := Option.mem_unique hloaded hl
      rcases hdone with hf | hd
      · rw [show sink.finished = false from hfinished] at hf
        cases hf
      · rw [hdup] at hd
        cases hd
    · next hdone =>
      rw [not_or] at hdone
      have hfinished := Bool.eq_false_iff.mpr hdone.1
      have hdup := Bool.eq_false_iff.mpr hdone.2
      have hclaimed := hsession.claimed loaded hloaded hopen
      obtain ⟨-, hcurrent, hincomplete, ⟨content, hcontent, hle⟩, -⟩ :=
        hsession.writing loaded hloaded hopen hfinished hdup
      have hhandle : ∀ l, some ({ loaded with handle := none } : Loaded) = some l →
          l.duplicate = true → l.handle = none := by
        rintro _ ⟨⟩ -
        rfl
      have hcut := Touches.setPart server.inbox loaded.slug
        ((server.inbox.parts loaded.slug).map (·.take loaded.verifiedOffset))
      split
      · refine h.release hfound rfl hhandle
          (hclaimed ▸ (hcut.trans (.setPart ..)).trans (.setCheckpoint ..)) ?_ ?_
        · intro k hk c hc
          obtain rfl := Option.mem_unique hclaimed hk
          have hnone := Function.update_self loaded.slug none server.inbox.checkpoints
          exact absurd (hnone.symm.trans hc) (by simp)
        · intro k hk
          obtain rfl := Option.mem_unique hclaimed hk
          unfold Rested
          simp [Inbox.setCheckpoint, Inbox.setPart]
      · next hne =>
        have hpart : Function.update server.inbox.parts loaded.slug
            ((server.inbox.parts loaded.slug).map (·.take loaded.verifiedOffset))
            loaded.slug = some (content.take loaded.verifiedOffset) := by
          rw [Function.update_self, hcontent, Option.map_some]
        have hlength : (content.take loaded.verifiedOffset).length = loaded.verifiedOffset :=
          List.length_take_of_le hle
        refine h.release hfound rfl hhandle (hclaimed ▸ hcut) ?_ ?_
        · intro k hk c hc
          obtain rfl := Option.mem_unique hclaimed hk
          have hc' : server.inbox.checkpoints loaded.slug = some c := hc
          have hverified : loaded.verifiedOffset = c.verifiedOffset := by
            rw [hcurrent, Inbox.verified, hc']
          refine (h.described _ c hc').cut (hincomplete c hc') ?_ ?_ hpart
          · rw [hlength, hverified]
          · rw [hcontent, Option.getD_some, hverified]
        · intro k hk
          obtain rfl := Option.mem_unique hclaimed hk
          refine rested_of (fun hc => ?_) fun c stored hc hstored => ?_
          · rw [Inbox.verified, show server.inbox.checkpoints _ = none from hc] at hcurrent
            exact absurd hcurrent hne
          · obtain rfl := Option.mem_unique hpart hstored
            rw [hlength, hcurrent, Inbox.verified,
              show server.inbox.checkpoints _ = some c from hc]

/-- **Every call keeps the invariant.** -/
theorem Sound.step (h : Sound p server) {server' : Server} (hstep : Step p server server') :
    Sound p server' := by
  cases hstep with
  | start id sessionId sourcePeerId fresh =>
    refine h.update none (.refl ..) ?_ ?_ ?_ ?_ ?_ ?_
    · intro session k hfound
      rw [fresh] at hfound
      cases hfound
    · rintro k ⟨⟩
    · rintro k ⟨⟩
    · refine ⟨?_, ?_, ?_, fun _ => rfl, fun _ _ => ⟨rfl, rfl, rfl⟩, ?_, ?_, ?_, ?_⟩
      · rintro k ⟨⟩
      · rintro ⟨⟩
      · rintro ⟨⟩
      all_goals rintro loaded ⟨⟩
    · rintro k ⟨⟩
    · rintro k ⟨⟩
  | write chunk found => exact h.chunk found chunk
  | finish found => exact h.finish found
  | acknowledge found => exact h.acknowledge found
  | abort found opened => exact h.abort found opened

end

theorem Sound.empty (p : Platform) : Sound p .empty := by
  refine ⟨?_, fun _ _ => rfl, ?_, ?_⟩
  · rintro slug c ⟨⟩
  · rintro id session ⟨⟩
  · rintro id id' session session' slug ⟨⟩

/-- **Every reachable inbox is sound.** -/
theorem Reachable.sound (h : Reachable p server) : Sound p server := by
  induction h with
  | empty => exact .empty p
  | step before step ih => exact ih.step step

/-! ### Stored files -/

/-- The file that a finish stores. -/
structure Stores (p : Platform) (inbox inbox' : Inbox) (m : Manifest) (name : String)
    (content : Bytes) : Prop where
  final : m.final = true
  new : inbox.files name = none
  files : inbox'.files = Function.update inbox.files name (some content)
  size : content.length = m.size
  sha256 : p.sha256 content = m.sha256

theorem write_files (p : Platform) (inbox : Inbox) (sink : Sink) (chunk : Bytes) :
    (write p inbox sink chunk).2.1.files = inbox.files := by
  unfold write
  split
  · rfl
  split
  · split
    · unfold loadManifest
      split
      · rfl
      · dsimp only
        split
        · rfl
        · split <;> rfl
    · rfl
  · split
    · unfold writeData
      dsimp only
      split
      · rfl
      · split <;> rfl
    · rfl

theorem releaseClaim_files (inbox : Inbox) (sink : Sink) :
    (releaseClaim inbox sink).1.files = inbox.files := by
  unfold releaseClaim
  split <;> rfl

theorem acknowledgeReceipt_files (inbox : Inbox) (sink : Sink) :
    (acknowledgeReceipt inbox sink).1.files = inbox.files := by
  unfold acknowledgeReceipt
  split
  · split
    · exact releaseClaim_files ..
    · exact releaseClaim_files ..
  · exact releaseClaim_files ..

theorem abort_files (inbox : Inbox) (sink : Sink) :
    (abort inbox sink).1.files = inbox.files := by
  unfold abort
  split
  · exact releaseClaim_files ..
  split
  · exact releaseClaim_files ..
  · dsimp only
    split
    · exact releaseClaim_files ..
    · exact releaseClaim_files ..

/-- **A finish stores the file its manifest describes, or none.** -/
theorem finish_files (p : Platform) (inbox : Inbox) (sink : Sink) :
    (finish p inbox sink).2.1.files = inbox.files ∨
      ∃ loaded content, sink.loaded = some loaded ∧
        Stores p inbox (finish p inbox sink).2.1 loaded.manifest loaded.destination content := by
  unfold finish
  split
  · exact .inl rfl
  rename_i loaded hloaded
  dsimp only
  split
  · exact .inl rfl
  split
  · exact .inl rfl
  split
  · exact .inl rfl
  unfold commit
  dsimp only
  split
  · exact .inl rfl
  rename_i hlength
  split
  · exact .inl rfl
  split
  · next hfinal =>
    split
    · exact .inl rfl
    rename_i hsha
    split
    · exact .inl rfl
    · next hnew =>
      refine .inr ⟨loaded, _, hloaded, hfinal, ?_, rfl, ?_, not_not.mp hsha⟩
      · exact Option.not_isSome_iff_eq_none.mp hnew
      · exact (not_not.mp hlength).trans
          (loaded.manifest.final_iff.mp hfinal)
  · exact .inl rfl

theorem finish_error {p : Platform} {inbox : Inbox} {e : Failure}
    (h : (finish p inbox sink).1 = .error e) :
    (finish p inbox sink).2.1.checkpoints = inbox.checkpoints ∧
      (finish p inbox sink).2.1.files = inbox.files := by
  unfold finish at h ⊢
  split
  · exact ⟨rfl, rfl⟩
  rename_i loaded hloaded
  simp only [hloaded] at h
  dsimp only
  split
  · exact ⟨rfl, rfl⟩
  split
  · exact ⟨rfl, rfl⟩
  split
  · exact ⟨rfl, rfl⟩
  rename_i hsize hsha hdup
  rw [if_neg hsize, if_neg hsha, if_neg hdup] at h
  unfold commit at h ⊢
  dsimp only at h ⊢
  split
  · exact ⟨rfl, rfl⟩
  rename_i hlength
  rw [if_neg hlength] at h
  split
  · exact ⟨rfl, rfl⟩
  rename_i hfront
  rw [if_neg hfront] at h
  split
  · next hfinal =>
    rw [if_pos hfinal] at h
    split
    · exact ⟨rfl, rfl⟩
    rename_i hwhole
    rw [if_neg hwhole] at h
    split
    · exact ⟨rfl, rfl⟩
    · next hnew =>
      rw [if_neg hnew] at h
      cases h
  · next hfinal =>
    rw [if_neg hfinal] at h
    cases h

theorem Step.files {server' : Server} (h : Step p server server') :
    server'.inbox.files = server.inbox.files ∨
      ∃ id sink loaded content, server.sessions id = some ⟨sink, .receiving⟩ ∧
        sink.loaded = some loaded ∧
        Stores p server.inbox server'.inbox loaded.manifest loaded.destination content := by
  cases h with
  | start => exact .inl rfl
  | write chunk found => exact .inl (write_files ..)
  | @finish id sink found =>
    rcases finish_files p server.inbox sink with hsame | ⟨loaded, content, hloaded, hstores⟩
    · exact .inl hsame
    · exact .inr ⟨id, sink, loaded, content, found, hloaded, hstores⟩
  | acknowledge found => exact .inl (acknowledgeReceipt_files ..)
  | abort found opened => exact .inl (abort_files ..)

/-- **A stored file is never changed**, by any number of calls. -/
theorem runs_files {server' : Server} (h : Relation.ReflTransGen (Step p) server server')
    {name : String} (hstored : server.inbox.files name = some content) :
    server'.inbox.files name = some content := by
  induction h with
  | refl => exact hstored
  | tail _ hstep ih =>
    rcases hstep.files with hsame | ⟨_, _, loaded, stored, -, -, hstores⟩
    · rw [hsame]
      exact ih
    · rw [hstores.files, Function.update_of_ne, ih]
      rintro rfl
      rw [hstores.new] at ih
      cases ih

/-! ### Partial files -/

/-- The partial file of a transfer is exactly its verified bytes. -/
def Exact (p : Platform) (inbox : Inbox) (slug : String) : Prop :=
  match inbox.checkpoints slug with
  | none => inbox.parts slug = none
  | some c =>
      match c.status with
      | .incomplete => ∃ content, inbox.parts slug = some content ∧
          content.length = c.verifiedOffset ∧ p.sha256 content = c.prefixSha256
      | .complete => inbox.parts slug = none

theorem Rested.exact (h : Rested inbox slug)
    (hdescribed : ∀ c, inbox.checkpoints slug = some c → Described p inbox slug c) :
    Exact p inbox slug := by
  unfold Rested at h
  unfold Exact
  cases hc : inbox.checkpoints slug with
  | none =>
    rw [hc] at h
    exact h
  | some c =>
    rw [hc] at h
    simp only at h ⊢
    cases hstatus : c.status with
    | incomplete =>
      obtain ⟨-, content, hcontent, hle, hsha⟩ := (hdescribed c hc).incomplete hstatus
      refine ⟨content, hcontent, h content hcontent, ?_⟩
      rw [← hsha, ← h content hcontent, List.take_length]
    | complete => exact ((hdescribed c hc).complete hstatus).1

/-- **After an abort the partial file is exactly the verified bytes.** -/
theorem Sound.abort_exact (h : Sound p server) {id : Nat}
    (hfound : server.sessions id = some ⟨sink, phase⟩) (hopen : phase ≠ .closed)
    (hclaimed : sink.claimed = some slug) : Exact p (Transit.abort server.inbox sink).1 slug := by
  have hafter := h.abort hfound hopen
  refine Rested.exact (hafter.rested slug fun id' session' hfound' hwrites => ?_)
    (hafter.described slug)
  by_cases hid : id' = id
  · subst hid
    have hself : (server.set (Transit.abort server.inbox sink).1 id'
        ⟨(Transit.abort server.inbox sink).2, .closed⟩).sessions id' = _ := Function.update_self ..
    have hclosed := (hafter.sessions id' _ hself).closed rfl
    obtain rfl := Option.mem_unique hself hfound'
    rw [hwrites.1] at hclosed
    cases hclosed
  · have hother : server.sessions id' = some session' :=
      (Function.update_of_ne hid ..).symm.trans hfound'
    exact h.alone hfound hclaimed id' session' hid hother hwrites.1

/-- The segment was confirmed before: it is on record, or its file is stored. -/
def Confirmed (inbox : Inbox) (slug : String) (m : Manifest) : Prop :=
  (∃ c, inbox.checkpoints slug = some c ∧
    ∃ r ∈ c.segments, r.offset = m.offset ∧ r.offset < r.endOffset) ∨
  inbox.checkpoints slug = none ∧ (inbox.files (destinationOf slug m.filename)).isSome

/-- **A confirmed segment is refused or found to be a duplicate.** -/
theorem Sound.load_confirmed (h : Sound p server) (hunloaded : sink.loaded = none) {body : Bytes}
    (hread : readManifest p body = .ok m)
    (hconfirmed : Confirmed server.inbox (p.resumeSlug sink.sourcePeerId m.transferId) m) :
    (loadManifest p server.inbox sink body).2.1.parts = server.inbox.parts ∧
      ∀ loaded, (loadManifest p server.inbox sink body).2.2.loaded = some loaded →
        loaded.duplicate = true := by
  have hloads := loadManifest_loads p server.inbox sink body
  generalize (loadManifest p server.inbox sink body).1 = result at hloads
  generalize (loadManifest p server.inbox sink body).2.1 = inbox' at hloads ⊢
  generalize (loadManifest p server.inbox sink body).2.2 = sink' at hloads ⊢
  cases hloads with
  | refused e =>
    refine ⟨rfl, fun loaded hloaded => ?_⟩
    rw [hunloaded] at hloaded
    cases hloaded
  | conflicts e =>
    refine ⟨rfl, fun loaded hloaded => ?_⟩
    rw [show sink.loaded = some loaded from hloaded] at hunloaded
    cases hunloaded
  | repeats read free resumes =>
    refine ⟨rfl, ?_⟩
    rintro _ ⟨⟩
    obtain ⟨-, -, -, -, ⟨-, hdup, -⟩ | ⟨_, hsome, -⟩⟩ := resume_ok resumes
    · exact hdup
    · cases hsome
  | @opens m' loaded content read free resumes =>
    obtain rfl := Except.ok.inj (hread.symm.trans read)
    obtain ⟨-, -, hstate, -, ⟨hnone, -⟩ | ⟨_, -, -, -, hisdup, -⟩⟩ := resume_ok resumes
    · cases hnone
    · obtain ⟨hoffset, hincomplete⟩ := isDuplicate_false hisdup
      obtain ⟨-, -, -, hwhere⟩ := resumeState_ok hstate
      exfalso
      rcases hconfirmed with ⟨c, hc, r, hr, hsame, hlt⟩ | ⟨hnone, hfile⟩
      · rcases hwhere with hfound | ⟨hnone, -⟩
        · obtain rfl := Option.mem_unique hfound hc
          have hend := (h.described _ _ hc).segments r hr
          omega
        · exact absurd (hnone.symm.trans hc) (by simp)
      · rcases hwhere with hfound | ⟨-, -, ⟨-, hcomplete, -⟩ | ⟨hnew, -⟩⟩
        · exact absurd (hnone.symm.trans hfound) (by simp)
        · rw [hincomplete] at hcomplete
          cases hcomplete
        · rw [show server.inbox.files _ = none from hnew] at hfile
          cases hfile

/-- **A duplicate is never appended**: none of its calls touches a partial file. -/
structure Untouched (p : Platform) (inbox : Inbox) (sink : Sink) : Prop where
  write : ∀ chunk, (write p inbox sink chunk).2.1.parts = inbox.parts
  finish : (finish p inbox sink).2.1.parts = inbox.parts
  acknowledge : (acknowledgeReceipt inbox sink).1.parts = inbox.parts
  abort : (abort inbox sink).1.parts = inbox.parts

theorem releaseClaim_parts (inbox : Inbox) (sink : Sink) :
    (releaseClaim inbox sink).1.parts = inbox.parts := by
  unfold releaseClaim
  split <;> rfl

theorem SessionOk.untouched (h : SessionOk p inbox session)
    (hloaded : session.sink.loaded = some loaded) (hdup : loaded.duplicate = true) :
    Untouched p inbox session.sink := by
  have hhandle := h.duplicate loaded hloaded hdup
  refine ⟨fun chunk => ?_, ?_, ?_, ?_⟩
  · unfold Transit.write
    split
    · rfl
    · simp only [hloaded, writeData, hhandle]
      split
      · split <;> rfl
      · rfl
  · simp only [Transit.finish, hloaded, hdup, if_true]
    split
    · rfl
    · split <;> rfl
  · simp only [acknowledgeReceipt, hloaded]
    split
    · exact releaseClaim_parts ..
    · exact releaseClaim_parts ..
  · simp only [Transit.abort, hloaded, hdup, or_true, if_true]
    exact releaseClaim_parts ..

end Transit
