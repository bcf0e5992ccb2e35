import Rynmesh.DeviceErasure
import Rynmesh.EventHistory

/-!
# A confirmed erasure was reviewed, approved and carried out

`Kept` is what no step undoes: the binding of an entry, and its final state.  `Inv` ties
the journals, the receipts on their way and the calls under way to the history, and
`erasures_safe` reads the promises off both.
-/

namespace Erasure

open Checked

variable {p : Platform}

/-! ### What is never undone -/

/-- An entry keeps its binding, its approved token and its final state. -/
structure Entry.Kept (entry entry' : Entry) : Prop where
  id : entry'.id = entry.id
  category : entry'.category = entry.category
  manifest : entry'.manifest = entry.manifest
  epoch : entry'.epoch = entry.epoch
  pairId : entry'.pairId = entry.pairId
  approved : ∀ token, entry.approvedToken = some token → entry'.approvedToken = some token
  final : entry.state.final → entry'.state = entry.state

theorem Entry.Kept.refl (entry : Entry) : entry.Kept entry :=
  ⟨rfl, rfl, rfl, rfl, rfl, fun _ h => h, fun _ => rfl⟩

theorem Entry.Kept.trans {a b c : Entry} (h : a.Kept b) (h' : b.Kept c) : a.Kept c where
  id := h'.id.trans h.id
  category := h'.category.trans h.category
  manifest := h'.manifest.trans h.manifest
  epoch := h'.epoch.trans h.epoch
  pairId := h'.pairId.trans h.pairId
  approved := fun token htoken => h'.approved token (h.approved token htoken)
  final := by
    intro hfinal
    have hsame := h.final hfinal
    rw [← hsame] at hfinal ⊢
    exact h'.final hfinal

structure Target.Kept (target target' : Target) : Prop where
  peerId : target'.peerId = target.peerId
  epoch : target'.epoch = target.epoch
  final : target.state.final → target'.state = target.state

theorem Target.Kept.refl (target : Target) : target.Kept target := ⟨rfl, rfl, fun _ => rfl⟩

theorem Target.Kept.trans {a b c : Target} (h : a.Kept b) (h' : b.Kept c) : a.Kept c where
  peerId := h'.peerId.trans h.peerId
  epoch := h'.epoch.trans h.epoch
  final := by
    intro hfinal
    have hsame := h.final hfinal
    rw [← hsame] at hfinal ⊢
    exact h'.final hfinal

/-- A job keeps its category, its manifest and its targets. -/
structure Job.Kept (job job' : Job) : Prop where
  category : job'.category = job.category
  manifest : job'.manifest = job.manifest
  targets : ∀ pairId target, job.targets.get? pairId = some target →
    ∃ target', job'.targets.get? pairId = some target' ∧ target.Kept target'
  same : ∀ pairId, job.targets.get? pairId = none → job'.targets.get? pairId = none

theorem Job.Kept.refl (job : Job) : job.Kept job :=
  ⟨rfl, rfl, fun _ target h => ⟨target, h, Target.Kept.refl _⟩, fun _ h => h⟩

theorem Job.Kept.trans {a b c : Job} (h : a.Kept b) (h' : b.Kept c) : a.Kept c where
  category := h'.category.trans h.category
  manifest := h'.manifest.trans h.manifest
  targets := by
    intro pairId target hget
    obtain ⟨target', hget', hkept⟩ := h.targets pairId target hget
    obtain ⟨target'', hget'', hkept'⟩ := h'.targets pairId target' hget'
    exact ⟨target'', hget'', hkept.trans hkept'⟩
  same := fun pairId hnone => h'.same pairId (h.same pairId hnone)

theorem Job.get?_putTarget (job : Job) (pairId j : String) (target : Target) :
    (job.putTarget pairId target).targets.get? j =
      if j = pairId then some target else job.targets.get? j :=
  Dict.get?_set _ _ _ _

variable {pairId : String}

variable {job : Job}

theorem Job.kept_putTarget {target target' : Target}
    (htarget : job.targets.get? pairId = some target) (h : target.Kept target') :
    job.Kept (job.putTarget pairId target') := by
  refine ⟨rfl, rfl, ?_, ?_⟩
  · intro j found hfound
    rw [Job.get?_putTarget]
    split
    · next hj =>
      rw [hj, htarget] at hfound
      obtain rfl := Option.some.inj hfound
      exact ⟨target', rfl, h⟩
    · exact ⟨found, hfound, Target.Kept.refl _⟩
  · intro j hnone
    rw [Job.get?_putTarget, if_neg]
    · exact hnone
    · intro hj
      rw [hj, htarget] at hnone
      cases hnone

structure Device.Kept (d d' : Device) : Prop where
  incoming : ∀ key entry, d.incoming.get? key = some entry →
    ∃ entry', d'.incoming.get? key = some entry' ∧ entry.Kept entry'
  outgoing : ∀ id job, d.outgoing.get? id = some job →
    ∃ job', d'.outgoing.get? id = some job' ∧ job.Kept job'

variable {id : String}

variable {body : Request} {token : String} {entry : Entry}

variable {entry' : Entry} {sender : String}

namespace Device

theorem Kept.refl (d : Device) : d.Kept d :=
  ⟨fun _ entry h => ⟨entry, h, Entry.Kept.refl _⟩, fun _ job h => ⟨job, h, Job.Kept.refl _⟩⟩

theorem Kept.trans {a b c : Device} (h : a.Kept b) (h' : b.Kept c) : a.Kept c where
  incoming := by
    intro key entry hget
    obtain ⟨entry', hget', hkept⟩ := h.incoming key entry hget
    obtain ⟨entry'', hget'', hkept'⟩ := h'.incoming key entry' hget'
    exact ⟨entry'', hget'', hkept.trans hkept'⟩
  outgoing := by
    intro id job hget
    obtain ⟨job', hget', hkept⟩ := h.outgoing id job hget
    obtain ⟨job'', hget'', hkept'⟩ := h'.outgoing id job' hget'
    exact ⟨job'', hget'', hkept.trans hkept'⟩

variable {d d' : Device} {self key : String}

theorem get?_putIncoming (d : Device) (key j : String) (entry : Entry) :
    (d.putIncoming key entry).incoming.get? j =
      if j = key then some entry else d.incoming.get? j :=
  Dict.get?_set _ _ _ _

theorem kept_putIncoming (h : ∀ entry, d.incoming.get? key = some entry → entry.Kept entry') :
    d.Kept (d.putIncoming key entry') where
  incoming := by
    intro j entry hget
    rw [get?_putIncoming]
    split
    · next hj =>
      rw [hj] at hget
      exact ⟨entry', rfl, h entry hget⟩
    · exact ⟨entry, hget, Entry.Kept.refl _⟩
  outgoing := fun _ job hget => ⟨job, hget, Job.Kept.refl _⟩

theorem get?_putOutgoing (d : Device) (id j : String) (job : Job) :
    (d.putOutgoing id job).outgoing.get? j = if j = id then some job else d.outgoing.get? j :=
  Dict.get?_set _ _ _ _

theorem kept_putOutgoing {job' : Job} (h : ∀ job, d.outgoing.get? id = some job → job.Kept job') :
    d.Kept (d.putOutgoing id job') where
  incoming := fun _ entry hget => ⟨entry, hget, Entry.Kept.refl _⟩
  outgoing := by
    intro j job hget
    rw [get?_putOutgoing]
    split
    · next hj =>
      rw [hj] at hget
      exact ⟨job', rfl, h job hget⟩
    · exact ⟨job, hget, Job.Kept.refl _⟩

theorem fits_ok (h : fits d = .ok d') : d' = d := by
  simp only [fits, bind_ok] at h
  obtain ⟨_, _, h⟩ := h
  exact (pure_ok.mp h).symm

theorem pair_ok {epoch : Option String} {row : Pair} (h : d.pair p id epoch = .ok row) :
    d.pairs.get? id = some row := by
  simp only [pair, bind_ok, demand_ok] at h
  obtain ⟨_, _, found, hfound, _, _, _, _, h⟩ := h
  rw [← pure_ok.mp h]
  exact hfound

/-- What `begin` writes. -/
theorem begin_ok (h : d.begin id job = .ok d') :
    d' = d ∨ d.outgoing.get? id = none ∧ d' = d.putOutgoing id job := by
  unfold begin at h
  split at h
  · simp only [bind_ok] at h
    obtain ⟨_, _, h⟩ := h
    exact .inl (pure_ok.mp h).symm
  · next hnone => exact .inr ⟨hnone, fits_ok h⟩

theorem begin_same (h : d.begin id job = .ok d') :
    d'.pairs = d.pairs ∧ d'.incoming = d.incoming := by
  rcases begin_ok h with hd | ⟨_, hd⟩
  · rw [hd]
    exact ⟨rfl, rfl⟩
  · rw [hd]
    exact ⟨rfl, rfl⟩

theorem begin_kept (h : d.begin id job = .ok d') : d.Kept d' := by
  rcases begin_ok h with hd | ⟨hnone, hd⟩
  · rw [hd]
    exact Kept.refl d
  · rw [hd]
    refine kept_putOutgoing ?_
    intro old hold
    rw [hnone] at hold
    cases hold

/-- What `update` writes: the state of one target, unless it is final. -/
theorem update_cases (d : Device) (id pairId : String) (state : State)
    (completedAt : Option Rat) :
    d.update id pairId state completedAt = d ∨
      ∃ job target target', d.outgoing.get? id = some job ∧
        job.targets.get? pairId = some target ∧ ¬ target.state.final ∧
        target'.peerId = target.peerId ∧ target'.epoch = target.epoch ∧ target'.state = state ∧
        d.update id pairId state completedAt = d.putOutgoing id (job.putTarget pairId target') := by
  unfold update
  split
  · next job hjob =>
    split
    · next target htarget =>
      split
      · exact .inl rfl
      · next hfinal =>
        exact .inr ⟨job, target,
          { target with state, completedAt := completedAt.or target.completedAt },
          hjob, htarget, hfinal, rfl, rfl, rfl, rfl⟩
    · exact .inl rfl
  · exact .inl rfl

theorem update_same (d : Device) (id pairId : String) (state : State) (completedAt : Option Rat) :
    (d.update id pairId state completedAt).pairs = d.pairs ∧
      (d.update id pairId state completedAt).incoming = d.incoming := by
  rcases update_cases d id pairId state completedAt with hd | ⟨_, _, _, _, _, _, _, _, _, hd⟩
  · rw [hd]
    exact ⟨rfl, rfl⟩
  · rw [hd]
    exact ⟨rfl, rfl⟩

theorem update_kept (d : Device) (id pairId : String) (state : State)
    (completedAt : Option Rat) : d.Kept (d.update id pairId state completedAt) := by
  rcases update_cases d id pairId state completedAt with hd |
      ⟨job, target, target', hjob, htarget, hfinal, hpeer, hepoch, _, hd⟩
  · rw [hd]
    exact Kept.refl d
  · rw [hd]
    refine kept_putOutgoing ?_
    intro old hold
    rw [hjob] at hold
    obtain rfl := Option.some.inj hold
    exact Job.kept_putTarget htarget ⟨hpeer, hepoch, fun h => absurd h hfinal⟩

/-- What `receive` writes, and what it replies. -/
theorem receive_ok {reply : Wire} (h : d.receive p self pairId sender body = .ok (d', reply)) :
    ∃ entry result, d'.incoming.get? (incomingKey p pairId body.id) = some entry ∧
      reply = .reply pairId self sender (pairId, sender, self, body) result ∧
      entry.state = result.state ∧ entry.id = body.id ∧ entry.category = body.category ∧
      entry.manifest = body.manifest ∧ entry.epoch = body.epoch ∧ entry.pairId = pairId ∧
      (d' = d ∨ d.incoming.get? (incomingKey p pairId body.id) = none ∧
        d' = d.putIncoming (incomingKey p pairId body.id) entry ∧ entry.state = .awaitingOwner ∧
        entry.review = none ∧ entry.approvedToken = none) := by
  simp only [receive, bind_ok, require_ok] at h
  obtain ⟨row, _, _, _, _, _, _, _, h⟩ := h
  split at h
  · next entry hentry =>
    simp only [bind_ok, require_ok] at h
    obtain ⟨_, ⟨hid, hcategory, hmanifest, hepoch, hpair⟩, h⟩ := h
    obtain ⟨hd, hreply⟩ := Prod.mk.inj (pure_ok.mp h)
    subst hd
    exact ⟨entry, _, hentry, hreply.symm, rfl, hid, hcategory, hmanifest, hepoch, hpair,
      .inl rfl⟩
  · next hnone =>
    simp only [bind_ok] at h
    obtain ⟨found, hfits, h⟩ := h
    obtain ⟨hd, hreply⟩ := Prod.mk.inj (pure_ok.mp h)
    rw [fits_ok hfits] at hd
    refine ⟨{ id := body.id, category := body.category, manifest := body.manifest
              epoch := body.epoch, pairId, name := row.name, state := .awaitingOwner
              review := none, approvedToken := none, phases := none, completedAt := none },
      ⟨.awaitingOwner, none, none, none⟩, ?_, hreply.symm, rfl, rfl, rfl, rfl, rfl, rfl,
      .inr ⟨hnone, hd.symm, rfl, rfl, rfl⟩⟩
    rw [← hd, get?_putIncoming, if_pos rfl]

/-- A request that arrives undoes nothing. -/
theorem receive_kept {reply : Wire} (h : d.receive p self pairId sender body = .ok (d', reply)) :
    d.Kept d' := by
  obtain ⟨entry, _, _, _, _, _, _, _, _, _, hd | ⟨hnone, hd, _⟩⟩ := receive_ok h
  · rw [hd]
    exact Kept.refl d
  · rw [hd]
    refine kept_putIncoming ?_
    intro old hold
    rw [hnone] at hold
    cases hold

/-- What `preview` writes. -/
theorem record_ok {review : Review} (h : d.record key review = .ok d') :
    ∃ entry, d.incoming.get? key = some entry ∧ entry.state = .awaitingOwner ∧
      d' = d.putIncoming key { entry with review := some review } := by
  simp only [record, bind_ok, demand_ok, require_ok] at h
  obtain ⟨entry, hentry, _, hstate, h⟩ := h
  exact ⟨entry, hentry, hstate, (pure_ok.mp h).symm⟩

/-- What `approve` decides. -/
theorem decide_ok (h : d.decide key token = .ok (d', true)) :
    ∃ entry, d.incoming.get? key = some entry ∧ ¬ entry.state.final ∧
      entry.approvedToken.or (entry.review.map Review.reviewToken) = some token ∧
      d' = d.putIncoming key { entry with state := .approved, approvedToken := some token } := by
  simp only [decide, bind_ok, demand_ok, require_ok] at h
  obtain ⟨entry, hentry, _, ⟨hrejected, htoken⟩, h⟩ := h
  split at h
  · cases h
  · next hconfirmed =>
    obtain ⟨hd, _⟩ := Prod.mk.inj (pure_ok.mp h)
    refine ⟨entry, hentry, ?_, htoken, hd.symm⟩
    rintro (hfinal | hfinal)
    · exact hconfirmed hfinal
    · exact hrejected hfinal

theorem complete_eq {phases : List String} {clock : Rat} (hentry : d.incoming.get? key = some entry)
    (hstate : entry.state ≠ .rejected) :
    d.complete key phases clock = d.putIncoming key
      { entry with state := .confirmed, phases := some phases, completedAt := some clock } := by
  unfold complete
  rw [hentry]
  exact if_neg hstate

theorem fail_cases (d : Device) (key : String) :
    d.fail key = d ∨ ∃ entry, d.incoming.get? key = some entry ∧ ¬ entry.state.final ∧
      d.fail key = d.putIncoming key { entry with state := .incomplete } := by
  unfold fail
  split
  · next entry hentry =>
    split
    · exact .inl rfl
    · next hfinal => exact .inr ⟨entry, hentry, hfinal, rfl⟩
  · exact .inl rfl

theorem reject_ok (h : d.reject key = .ok d') :
    ∃ entry, d.incoming.get? key = some entry ∧ entry.state ≠ .confirmed ∧
      d' = d.putIncoming key { entry with state := .rejected } := by
  simp only [reject, bind_ok, demand_ok, require_ok] at h
  obtain ⟨entry, hentry, _, hstate, h⟩ := h
  exact ⟨entry, hentry, hstate, (pure_ok.mp h).symm⟩

theorem kept_write (hentry : d.incoming.get? key = some entry) (h : entry.Kept entry') :
    d.Kept (d.putIncoming key entry') := by
  refine kept_putIncoming ?_
  intro old hold
  rw [hentry] at hold
  obtain rfl := Option.some.inj hold
  exact h

end Device

variable {w : World} {self : String}

variable {d : Device}

theorem kept_withDevice (h : (w.device self).Kept d) (other : String) :
    (w.device other).Kept ((w.withDevice self d).device other) := by
  show (w.device other).Kept (if other = self then d else w.device other)
  split
  · next hother =>
    rw [hother]
    exact h
  · exact Device.Kept.refl _

variable {w' : World}

variable {actor : Actor}

/-- No step undoes anything, at either device. -/
theorem kept_step (hstep : Step p w actor w') (other : String) :
    (w.device other).Kept (w'.device other) := by
  cases hstep with
  | arrange self pairs hpairs =>
    exact kept_withDevice (d := { w.device self with pairs })
      ⟨(Device.Kept.refl _).incoming, (Device.Kept.refl _).outgoing⟩ other
  | begin htask h => exact kept_withDevice (Device.begin_kept h) other
  | settle htask hsent h | lapse self id pairId state hstate htask =>
    exact kept_withDevice (Device.update_kept _ _ _ _ _) other
  | receive hsent h => exact kept_withDevice (Device.receive_kept h) other
  | record htask h =>
    obtain ⟨entry, hentry, _, hd⟩ := Device.record_ok h
    refine kept_withDevice ?_ other
    rw [hd]
    exact Device.kept_write hentry ⟨rfl, rfl, rfl, rfl, rfl, fun _ h => h, fun _ => rfl⟩
  | decide htask h =>
    obtain ⟨entry, hentry, hfinal, htoken, hd⟩ := Device.decide_ok h
    refine kept_withDevice ?_ other
    rw [hd]
    refine Device.kept_write hentry
      ⟨rfl, rfl, rfl, rfl, rfl, ?_, fun hf => absurd hf hfinal⟩
    intro token hold
    rw [hold] at htoken
    exact htoken.symm
  | complete htask clock hcurrent hstate =>
    refine kept_withDevice ?_ other
    rw [Device.complete_eq hcurrent hstate]
    refine Device.kept_write hcurrent ⟨rfl, rfl, rfl, rfl, rfl, fun _ h => h, ?_⟩
    rintro (hfinal | hfinal)
    · exact hfinal.symm
    · exact absurd hfinal hstate
  | @fail self key token entry stage rest htask hstage =>
    refine kept_withDevice ?_ other
    rcases Device.fail_cases (w.device self) key with hd | ⟨found, hfound, hfinal, hd⟩
    · rw [hd]
      exact Device.Kept.refl _
    · rw [hd]
      exact Device.kept_write hfound
        ⟨rfl, rfl, rfl, rfl, rfl, fun _ h => h, fun hf => absurd hf hfinal⟩
  | refuse htask h =>
    obtain ⟨entry, hentry, hstate, hd⟩ := Device.reject_ok h
    refine kept_withDevice ?_ other
    rw [hd]
    refine Device.kept_write hentry ⟨rfl, rfl, rfl, rfl, rfl, fun _ h => h, ?_⟩
    rintro (hfinal | hfinal)
    · exact absurd hfinal hstate
    · exact hfinal.symm
  | _ => exact Device.Kept.refl _

theorem kept_leads (h : Leads p w w') (other : String) :
    (w.device other).Kept (w'.device other) := by
  induction h with
  | refl => exact Device.Kept.refl _
  | step _ hstep ih => exact ih.trans (kept_step hstep other)

/-- The handlers of peer messages run no adapter and take part in no review. -/
theorem peer_step (hstep : Step p w .peer w') : w'.history = w.history := by
  cases hstep with
  | settle htask hsent h | receive hsent h => rfl

/-! ### Receipts -/

/-- The journal of a device holds a confirmed entry for a request. -/
def Confirmed (p : Platform) (w : World) (self pairId id : String) (category : Category)
    (manifest epoch : String) : Prop :=
  ∃ entry, (w.device self).incoming.get? (Device.incomingKey p pairId id) = some entry ∧
    entry.state = .confirmed ∧ entry.id = id ∧ entry.category = category ∧
    entry.manifest = manifest ∧ entry.epoch = epoch ∧ entry.pairId = pairId

variable {category : Category}

theorem Confirmed.kept {manifest epoch : String}
    (h : Confirmed p w self pairId id category manifest epoch)
    (hkept : (w.device self).Kept (w'.device self)) :
    Confirmed p w' self pairId id category manifest epoch := by
  obtain ⟨entry, hget, hstate, hid, hcategory, hmanifest, hepoch, hpair⟩ := h
  obtain ⟨entry', hget', hsame⟩ := hkept.incoming _ entry hget
  refine ⟨entry', hget', ?_, ?_, ?_, ?_, ?_, ?_⟩
  · rw [hsame.final (.inl hstate), hstate]
  · rw [hsame.id, hid]
  · rw [hsame.category, hcategory]
  · rw [hsame.manifest, hmanifest]
  · rw [hsame.epoch, hepoch]
  · rw [hsame.pairId, hpair]

/-- A request under way asks what the job of its device says. -/
def Asked (d : Device) (pairId : String) (body : Request) : Prop :=
  ∃ job target, d.outgoing.get? body.id = some job ∧ job.category = body.category ∧
    job.manifest = body.manifest ∧ job.targets.get? pairId = some target ∧
    target.epoch = body.epoch

theorem Asked.kept {d' : Device} (h : Asked d pairId body) (hkept : d.Kept d') :
    Asked d' pairId body := by
  obtain ⟨job, target, hjob, hcategory, hmanifest, htarget, hepoch⟩ := h
  obtain ⟨job', hjob', hsame⟩ := hkept.outgoing _ job hjob
  obtain ⟨target', htarget', hsame'⟩ := hsame.targets pairId target htarget
  exact ⟨job', target', hjob', hsame.category.trans hcategory, hsame.manifest.trans hmanifest,
    htarget', hsame'.epoch.trans hepoch⟩

/-- Where a job comes from its targets are queued, with the partner of each pair. -/
def Job.Queued (p : Platform) (self : String) (job : Job) : Prop :=
  ∀ pairId target, job.targets.get? pairId = some target →
    target.peerId = p.partner self pairId ∧ target.state = .queued

/-- Each receipt, on its way or in a journal, has the entry it speaks of. -/
structure Receipts (p : Platform) (w : World) : Prop where
  pairs : ∀ self id pair, (w.device self).pairs.get? id = some pair →
    pair.remote = p.partner self id
  proposals : ∀ self id job, .proposing self id job ∈ w.tasks → job.Queued p self
  asking : ∀ self pairId body, .asking self pairId body ∈ w.tasks →
    Asked (w.device self) pairId body
  replies : ∀ pairId sender receiver question result,
    .reply pairId sender receiver question result ∈ w.sent → result.state = .confirmed →
      Confirmed p w sender pairId question.2.2.2.id question.2.2.2.category
        question.2.2.2.manifest question.2.2.2.epoch
  targets : ∀ self id job pairId target, (w.device self).outgoing.get? id = some job →
    job.targets.get? pairId = some target → target.peerId = p.partner self pairId ∧
      (target.state = .confirmed →
        Confirmed p w target.peerId pairId id job.category job.manifest target.epoch)

theorem targets_queued
    (hpairs : ∀ id pair, d.pairs.get? id = some pair → pair.remote = p.partner self id) :
    ∀ {pairIds : List String} {targets : Dict String Target},
      d.targets p pairIds = .ok targets → ∀ pairId target,
        targets.get? pairId = some target →
          target.peerId = p.partner self pairId ∧ target.state = .queued := by
  intro pairIds
  induction pairIds with
  | nil =>
    intro targets h pairId target hget
    rw [← pure_ok.mp h] at hget
    cases hget
  | cons first rest ih =>
    intro targets h
    simp only [Device.targets, bind_ok] at h
    obtain ⟨row, hrow, others, hothers, h⟩ := h
    rw [← pure_ok.mp h]
    exact Dict.forall_get?_set ⟨hpairs first row (Device.pair_ok hrow), rfl⟩ (ih hothers)

theorem propose_queued {pairIds : List String}
    (hpairs : ∀ id pair, d.pairs.get? id = some pair → pair.remote = p.partner self id)
    (h : d.propose p id category pairIds = .ok (some job)) : job.Queued p self := by
  simp only [Device.propose, bind_ok] at h
  obtain ⟨_, _, h⟩ := h
  split at h
  · simp only [bind_ok] at h
    obtain ⟨_, _, h⟩ := h
    cases h
  · simp only [bind_ok] at h
    obtain ⟨targets, htargets, h⟩ := h
    have hjob := Option.some.inj (pure_ok.mp h)
    rw [← hjob]
    exact targets_queued hpairs htargets

theorem ask_ok {nonce : String} (h : d.ask p id pairId nonce = .ok body) : Asked d pairId body := by
  simp only [Device.ask, bind_ok, demand_ok] at h
  obtain ⟨_, _, job, hjob, target, htarget, _, _, _, _, h⟩ := h
  rw [← pure_ok.mp h]
  exact ⟨job, target, hjob, rfl, rfl, htarget, rfl⟩

/-- A result is for the request that was asked. -/
theorem acceptable_ok {question : String × String × String × Request} {result : Result}
    (h : d.acceptable p self pairId body sender question result = .ok ()) :
    ∃ row, d.pairs.get? pairId = some row ∧ row.remote = sender ∧ question.2.2.2 = body := by
  simp only [Device.acceptable, bind_ok, require_ok] at h
  obtain ⟨row, hrow, _, hsender, _, hquestion, _⟩ := h
  exact ⟨row, Device.pair_ok hrow, hsender, by rw [hquestion]⟩

/-- A target is the one before or newly confirmed, or it waits in a new job. -/
def TargetKept (p : Platform) (w : World) (self id : String) (job' : Job) (pairId : String)
    (target' : Target) : Prop :=
  (∃ job target, (w.device self).outgoing.get? id = some job ∧
    job'.category = job.category ∧ job'.manifest = job.manifest ∧
    job.targets.get? pairId = some target ∧ target'.peerId = target.peerId ∧
    target'.epoch = target.epoch ∧
    (target'.state = .confirmed → target.state = .confirmed ∨
      Confirmed p w target.peerId pairId id job.category job.manifest target.epoch)) ∨
  target'.peerId = p.partner self pairId ∧ target'.state = .queued

theorem TargetKept.same {target : Target} (hjob : (w.device self).outgoing.get? id = some job)
    (htarget : job.targets.get? pairId = some target) :
    TargetKept p w self id job pairId target :=
  .inl ⟨job, target, hjob, rfl, rfl, htarget, rfl, rfl, .inl⟩

theorem Receipts.step (h : Receipts p w) (hkept : ∀ self, (w.device self).Kept (w'.device self))
    (hpairs : ∀ self id pair, (w'.device self).pairs.get? id = some pair →
      pair.remote = p.partner self id)
    (hproposals : ∀ self id job, .proposing self id job ∈ w'.tasks →
      .proposing self id job ∈ w.tasks ∨ job.Queued p self)
    (hasking : ∀ self pairId body, .asking self pairId body ∈ w'.tasks →
      .asking self pairId body ∈ w.tasks ∨ Asked (w.device self) pairId body)
    (hreplies : ∀ pairId sender receiver question result,
      .reply pairId sender receiver question result ∈ w'.sent → result.state = .confirmed →
        .reply pairId sender receiver question result ∈ w.sent ∨
          Confirmed p w' sender pairId question.2.2.2.id question.2.2.2.category
            question.2.2.2.manifest question.2.2.2.epoch)
    (htargets : ∀ self id job' pairId target', (w'.device self).outgoing.get? id = some job' →
      job'.targets.get? pairId = some target' → TargetKept p w self id job' pairId target') :
    Receipts p w' where
  pairs := hpairs
  proposals := by
    intro self id job hmem
    rcases hproposals self id job hmem with hold | hnew
    · exact h.proposals self id job hold
    · exact hnew
  asking := by
    intro self pairId body hmem
    rcases hasking self pairId body hmem with hold | hnew
    · exact (h.asking self pairId body hold).kept (hkept self)
    · exact hnew.kept (hkept self)
  replies := by
    intro pairId sender receiver question result hmem hstate
    rcases hreplies pairId sender receiver question result hmem hstate with hold | hnew
    · exact (h.replies pairId sender receiver question result hold hstate).kept (hkept sender)
    · exact hnew
  targets := by
    intro self id job' pairId target' hjob' htarget'
    rcases htargets self id job' pairId target' hjob' htarget' with
      ⟨job, target, hjob, hcategory, hmanifest, htarget, hpeer, hepoch, hstate⟩ | ⟨hpeer, hqueued⟩
    · obtain ⟨hpartner, hconfirmed⟩ := h.targets self id job pairId target hjob htarget
      refine ⟨hpeer.trans hpartner, ?_⟩
      intro hnow
      rw [hcategory, hmanifest, hepoch, hpeer]
      rcases hstate hnow with hold | hnew
      · exact (hconfirmed hold).kept (hkept _)
      · exact hnew.kept (hkept _)
    · refine ⟨hpeer, ?_⟩
      intro hnow
      rw [hqueued] at hnow
      cases hnow

/-- A task about the device's own entries. -/
def Task.Local : Task → Prop
  | .proposing .. | .asking .. => False
  | _ => True

theorem Receipts.quiet (h : Receipts p w) (hkept : ∀ self, (w.device self).Kept (w'.device self))
    (hdevices : ∀ self, (w'.device self).pairs = (w.device self).pairs ∧
      (w'.device self).outgoing = (w.device self).outgoing)
    (htasks : ∀ task ∈ w'.tasks, task ∈ w.tasks ∨ task.Local) (hsent : w'.sent = w.sent) :
    Receipts p w' := by
  refine h.step hkept ?_ ?_ ?_ ?_ ?_
  · intro self id pair hget
    rw [(hdevices self).1] at hget
    exact h.pairs self id pair hget
  · exact fun self id job hmem => .inl ((htasks _ hmem).resolve_right (·))
  · exact fun self pairId body hmem => .inl ((htasks _ hmem).resolve_right (·))
  · intro pairId sender receiver question result hmem _
    rw [hsent] at hmem
    exact .inl hmem
  · intro self id job pairId target hjob htarget
    rw [(hdevices self).2] at hjob
    exact .same hjob htarget

theorem withDevice_keeps {α : Type} (f : Device → α) (h : f d = f (w.device self))
    (other : String) : f ((w.withDevice self d).device other) = f (w.device other) := by
  show f (if other = self then d else w.device other) = _
  split
  · next hother =>
    rw [hother]
    exact h
  · rfl

theorem withDevice_same
    (h : d.pairs = (w.device self).pairs ∧ d.outgoing = (w.device self).outgoing) (other : String) :
    ((w.withDevice self d).device other).pairs = (w.device other).pairs ∧
      ((w.withDevice self d).device other).outgoing = (w.device other).outgoing :=
  ⟨withDevice_keeps (·.pairs) h.1 other, withDevice_keeps (·.outgoing) h.2 other⟩

theorem Receipts.update (h : Receipts p w) {state : State} {completedAt : Option Rat}
    (hkept : ∀ other, (w.device other).Kept (w'.device other))
    (hdevice : ∀ other, w'.device other = if other = self then
      (w.device self).update id pairId state completedAt else w.device other)
    (htasks : ∀ task, task ∈ w'.tasks → task ∈ w.tasks) (hsent : w'.sent = w.sent)
    (hstate : state = .confirmed → ∀ job target, (w.device self).outgoing.get? id = some job →
      job.targets.get? pairId = some target →
        Confirmed p w target.peerId pairId id job.category job.manifest target.epoch) :
    Receipts p w' := by
  refine h.step hkept ?_ ?_ ?_ ?_ ?_
  · intro other j pair hget
    rw [hdevice] at hget
    split at hget
    · next hother =>
      rw [hother]
      rw [(Device.update_same ..).1] at hget
      exact h.pairs self j pair hget
    · exact h.pairs other j pair hget
  · exact fun other j job hmem => .inl (htasks _ hmem)
  · exact fun other j body hmem => .inl (htasks _ hmem)
  · intro j sender receiver question result hmem _
    rw [hsent] at hmem
    exact .inl hmem
  · intro other j job' k target' hjob' htarget'
    rw [hdevice] at hjob'
    split at hjob'
    · next hother =>
      rcases Device.update_cases (w.device self) id pairId state completedAt with hd |
          ⟨job, target, target'', hjob, htarget, _, hpeer, hepoch, hnow, hd⟩
      · rw [hd] at hjob'
        rw [hother]
        exact .same hjob' htarget'
      · rw [hd, Device.get?_putOutgoing] at hjob'
        split at hjob'
        · next hj =>
          obtain rfl := Option.some.inj hjob'
          rw [Job.get?_putTarget] at htarget'
          rw [hother, hj]
          split at htarget'
          · next hk =>
            obtain rfl := Option.some.inj htarget'
            rw [hk]
            refine .inl ⟨job, target, hjob, rfl, rfl, htarget, hpeer, hepoch, ?_⟩
            intro hconfirmed
            exact .inr (hstate (hnow.symm.trans hconfirmed) job target hjob htarget)
          · exact .inl ⟨job, target', hjob, rfl, rfl, htarget', rfl, rfl, .inl⟩
        · rw [hother]
          exact .same hjob' htarget'
    · exact .same hjob' htarget'

variable {rest : List Task}

theorem mem_of_perm {task other : Task} {tasks : List Task} (h : tasks.Perm (task :: rest))
    (hmem : other ∈ rest) : other ∈ tasks :=
  h.mem_iff.mpr (.tail _ hmem)

theorem tasks_cons {task : Task} {tasks : List Task} (hlocal : task.Local)
    (h : ∀ other ∈ rest, other ∈ tasks) : ∀ other ∈ task :: rest, other ∈ tasks ∨ other.Local := by
  intro other hmem
  rcases List.mem_cons.mp hmem with rfl | hmem
  · exact .inr hlocal
  · exact .inl (h other hmem)

/-- One step keeps every receipt true. -/
theorem Receipts.next (h : Receipts p w) (hstep : Step p w actor w') : Receipts p w' := by
  have hkept := kept_step hstep
  cases hstep with
  | arrange self pairs hpairs =>
    refine h.step hkept ?_ (fun _ _ _ hmem => .inl hmem) (fun _ _ _ hmem => .inl hmem)
      (fun _ _ _ _ _ hmem _ => .inl hmem) ?_
    · intro other id pair hget
      simp only [World.withDevice] at hget
      split at hget
      · next hother =>
        rw [hother]
        exact hpairs id pair hget
      · exact h.pairs other id pair hget
    · intro other id job pairId target hjob htarget
      have hsame := withDevice_keeps (w := w) (d := { w.device self with pairs })
        (·.outgoing) rfl other
      exact .same (hsame ▸ hjob) htarget
  | propose self id category pairIds hpropose =>
    refine h.step hkept h.pairs ?_ ?_ (fun _ _ _ _ _ hmem _ => .inl hmem) ?_
    · intro other j job hmem
      rcases List.mem_cons.mp hmem with heq | hmem
      · obtain ⟨rfl, _, rfl⟩ := Task.proposing.inj heq
        exact .inr (propose_queued (h.pairs other) hpropose)
      · exact .inl hmem
    · intro other pairId body hmem
      rcases List.mem_cons.mp hmem with heq | hmem
      · cases heq
      · exact .inl hmem
    · exact fun _ _ _ _ _ => .same
  | @begin self id job rest htask d hbegin =>
    have hqueued := h.proposals self id job (htask.mem_iff.mpr (.head _))
    refine h.step hkept ?_ (fun _ _ _ hmem => .inl (mem_of_perm htask hmem))
      (fun _ _ _ hmem => .inl (mem_of_perm htask hmem))
      (fun _ _ _ _ _ hmem _ => .inl hmem) ?_
    · intro other j pair hget
      rw [withDevice_keeps (·.pairs) (Device.begin_same hbegin).1] at hget
      exact h.pairs other j pair hget
    · intro other j job' pairId target hjob htarget
      simp only [World.withDevice] at hjob
      split at hjob
      · next hother =>
        rcases Device.begin_ok hbegin with hd | ⟨_, hd⟩
        · rw [hd, ← hother] at hjob
          exact .same hjob htarget
        · rw [hd, Device.get?_putOutgoing] at hjob
          split at hjob
          · obtain rfl := Option.some.inj hjob
            rw [hother]
            exact .inr (hqueued pairId target htarget)
          · rw [← hother] at hjob
            exact .same hjob htarget
      · exact .same hjob htarget
  | ask self id pairId nonce hask =>
    refine h.step hkept h.pairs ?_ ?_ ?_ ?_
    · intro other j job hmem
      rcases List.mem_cons.mp hmem with heq | hmem
      · cases heq
      · exact .inl hmem
    · intro other j body hmem
      rcases List.mem_cons.mp hmem with heq | hmem
      · obtain ⟨rfl, rfl, rfl⟩ := Task.asking.inj heq
        exact .inr (ask_ok hask)
      · exact .inl hmem
    · intro j sender receiver question result hmem _
      rcases List.mem_cons.mp hmem with heq | hmem
      · cases heq
      · exact .inl hmem
    · exact fun _ _ _ _ _ => .same
  | @settle self pairId body rest htask sender question result hsent hacceptable =>
    refine h.update hkept (fun _ => rfl) (fun _ hmem => mem_of_perm htask hmem) rfl ?_
    intro hconfirmed job target hjob htarget
    obtain ⟨row, hrow, hsender, hquestion⟩ := acceptable_ok hacceptable
    have hreply := h.replies pairId sender self question result hsent hconfirmed
    obtain ⟨job', target', hjob', hcategory, hmanifest, htarget', hepoch⟩ :=
      h.asking self pairId body (htask.mem_iff.mpr (.head _))
    rw [hjob] at hjob'
    obtain rfl := Option.some.inj hjob'
    rw [htarget] at htarget'
    obtain rfl := Option.some.inj htarget'
    have hpartner := (h.targets self body.id job pairId target hjob htarget).1
    rw [hquestion, ← hsender, h.pairs self pairId row hrow] at hreply
    rw [hpartner, hcategory, hmanifest, hepoch]
    exact hreply
  | lapse self id pairId state hstate htask =>
    refine h.update hkept (fun _ => rfl) ?_ rfl ?_
    · intro task hmem
      rcases htask with hsame | ⟨body, hperm⟩
      · rw [hsame]
        exact hmem
      · exact mem_of_perm hperm hmem
    · intro hconfirmed
      rcases hstate with hstate | hstate
      · rw [hstate] at hconfirmed
        cases hconfirmed
      · rw [hstate] at hconfirmed
        cases hconfirmed
  | @receive self pairId sender body hsent d reply hreceive =>
    obtain ⟨entry, result, hentry, hreply, hshown, hid, hcategory, hmanifest, hepoch, hpair,
      hd⟩ := Device.receive_ok hreceive
    have hdevice : ∀ other, (w.withDevice self d).device other =
        if other = self then d else w.device other := fun _ => rfl
    have hd' : d.pairs = (w.device self).pairs ∧ d.outgoing = (w.device self).outgoing := by
      rcases hd with hd | ⟨_, hd, _⟩
      · rw [hd]
        exact ⟨rfl, rfl⟩
      · rw [hd]
        exact ⟨rfl, rfl⟩
    have hsame := withDevice_same hd'
    refine h.step hkept ?_ (fun _ _ _ hmem => .inl hmem) (fun _ _ _ hmem => .inl hmem) ?_ ?_
    · intro other id pair hget
      have hother := (hsame other).1
      exact h.pairs other id pair (hother ▸ hget)
    · intro j origin receiver question shown hmem hstate
      rcases List.mem_cons.mp hmem with heq | hmem
      · rw [hreply] at heq
        obtain ⟨rfl, rfl, rfl, rfl, rfl⟩ := Wire.reply.inj heq
        refine .inr ⟨entry, ?_, hshown.trans hstate, hid, hcategory, hmanifest, hepoch, hpair⟩
        show ((w.withDevice origin d).device origin).incoming.get? _ = _
        rw [hdevice, if_pos rfl]
        exact hentry
      · exact .inl hmem
    · intro other id job k target hjob htarget
      have hother := (hsame other).2
      exact .inl ⟨job, target, hother ▸ hjob, rfl, rfl, htarget, rfl, rfl, .inl⟩
  | preview self key review htoken howned hstate =>
    exact h.quiet hkept (fun _ => ⟨rfl, rfl⟩) (tasks_cons trivial fun _ hmem => hmem) rfl
  | @record self key review rest htask d hrecord =>
    obtain ⟨entry, _, _, hd⟩ := Device.record_ok hrecord
    exact h.quiet hkept (withDevice_same (by rw [hd]; exact ⟨rfl, rfl⟩))
      (fun _ hmem => .inl (mem_of_perm htask hmem)) rfl
  | approve self key token htoken howned =>
    exact h.quiet hkept (fun _ => ⟨rfl, rfl⟩) (tasks_cons trivial fun _ hmem => hmem) rfl
  | @decide self key token entry rest htask d hdecide =>
    obtain ⟨found, _, _, _, hd⟩ := Device.decide_ok hdecide
    exact h.quiet hkept (withDevice_same (by rw [hd]; exact ⟨rfl, rfl⟩))
      (tasks_cons trivial fun _ => mem_of_perm htask) rfl
  | authorize htask hpair | execute htask report | verify htask hphases hpair =>
    exact h.quiet hkept (fun _ => ⟨rfl, rfl⟩) (tasks_cons trivial fun _ => mem_of_perm htask) rfl
  | complete htask clock hcurrent hstate =>
    refine h.quiet hkept (withDevice_same ?_) (fun _ hmem => .inl (mem_of_perm htask hmem)) rfl
    rw [Device.complete_eq hcurrent hstate]
    exact ⟨rfl, rfl⟩
  | @fail self key token entry stage rest htask hstage =>
    have hd : ((w.device self).fail key).pairs = (w.device self).pairs ∧
        ((w.device self).fail key).outgoing = (w.device self).outgoing := by
      rcases Device.fail_cases (w.device self) key with hd | ⟨_, _, _, hd⟩
      · rw [hd]
        exact ⟨rfl, rfl⟩
      · rw [hd]
        exact ⟨rfl, rfl⟩
    exact h.quiet hkept (withDevice_same hd) (fun _ hmem => .inl (mem_of_perm htask hmem))
      rfl
  | reject self key howned =>
    exact h.quiet hkept (fun _ => ⟨rfl, rfl⟩) (tasks_cons trivial fun _ hmem => hmem) rfl
  | @refuse self key rest htask d hreject =>
    obtain ⟨entry, _, _, hd⟩ := Device.reject_ok hreject
    exact h.quiet hkept (withDevice_same (by rw [hd]; exact ⟨rfl, rfl⟩))
      (fun _ hmem => .inl (mem_of_perm htask hmem)) rfl
  | drop htask =>
    exact h.quiet hkept (fun _ => ⟨rfl, rfl⟩) (fun _ hmem => .inl (mem_of_perm htask hmem)) rfl

/-! ### Reviews -/

/-- The last review of an entry that was stored. -/
def LastReviewed (history : List Event) (self key token : String) : Prop :=
  ∃ later earlier, history = later ++ .reviewed self key token :: earlier ∧
    ∀ t, .reviewed self key t ∉ later

variable {key : String} {history : List Event}

variable {added : List Event}

theorem LastReviewed.append (h : LastReviewed history self key token)
    (hadded : ∀ t, .reviewed self key t ∉ added) :
    LastReviewed (added ++ history) self key token := by
  obtain ⟨later, earlier, hsplit, hlater⟩ := h
  refine ⟨added ++ later, earlier, by rw [hsplit, List.append_assoc], ?_⟩
  intro t hmem
  rcases List.mem_append.mp hmem with hmem | hmem
  · exact hadded t hmem
  · exact hlater t hmem

/-- What the history says of an entry. -/
structure EntryFair (history : List Event) (device key : String) (entry : Entry) : Prop where
  reviewed : ∀ review, entry.review = some review →
    LastReviewed history device key review.reviewToken
  unreviewed : entry.review = none → ∀ t, .reviewed device key t ∉ history
  approved : ∀ token, entry.approvedToken = some token → entry.state ≠ .awaitingOwner ∧
    entry.review.map Review.reviewToken = some token
  confirmed : entry.state = .confirmed → ∃ token, entry.approvedToken = some token ∧
    .completed device key token ∈ history ∧
    .ran device key entry.category token (some (phases entry.category)) ∈ history

theorem EntryFair.append (h : EntryFair history self key entry)
    (hadded : ∀ t, .reviewed self key t ∉ added) : EntryFair (added ++ history) self key entry where
  reviewed := fun review hreview => (h.reviewed review hreview).append hadded
  unreviewed := by
    intro hnone t hmem
    rcases List.mem_append.mp hmem with hmem | hmem
    · exact hadded t hmem
    · exact h.unreviewed hnone t hmem
  approved := h.approved
  confirmed := by
    intro hstate
    obtain ⟨token, htoken, hcompleted, hran⟩ := h.confirmed hstate
    exact ⟨token, htoken, List.mem_append_right _ hcompleted, List.mem_append_right _ hran⟩

theorem EntryFair.moved (h : EntryFair history self key entry) {state : State}
    (hawaiting : state ≠ .awaitingOwner) (hconfirmed : state ≠ .confirmed) :
    EntryFair history self key { entry with state } where
  reviewed := h.reviewed
  unreviewed := h.unreviewed
  approved := fun token htoken => ⟨hawaiting, (h.approved token htoken).2⟩
  confirmed := fun hstate => absurd hstate hconfirmed

/-- The token that `approve` accepts is the one of the review. -/
theorem EntryFair.chosen (h : EntryFair history self key entry)
    (hchosen : entry.approvedToken.or (entry.review.map Review.reviewToken) = some token) :
    entry.review.map Review.reviewToken = some token := by
  cases htoken : entry.approvedToken with
  | none =>
    rw [htoken] at hchosen
    exact hchosen
  | some approved =>
    rw [htoken] at hchosen
    rw [(h.approved approved htoken).2]
    exact hchosen

/-- What the history says of a call of `approve` that is under way. -/
structure CallFair (history : List Event) (device key token : String) (category : Category)
    (current : Entry) (stage : Stage) : Prop where
  same : current.category = category
  approved : stage ≠ .checked →
    current.approvedToken = some token ∧ .approved device key token ∈ history
  ran : ∀ found, stage = .executed found ∨ stage = .verified found →
    .ran device key category token (some found) ∈ history
  verified : ∀ found, stage = .verified found → found = phases category

theorem CallFair.early {current : Entry} {stage : Stage} (hsame : current.category = category)
    (happroved : stage ≠ .checked →
      current.approvedToken = some token ∧ .approved self key token ∈ history)
    (hstage : ∀ found, stage ≠ .executed found ∧ stage ≠ .verified found) :
    CallFair history self key token category current stage where
  same := hsame
  approved := happroved
  ran := by
    rintro found (heq | heq)
    · exact absurd heq (hstage found).1
    · exact absurd heq (hstage found).2
  verified := fun found heq => absurd heq (hstage found).2

theorem CallFair.kept {current current' : Entry} {stage : Stage}
    (h : CallFair history self key token category current stage) (hkept : current.Kept current') :
    CallFair (added ++ history) self key token category current' stage where
  same := hkept.category.trans h.same
  approved := by
    intro hstage
    obtain ⟨htoken, hmem⟩ := h.approved hstage
    exact ⟨hkept.approved token htoken, List.mem_append_right _ hmem⟩
  ran := fun found hstage => List.mem_append_right _ (h.ran found hstage)
  verified := h.verified

structure Reviews (w : World) : Prop where
  entries : ∀ self key entry, (w.device self).incoming.get? key = some entry →
    EntryFair w.history self key entry
  unseen : ∀ self key, (w.device self).incoming.get? key = none →
    ∀ t, .reviewed self key t ∉ w.history
  calls : ∀ self key token entry stage, .approving self key token entry stage ∈ w.tasks →
    ∃ current, (w.device self).incoming.get? key = some current ∧
      CallFair w.history self key token entry.category current stage

/-- Every approving call was there before, or is a fair one. -/
def CallsFair (w w' : World) : Prop :=
  ∀ self key token entry stage, .approving self key token entry stage ∈ w'.tasks →
    .approving self key token entry stage ∈ w.tasks ∨
      ∃ current, (w'.device self).incoming.get? key = some current ∧
        CallFair w'.history self key token entry.category current stage

theorem CallsFair.finish {task : Task} (htask : w.tasks.Perm (task :: w'.tasks)) :
    CallsFair w w' :=
  fun _ _ _ _ _ hmem => .inl (mem_of_perm htask hmem)

theorem CallsFair.start {task : Task} (htasks : w'.tasks = task :: w.tasks)
    (hother : ∀ self key token entry stage, .approving self key token entry stage ≠ task) :
    CallsFair w w' := by
  intro self key token entry stage hmem
  rw [htasks] at hmem
  exact .inl (List.mem_of_ne_of_mem (hother self key token entry stage) hmem)

theorem Reviews.step (h : Reviews w) (hkept : ∀ self, (w.device self).Kept (w'.device self))
    (added : List Event) (hhistory : w'.history = added ++ w.history)
    (hentries : ∀ self key entry', (w'.device self).incoming.get? key = some entry' →
      ((w.device self).incoming.get? key = some entry' ∧ ∀ t, .reviewed self key t ∉ added) ∨
        EntryFair w'.history self key entry')
    (hunseen : ∀ self key t, .reviewed self key t ∈ added →
      (w'.device self).incoming.get? key ≠ none)
    (hcalls : CallsFair w w') : Reviews w' where
  entries := by
    intro self key entry' hget
    rcases hentries self key entry' hget with ⟨hold, hadded⟩ | hnew
    · rw [hhistory]
      exact (h.entries self key entry' hold).append hadded
    · exact hnew
  unseen := by
    intro self key hnone t hmem
    rw [hhistory] at hmem
    rcases List.mem_append.mp hmem with hmem | hmem
    · exact hunseen self key t hmem hnone
    · cases hget : (w.device self).incoming.get? key with
      | none => exact h.unseen self key hget t hmem
      | some entry =>
        obtain ⟨entry', hget', _⟩ := (hkept self).incoming key entry hget
        rw [hnone] at hget'
        cases hget'
  calls := by
    intro self key token entry stage hmem
    rcases hcalls self key token entry stage hmem with hold | hnew
    · obtain ⟨current, hcurrent, hfair⟩ := h.calls self key token entry stage hold
      obtain ⟨current', hcurrent', hsame⟩ := (hkept self).incoming key current hcurrent
      rw [hhistory]
      exact ⟨current', hcurrent', hfair.kept hsame⟩
    · exact hnew

theorem Reviews.quiet (h : Reviews w) (hkept : ∀ self, (w.device self).Kept (w'.device self))
    (added : List Event) (hhistory : w'.history = added ++ w.history)
    (hincoming : ∀ self, (w'.device self).incoming = (w.device self).incoming)
    (hadded : ∀ self key t, .reviewed self key t ∉ added)
    (hcalls : CallsFair w w') : Reviews w' := by
  refine h.step hkept added hhistory ?_ ?_ hcalls
  · intro self key entry' hget
    rw [hincoming self] at hget
    exact .inl ⟨hget, hadded self key⟩
  · intro self key t hmem
    exact absurd hmem (hadded self key t)

theorem Reviews.write (h : Reviews w) (hkept : ∀ self, (w.device self).Kept (w'.device self))
    (added : List Event) (hhistory : w'.history = added ++ w.history)
    (hincoming : ∀ other j, (w'.device other).incoming.get? j =
      if other = self ∧ j = key then some entry' else (w.device other).incoming.get? j)
    (hadded : ∀ other j t, .reviewed other j t ∈ added → other = self ∧ j = key)
    (hfair : EntryFair w'.history self key entry')
    (hcalls : CallsFair w w') : Reviews w' := by
  refine h.step hkept added hhistory ?_ ?_ hcalls
  · intro other j found hget
    rw [hincoming] at hget
    split at hget
    · next hsame =>
      obtain rfl := Option.some.inj hget
      rw [hsame.1, hsame.2]
      exact .inr hfair
    · next hsame => exact .inl ⟨hget, fun t hmem => hsame (hadded other j t hmem)⟩
  · intro other j t hmem
    rw [hincoming, if_pos (hadded other j t hmem)]
    nofun

theorem incoming_write (w : World) (self key : String) (entry' : Entry) (other j : String) :
    ((w.withDevice self ((w.device self).putIncoming key entry')).device other).incoming.get? j =
      if other = self ∧ j = key then some entry' else (w.device other).incoming.get? j := by
  show (if other = self then (w.device self).putIncoming key entry'
    else w.device other).incoming.get? j = _
  by_cases hother : other = self
  · rw [if_pos hother, Device.get?_putIncoming, hother]
    by_cases hj : j = key
    · rw [if_pos hj, if_pos ⟨rfl, hj⟩]
    · rw [if_neg hj, if_neg fun h => hj h.2]
  · rw [if_neg hother, if_neg fun h => hother h.1]

theorem CallsFair.advance {stage : Stage} {old : Task} (htask : w.tasks.Perm (old :: rest))
    (htasks : w'.tasks = .approving self key token entry stage :: rest)
    (hnew : ∃ current, (w'.device self).incoming.get? key = some current ∧
      CallFair w'.history self key token entry.category current stage) : CallsFair w w' := by
  intro other j t found stage' hmem
  rw [htasks] at hmem
  rcases List.mem_cons.mp hmem with heq | hmem
  · obtain ⟨rfl, rfl, rfl, rfl, rfl⟩ := Task.approving.inj heq
    exact .inr hnew
  · exact .inl (mem_of_perm htask hmem)

theorem Reviews.next (h : Reviews w) (hstep : Step p w actor w') : Reviews w' := by
  have hkept := kept_step hstep
  cases hstep with
  | arrange self pairs hpairs =>
    exact h.quiet hkept [] rfl (withDevice_keeps (·.incoming) rfl) (by simp) fun _ _ _ _ _ => .inl
  | propose self id category pairIds hpropose =>
    exact h.quiet hkept [] rfl (fun _ => rfl) (by simp) (.start rfl (by simp))
  | begin htask hbegin =>
    exact h.quiet hkept [] rfl (withDevice_keeps (·.incoming) (Device.begin_same hbegin).2)
      (by simp) (.finish htask)
  | ask self id pairId nonce hask =>
    exact h.quiet hkept [] rfl (fun _ => rfl) (by simp) (.start rfl (by simp))
  | @settle self pairId body rest htask sender question result hsent hacceptable =>
    exact h.quiet hkept [] rfl (withDevice_keeps (·.incoming) (Device.update_same ..).2) (by simp)
      (.finish htask)
  | lapse self id pairId state hstate htask =>
    refine h.quiet hkept [] rfl (withDevice_keeps (·.incoming) (Device.update_same ..).2)
      (by simp) ?_
    intro other j t found stage hmem
    rcases htask with hsame | ⟨body, hperm⟩
    · rw [hsame]
      exact .inl hmem
    · exact .inl (mem_of_perm hperm hmem)
  | @receive self pairId sender body hsent d reply hreceive =>
    obtain ⟨entry, result, _, _, _, _, _, _, _, _, hd⟩ := Device.receive_ok hreceive
    rcases hd with hd | ⟨hnone, hd, hstate, hreview, htoken⟩
    · exact h.quiet hkept [] rfl (withDevice_keeps (·.incoming) (by rw [hd])) (by simp)
        fun _ _ _ _ _ => .inl
    · subst hd
      refine h.write hkept [] rfl (incoming_write w self _ entry) (by simp) ?_
        fun _ _ _ _ _ => .inl
      refine ⟨?_, ?_, ?_, ?_⟩
      · intro review hsome
        rw [hreview] at hsome
        cases hsome
      · exact fun _ => h.unseen self _ hnone
      · intro token hsome
        rw [htoken] at hsome
        cases hsome
      · intro hconfirmed
        rw [hstate] at hconfirmed
        cases hconfirmed
  | preview self key review htoken howned hstate =>
    exact h.quiet hkept [] rfl (fun _ => rfl) (by simp) (.start rfl (by simp))
  | @record self key review rest htask d hrecord =>
    obtain ⟨entry, hentry, hstate, hd⟩ := Device.record_ok hrecord
    subst hd
    have hold := h.entries self key entry hentry
    refine h.write hkept [.reviewed self key review.reviewToken] rfl
      (incoming_write w self key _) ?_ ?_ (.finish htask)
    · intro other j t hmem
      obtain ⟨hother, hj, _⟩ := Event.reviewed.inj (List.mem_singleton.mp hmem)
      exact ⟨hother, hj⟩
    · refine ⟨?_, ?_, ?_, ?_⟩
      · intro review' hreview'
        obtain rfl := Option.some.inj hreview'
        exact ⟨[], w.history, rfl, by simp⟩
      · intro hnone
        cases hnone
      · intro token htoken
        exact absurd hstate (hold.approved token htoken).1
      · intro hconfirmed
        have hcurrent : entry.state = .confirmed := hconfirmed
        rw [hstate] at hcurrent
        cases hcurrent
  | @approve self key token htoken entry howned =>
    refine h.quiet hkept [] rfl (fun _ => rfl) (by simp) ?_
    intro other j t found stage hmem
    rcases List.mem_cons.mp hmem with heq | hmem
    · obtain ⟨rfl, rfl, rfl, rfl, rfl⟩ := Task.approving.inj heq
      simp only [Device.owned, bind_ok, demand_ok] at howned
      obtain ⟨_, _, entry', hentry, _, _, howned⟩ := howned
      obtain rfl := pure_ok.mp howned
      exact .inr ⟨entry', hentry, .early rfl (fun hne => absurd rfl hne) (by simp)⟩
    · exact .inl hmem
  | @decide self key token entry rest htask d hdecide =>
    obtain ⟨current, hcurrent, hfinal, hchosen, hd⟩ := Device.decide_ok hdecide
    subst hd
    have hold := h.entries self key current hcurrent
    have hreview := hold.chosen hchosen
    have hfair : EntryFair ([.approved self key token] ++ w.history) self key current :=
      hold.append (by simp)
    refine h.write hkept [.approved self key token] rfl (incoming_write w self key _) ?_ ?_
      (.advance htask rfl ?_)
    · intro other j t hmem
      cases List.mem_singleton.mp hmem
    · refine ⟨hfair.reviewed, hfair.unreviewed, ?_, ?_⟩
      · intro token' htoken'
        obtain rfl := Option.some.inj htoken'
        exact ⟨(fun hstate => by cases hstate), hreview⟩
      · intro hconfirmed
        cases hconfirmed
    · obtain ⟨found, hfound, hcall⟩ := h.calls self key token entry .checked
        (htask.mem_iff.mpr (.head _))
      rw [hcurrent] at hfound
      obtain rfl := Option.some.inj hfound
      exact ⟨_, (incoming_write w self key _ self key).trans (if_pos ⟨rfl, rfl⟩),
        .early hcall.same (fun _ => ⟨rfl, (.head _)⟩) (by simp)⟩
  | @authorize self key token entry rest htask row hpair =>
    refine h.quiet hkept [] rfl (fun _ => rfl) (by simp) (.advance htask rfl ?_)
    obtain ⟨current, hcurrent, hcall⟩ := h.calls self key token entry .decided
      (htask.mem_iff.mpr (.head _))
    exact ⟨current, hcurrent, .early hcall.same (fun _ => hcall.approved (by simp)) (by simp)⟩
  | @execute self key token entry rest htask report =>
    refine h.quiet hkept [.ran self key entry.category token
      (execute entry.category token report).toOption] rfl (fun _ => rfl) (by simp)
      (.advance htask rfl ?_)
    obtain ⟨current, hcurrent, hcall⟩ := h.calls self key token entry .authorized
      (htask.mem_iff.mpr (.head _))
    obtain ⟨htoken, happroved⟩ := hcall.approved (by simp)
    refine ⟨current, hcurrent, ?_⟩
    have happroved' := List.mem_cons_of_mem (.ran self key entry.category token
      (execute entry.category token report).toOption) happroved
    cases hexecute : execute entry.category token report with
    | error code => exact .early hcall.same (fun _ => ⟨htoken, hexecute ▸ happroved'⟩) (by simp)
    | ok found =>
      refine ⟨hcall.same, fun _ => ⟨htoken, hexecute ▸ happroved'⟩, ?_, by simp⟩
      rintro found' (hstage | hstage)
      · obtain rfl := Stage.executed.inj hstage
        exact (.head _)
      · cases hstage
  | @verify self key token entry found rest htask hphases row hpair =>
    refine h.quiet hkept [] rfl (fun _ => rfl) (by simp) (.advance htask rfl ?_)
    obtain ⟨current, hcurrent, hcall⟩ := h.calls self key token entry (.executed found)
      (htask.mem_iff.mpr (.head _))
    refine ⟨current, hcurrent, hcall.same, fun _ => hcall.approved (by simp), ?_, ?_⟩
    · rintro found' (hstage | hstage)
      · cases hstage
      · obtain rfl := Stage.verified.inj hstage
        exact hcall.ran found (.inl rfl)
    · intro found' hstage
      obtain rfl := Stage.verified.inj hstage
      exact hphases
  | @complete self key token entry found rest htask clock current hcurrent hstate =>
    obtain ⟨current', hcurrent', hcall⟩ := h.calls self key token entry (.verified found)
      (htask.mem_iff.mpr (.head _))
    rw [hcurrent] at hcurrent'
    obtain rfl := Option.some.inj hcurrent'
    have hold := h.entries self key current hcurrent
    have hfair : EntryFair ([.completed self key token] ++ w.history) self key current :=
      hold.append (by simp)
    obtain ⟨htoken, _⟩ := hcall.approved (by simp)
    have hran := hcall.ran found (.inr rfl)
    rw [hcall.verified found rfl] at hran
    have hwrite := incoming_write w self key
      { current with state := .confirmed, phases := some found, completedAt := some clock }
    rw [← Device.complete_eq hcurrent hstate] at hwrite
    refine h.write hkept [.completed self key token] rfl hwrite ?_ ?_
      (.finish htask)
    · intro other j t hmem
      cases List.mem_singleton.mp hmem
    · refine ⟨hfair.reviewed, hfair.unreviewed, ?_, ?_⟩
      · intro token' htoken'
        exact ⟨(fun hnow => by cases hnow), (hold.approved token' htoken').2⟩
      · intro _
        have hcategory : current.category = entry.category := hcall.same
        rw [← hcategory] at hran
        exact ⟨token, htoken, (.head _), .tail _ hran⟩
  | @fail self key token entry stage rest htask hstage =>
    rcases Device.fail_cases (w.device self) key with hd | ⟨found, hfound, hfinal, hd⟩
    · exact h.quiet hkept [] rfl (withDevice_keeps (·.incoming) (by rw [hd])) (by simp)
        (.finish htask)
    · have hold := h.entries self key found hfound
      have hwrite := incoming_write w self key { found with state := .incomplete }
      rw [← hd] at hwrite
      exact h.write hkept [] rfl hwrite (by simp) (hold.moved (by simp) (by simp))
        (.finish htask)
  | reject self key howned =>
    exact h.quiet hkept [] rfl (fun _ => rfl) (by simp) (.start rfl (by simp))
  | @refuse self key rest htask d hreject =>
    obtain ⟨found, hfound, _, hd⟩ := Device.reject_ok hreject
    subst hd
    have hold := h.entries self key found hfound
    exact h.write hkept [] rfl (incoming_write w self key _) (by simp)
      (hold.moved (by simp) (by simp)) (.finish htask)
  | drop htask =>
    exact h.quiet hkept [] rfl (fun _ => rfl) (by simp)
      (.finish htask)

/-- An approval is of the last review, an adapter runs after an approval, and an entry is
completed after its adapter returned all phases. -/
def Fair (event : Event) (past : List Event) : Prop :=
  (∀ self key token, event = .approved self key token → LastReviewed past self key token) ∧
  (∀ self key category token result, event = .ran self key category token result →
    .approved self key token ∈ past) ∧
  ∀ self key token, event = .completed self key token →
    ∃ category, .ran self key category token (some (phases category)) ∈ past

theorem fair_step (h : Reviews w) (hfair : Justified Fair w.history) (hstep : Step p w actor w') :
    Justified Fair w'.history := by
  cases hstep with
  | record htask hrecord => exact hfair.cons (by simp [Fair])
  | @decide self key token entry rest htask d hdecide =>
    obtain ⟨current, hcurrent, _, hchosen, _⟩ := Device.decide_ok hdecide
    have hold := h.entries self key current hcurrent
    refine hfair.cons ⟨?_, by simp, by simp⟩
    intro self' key' token' heq
    obtain ⟨rfl, rfl, rfl⟩ := Event.approved.inj heq
    have hreview := hold.chosen hchosen
    obtain ⟨review, hsome, htoken⟩ := Option.map_eq_some_iff.mp hreview
    rw [← htoken]
    exact hold.reviewed review hsome
  | @execute self key token entry rest htask report =>
    refine hfair.cons ⟨by simp, ?_, by simp⟩
    intro self' key' category' token' result heq
    obtain ⟨rfl, rfl, _, rfl, _⟩ := Event.ran.inj heq
    obtain ⟨_, _, hcall⟩ := h.calls self key token entry .authorized
      (htask.mem_iff.mpr (.head _))
    exact (hcall.approved (by simp)).2
  | @complete self key token entry found rest htask clock current hcurrent hstate =>
    refine hfair.cons ⟨by simp, by simp, ?_⟩
    intro self' key' token' heq
    obtain ⟨rfl, rfl, rfl⟩ := Event.completed.inj heq
    obtain ⟨_, _, hcall⟩ := h.calls self key token entry (.verified found)
      (htask.mem_iff.mpr (.head _))
    have hran := hcall.ran found (.inr rfl)
    rw [hcall.verified found rfl] at hran
    exact ⟨entry.category, hran⟩
  | _ => exact hfair

theorem reachable_spec (h : Reachable p w) :
    Receipts p w ∧ Reviews w ∧ Justified Fair w.history := by
  induction h with
  | initial =>
    refine ⟨⟨?_, ?_, ?_, ?_, ?_⟩, ⟨?_, ?_, ?_⟩, trivial⟩
    · intro self id pair hget
      cases hget
    · intro self id job hmem
      cases hmem
    · intro self pairId body hmem
      cases hmem
    · intro pairId sender receiver question result hmem
      cases hmem
    · intro self id job pairId target hjob
      cases hjob
    · intro self key entry hget
      cases hget
    · intro self key _ t hmem
      cases hmem
    · intro self key token entry stage hmem
      cases hmem
  | step _ hstep ih => exact ⟨ih.1.next hstep, ih.2.1.next hstep, fair_step ih.2.1 ih.2.2 hstep⟩

/-! ### The promises -/

structure Safe (p : Platform) (w : World) : Prop where
  /-- A confirmed target has its confirmed entry at the device it names. -/
  targets : ∀ self id job pairId target, (w.device self).outgoing.get? id = some job →
    job.targets.get? pairId = some target → target.state = .confirmed →
      Confirmed p w target.peerId pairId id job.category job.manifest target.epoch
  /-- A confirmed entry had all phases carried out, for the token its owner approved. -/
  entries : ∀ self key entry, (w.device self).incoming.get? key = some entry →
    entry.state = .confirmed → ∃ token, entry.approvedToken = some token ∧
      .completed self key token ∈ w.history ∧
      .ran self key entry.category token (some (phases entry.category)) ∈ w.history
  /-- Adapters run after the owner approved. -/
  ran : ∀ later past self key category token result,
    w.history = later ++ .ran self key category token result :: past →
      .approved self key token ∈ past
  /-- The owner approves the last review that was stored. -/
  approved : ∀ later past self key token,
    w.history = later ++ .approved self key token :: past → LastReviewed past self key token
  completed : ∀ later past self key token,
    w.history = later ++ .completed self key token :: past →
      ∃ category, .ran self key category token (some (phases category)) ∈ past
  /-- The handlers of peer messages run no adapter. -/
  peers : ∀ w', Step p w .peer w' → w'.history = w.history
  /-- Bindings and final states stay. -/
  forever : ∀ w', Leads p w w' → ∀ self, (w.device self).Kept (w'.device self)

/-- **Remote erasure confirmations are true**, in every reachable world. -/
theorem erasures_safe {w : World} (h : Reachable p w) : Safe p w := by
  obtain ⟨hreceipts, hreviews, hfair⟩ := reachable_spec h
  refine ⟨?_, ?_, ?_, ?_, ?_, fun _ hstep => peer_step hstep, fun _ hleads => kept_leads hleads⟩
  · intro self id job pairId target hjob htarget hstate
    exact (hreceipts.targets self id job pairId target hjob htarget).2 hstate
  · intro self key entry hget hstate
    exact (hreviews.entries self key entry hget).confirmed hstate
  · intro later past self key category token result hsplit
    have hevent := Justified.justified_iff.mp hfair later _ past hsplit
    exact hevent.2.1 self key category token result rfl
  · intro later past self key token hsplit
    have hevent := Justified.justified_iff.mp hfair later _ past hsplit
    exact hevent.1 self key token rfl
  · intro later past self key token hsplit
    have hevent := Justified.justified_iff.mp hfair later _ past hsplit
    exact hevent.2.2 self key token rfl

def sampleToken : String := "0000000000000000000000000000000000000000000000000000000000000000"

def sampleId : String := "00000000000000000000000000000000"

def samplePlatform : Platform where
  fingerprint _ := sampleToken
  partner self _ := if self = "laptop" then "phone" else "laptop"

def samplePair : Pair := ⟨true, "phone", "Phone", .null⟩

def sampleJob : Job :=
  ⟨.documents, sampleToken, Dict.empty.set sampleToken
    ⟨"phone", "Phone", sampleToken, .queued, none⟩⟩

def sampleRequest : Request := ⟨sampleId, .documents, sampleToken, sampleToken, sampleId⟩

def sampleArranged : World :=
  World.initial.withDevice "laptop" ⟨Dict.empty.set sampleToken samplePair, .empty, .empty⟩

def sampleBegun : World :=
  { sampleArranged with tasks := [.proposing "laptop" sampleId sampleJob] }.withDevice "laptop"
    ⟨Dict.empty.set sampleToken samplePair, Dict.empty.set sampleId sampleJob, .empty⟩

/-- A job was begun and its first request is on its way. -/
def sampleWorld : World :=
  { sampleBegun with
    sent := [.request sampleToken "laptop" "phone" sampleRequest]
    tasks := [.asking "laptop" sampleToken sampleRequest] }

theorem sample_reachable : Reachable samplePlatform sampleWorld := by
  have harranged : Reachable samplePlatform sampleArranged := by
    refine .step .initial (.arrange "laptop" (Dict.empty.set sampleToken samplePair) ?_)
    intro id pair h
    rw [Dict.get?_set] at h
    split at h
    · obtain rfl := Option.some.inj h
      rfl
    · cases h
  have hproposed : Reachable samplePlatform
      { sampleArranged with tasks := [.proposing "laptop" sampleId sampleJob] } :=
    .step harranged (.propose "laptop" sampleId .documents [sampleToken] rfl)
  have hbegun : Reachable samplePlatform { sampleBegun with tasks := [] } :=
    .step hproposed (.begin (List.Perm.refl _) rfl)
  exact .step hbegun (.ask "laptop" sampleId sampleToken sampleId rfl)

/-- The phone's owner reviews the request and approves it, the adapter runs, and the laptop
gets the confirmation. -/
theorem sample_confirmed : ∃ w, Reachable samplePlatform w ∧
    Event.completed "phone" sampleToken sampleToken ∈ w.history ∧
    (((w.device "laptop").outgoing.get? sampleId).bind fun job =>
      (job.targets.get? sampleToken).map Target.state) = some .confirmed := by
  have harranged := Reachable.step sample_reachable (.arrange "phone"
    (Dict.empty.set sampleToken ⟨true, "laptop", "Laptop", .null⟩) (by
      intro id pair h
      rw [Dict.get?_set] at h
      split at h
      · obtain rfl := Option.some.inj h
        rfl
      · cases h))
  have hreceived := Reachable.step harranged (.receive (.head _) rfl)
  have hpreviewed := Reachable.step hreceived
    (.preview "phone" sampleToken ⟨sampleToken, [], []⟩ rfl rfl rfl)
  have hrecorded := Reachable.step hpreviewed (.record (.refl _) rfl)
  have happroved := Reachable.step hrecorded (.approve "phone" sampleToken sampleToken rfl rfl)
  have hdecided := Reachable.step happroved (.decide (.refl _) rfl)
  have hauthorized := Reachable.step hdecided (.authorize (.refl _) rfl)
  have hexecuted := Reachable.step hauthorized (.execute (.refl _)
    (.job sampleToken (phases .documents) true false))
  have hverified := Reachable.step hexecuted (.verify (.refl _) rfl rfl)
  have hcompleted := Reachable.step hverified (.complete (.refl _) 0 rfl (by decide))
  have hanswered := Reachable.step hcompleted (.receive (.tail _ (.head _)) rfl)
  exact ⟨_, .step hanswered (.settle (.refl _) (.head _) rfl), .head _, rfl⟩

theorem erasures_safe_sample : ∃ w, Safe samplePlatform w ∧
    Event.completed "phone" sampleToken sampleToken ∈ w.history ∧
    (((w.device "laptop").outgoing.get? sampleId).bind fun job =>
      (job.targets.get? sampleToken).map Target.state) = some .confirmed := by
  obtain ⟨w, hw, hcompleted, hconfirmed⟩ := sample_confirmed
  exact ⟨w, erasures_safe hw, hcompleted, hconfirmed⟩

end Erasure
