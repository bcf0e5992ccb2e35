import Rynmesh.EventHistory
import Rynmesh.FriendInvites

/-!
# An invite leads to one relationship

Each answer of an inviter stands on the record it keeps: the used invite names the
relationship, the relationship names the joiner (`Inv`, `inv_step`).  `kept_step`
says once what a step adds to the history and what it never undoes, `Named` who a
request is from and an answer for, and `invitations_safe` reads the promises off these.
-/

namespace Invites

open Checked

variable {p : Platform}

/-! ### The operations of the store -/

variable {s : Store} {record : Relationship}

variable {s' : Store} {now : String} {drawn secret : Bytes}

theorem acceptInvite_ok {inviteId hash : String} {proposed : Relationship}
    (h : s.acceptInvite inviteId hash now proposed drawn = .ok (s', record, secret)) :
    ∃ invite, s.invites.get? inviteId = some invite ∧ invite.secretHash = hash ∧
      ((invite.status = .used ∧ s' = s ∧ ∃ rid, invite.relationshipId = some rid ∧
          s.relationships.get? rid = some record ∧ record.peerId = proposed.peerId ∧
          record.messagingPub = proposed.messagingPub ∧ record.status = .active ∧
          s.secrets.get? (.relationship record.relationshipId) = some secret) ∨
        (invite.status = .active ∧ ¬ invite.expiresAt ≤ now ∧ record = proposed ∧
          secret = drawn ∧
          s' = (s.putInvite inviteId
            { invite with
              status := .used
              relationshipId :=
                some proposed.relationshipId }).addRelationship proposed drawn)) := by
  simp only [Store.acceptInvite, bind_ok, demand_ok, require_ok] at h
  obtain ⟨invite, hinvite, _, hhash, h⟩ := h
  refine ⟨invite, hinvite, hhash, ?_⟩
  cases hstatus : invite.status with
  | used =>
    simp only [hstatus, bind_ok, demand_ok, require_ok] at h
    obtain ⟨old, hold, _, ⟨hpeer, hpub⟩, _, hactive, stored, hstored, _, _, h⟩ := h
    obtain ⟨hs, hrecord, hsecret⟩ : s = s' ∧ old = record ∧ stored = secret := by
      simpa only [pure_ok, Prod.mk.injEq] using h
    obtain ⟨rid, hrid, hget⟩ := Option.bind_eq_some_iff.mp hold
    rw [hrecord] at hget hpeer hpub hactive hstored
    rw [hsecret] at hstored
    exact .inl ⟨rfl, hs.symm, rid, hrid, hget, hpeer, hpub, hactive, hstored⟩
  | active =>
    simp only [hstatus, bind_ok, require_ok] at h
    obtain ⟨_, hexpiry, _, _, h⟩ := h
    simp only [pure_ok, Prod.mk.injEq] at h
    exact .inr ⟨rfl, hexpiry, h.2.1.symm, h.2.2.symm, h.1.symm⟩
  | cancelled | expired =>
    rw [hstatus] at h
    cases h

theorem putRelationship_ok (h : s.putRelationship record secret = .ok s') :
    (∀ old, s.relationships.get? record.relationshipId = some old → old.status ≠ .revoked) ∧
      s' = s.addRelationship record secret := by
  simp only [Store.putRelationship, bind_ok, require_ok] at h
  obtain ⟨_, hold, h⟩ := h
  exact ⟨hold, (pure_ok.mp h).symm⟩

theorem unseal_some {box : Box} {own other label : String} {plain : Bytes}
    (h : box.unseal own other label = some plain) :
    box.sender = other ∧ box.receiver = own ∧ box.label = label ∧ box.plain = plain := by
  unfold Box.unseal at h
  split at h
  · next hkeys => exact ⟨hkeys.1, hkeys.2.1, hkeys.2.2, Option.some.inj h⟩
  · cases h

variable {rid : String}

/-- What a revocation leaves of a relationship. -/
theorem revoke_spec (revokedAt : String) (retainSecret : Bool)
    (h : s.relationships.get? rid = some record) :
    (s.revoke rid revokedAt retainSecret).invites = s.invites ∧
      (∃ record', record'.status = .revoked ∧ record'.relationshipId = record.relationshipId ∧
        record'.inviteId = record.inviteId ∧ record'.peerId = record.peerId ∧
        record'.messagingPub = record.messagingPub ∧
        ∀ j, (s.revoke rid revokedAt retainSecret).relationships.get? j =
          if j = rid then some record' else s.relationships.get? j) ∧
      ∀ j, j ≠ rid → (s.revoke rid revokedAt retainSecret).secrets.get? (.relationship j) =
        s.secrets.get? (.relationship j) := by
  unfold Store.revoke
  rw [h]
  by_cases hrevoked : record.status = .revoked
  · simp only [if_pos hrevoked]
    refine ⟨trivial, ⟨record, hrevoked, rfl, rfl, rfl, rfl, ?_⟩, fun _ _ => trivial⟩
    intro j
    split
    · next hj => rw [hj, h]
    · rfl
  · simp only [if_neg hrevoked]
    refine ⟨trivial,
      ⟨{ record with status := .revoked, revokedAt := some revokedAt }, rfl, rfl, rfl,
      rfl, rfl, fun j => Dict.get?_set _ _ _ _⟩, ?_⟩
    intro j hj
    have herase : (s.secrets.erase (.relationship rid)).get? (.relationship j) =
        s.secrets.get? (.relationship j) := by
      rw [Dict.get?_erase, if_neg]
      intro heq
      exact hj (SecretName.relationship.inj heq)
    split
    · split
      · rw [Dict.get?_set_ne _ _ (by intro heq; cases heq)]
        exact herase
      · exact herase
    · exact herase

/-! ### The invariant -/

/-- Every answer stands on the inviter's record of it, and every relationship on an
answer. -/
structure Inv (p : Platform) (w : World) : Prop where
  answered :
    ∀ a ∈ w.answers, ∃ invite, (w.store a.publicKey).invites.get? a.inviteId = some invite ∧
    invite.status = .used ∧ invite.relationshipId = some a.relationshipId
  recorded : ∀ a ∈ w.answers, ∃ record,
    (w.store a.publicKey).relationships.get? a.relationshipId = some record ∧
      record.inviteId = a.inviteId ∧ record.peerId = a.receiver ∧
      record.messagingPub = a.box.receiver
  single : ∀ a ∈ w.answers, ∀ b ∈ w.answers, a.relationshipId = b.relationshipId → a = b
  formed : ∀ a ∈ w.answers, a.messagingPub = p.messagingPub a.publicKey ∧
    a.box.sender = p.messagingPub a.publicKey ∧ a.box.label = messageLabel ∧
    a.publicKey ≠ a.receiver ∧ a.box.plain.length = 32
  used : ∀ peer id invite rid, (w.store peer).invites.get? id = some invite →
    invite.relationshipId = some rid →
      ∃ a ∈ w.answers, a.publicKey = peer ∧ a.inviteId = id ∧ a.relationshipId = rid
  known : ∀ peer rid record, (w.store peer).relationships.get? rid = some record →
    record.relationshipId = rid ∧ ∃ a ∈ w.answers, a.relationshipId = rid ∧
      a.inviteId = record.inviteId ∧
      (a.publicKey = peer ∧ a.receiver = record.peerId ∨
        a.receiver = peer ∧ a.publicKey = record.peerId) ∧
      (record.status = .active →
        (w.store peer).secrets.get? (.relationship rid) = some a.box.plain)
  unique : ∀ peer other id invite invite', (w.store peer).invites.get? id = some invite →
    (w.store other).invites.get? id = some invite' → peer = other

/-- What the history says of the state. -/
structure Past (w : World) : Prop where
  created : ∀ a ∈ w.answers, ∃ now,
    .created a.publicKey a.inviteId a.relationshipId now ∈ w.history
  timely : ∀ peer id rid now, .created peer id rid now ∈ w.history →
    ∃ invite, (w.store peer).invites.get? id = some invite ∧ invite.status ≠ .active ∧
      ¬ invite.expiresAt ≤ now
  closed : ∀ peer id, .closed peer id ∈ w.history →
    ∃ invite, (w.store peer).invites.get? id = some invite ∧ invite.status ≠ .active
  revoked : ∀ peer rid, .revoked peer rid ∈ w.history →
    ∃ record, (w.store peer).relationships.get? rid = some record ∧ record.status = .revoked

/-- A relationship is created by an invite that was neither closed nor used before. -/
def FirstUse (event : Event) (past : List Event) : Prop :=
  ∀ peer id rid now, event = .created peer id rid now →
    .closed peer id ∉ past ∧ ∀ rid' now', .created peer id rid' now' ∉ past

/-! ### What a step changes -/

theorem store_withStore (w : World) (peer other : String) (s : Store) :
    (w.withStore peer s).store other = if other = peer then s else w.store other := rfl

variable {w w' : World} {peer : String}

/-- What a new store of a peer has in common with the old one, all stores have. -/
theorem withStore_same {α : Type} (f : Store → α) (other : String)
    (h : f s = f (w.store peer)) :
    f ((w.withStore peer s).store other) = f (w.store other) := by
  rw [store_withStore]
  split
  · next hother => rw [h, hother]
  · rfl

theorem invites_put (s : Store) (id j : String) (invite : Invite) :
    (s.putInvite id invite).invites.get? j = if j = id then some invite else s.invites.get? j :=
  Dict.get?_set _ _ _ _

theorem relationships_add (s : Store) (record : Relationship) (secret : Bytes) (j : String) :
    (s.addRelationship record secret).relationships.get? j =
      if j = record.relationshipId then some record else s.relationships.get? j :=
  Dict.get?_set _ _ _ _

theorem secrets_add (s : Store) (record : Relationship) (secret : Bytes) (j : String) :
    (s.addRelationship record secret).secrets.get? (.relationship j) =
      if j = record.relationshipId then some secret
      else s.secrets.get? (.relationship j) := by
  refine (Dict.get?_set _ _ _ _).trans ?_
  by_cases h : j = record.relationshipId
  · rw [if_pos h, if_pos (congrArg SecretName.relationship h)]
  · rw [if_neg h, if_neg fun heq => h (SecretName.relationship.inj heq)]

theorem Inv.congr (h : Inv p w) (hstore : w'.store = w.store)
    (hanswers : ∀ a, a ∈ w'.answers ↔ a ∈ w.answers) : Inv p w' := by
  obtain ⟨answered, recorded, single, formed, used, known, unique⟩ := h
  constructor <;> simp only [hstore, hanswers] <;> assumption

variable {id : String} {invite : Invite}

theorem Inv.putInvite (h : Inv p w) (hno : ∀ a ∈ w.answers, a.publicKey = peer → a.inviteId ≠ id)
    (hnone : invite.relationshipId = none)
    (hown : ∀ other invite, (w.store other).invites.get? id = some invite → other = peer) :
    Inv p (w.withStore peer ((w.store peer).putInvite id invite)) where
  answered := by
    intro a ha
    obtain ⟨old, hold, hused⟩ := h.answered a ha
    refine ⟨old, ?_, hused⟩
    rw [store_withStore]
    split
    · next hpeer =>
      rw [invites_put, if_neg (hno a ha hpeer), ← hpeer]
      exact hold
    · exact hold
  recorded := by
    intro a ha
    rw [withStore_same Store.relationships]
    exacts [h.recorded a ha, rfl]
  single := h.single
  formed := h.formed
  used := by
    intro other j old rid hget hrid
    rw [store_withStore] at hget
    split at hget
    · next hpeer =>
      rw [invites_put] at hget
      split at hget
      · rw [← Option.some.inj hget, hnone] at hrid
        cases hrid
      · rw [hpeer]
        exact h.used peer j old rid hget hrid
    · exact h.used other j old rid hget hrid
  known := by
    intro other rid record
    rw [withStore_same Store.relationships, withStore_same Store.secrets]
    exacts [h.known other rid record, rfl, rfl]
  unique := by
    intro one other j old old' hold hold'
    rw [store_withStore] at hold hold'
    have hget : ∀ peer', peer' = peer → ∀ row,
        ((w.store peer).putInvite id invite).invites.get? j = some row →
        j = id ∨ ∃ row', (w.store peer').invites.get? j = some row' := by
      intro peer' hpeer' row hrow
      rw [invites_put] at hrow
      split at hrow
      · next hj => exact .inl hj
      · rw [hpeer']
        exact .inr ⟨row, hrow⟩
    grind [h.unique]

variable {a : Answer}

/-- A relationship that an answer vouches for joins a store, under an identifier that
nothing else there stands on. -/
theorem Inv.addRelationship (h : Inv p w) (ha : a ∈ w.answers)
    (hid : a.relationshipId = record.relationshipId) (hinvite : a.inviteId = record.inviteId)
    (hreceiver : a.receiver = peer) (hkey : a.publicKey = record.peerId) :
    Inv p (w.withStore peer ((w.store peer).addRelationship record a.box.plain)) where
  answered := by
    intro b hb
    rw [withStore_same Store.invites]
    exacts [h.answered b hb, rfl]
  recorded := by
    intro b hb
    obtain ⟨old, hold, hsame⟩ := h.recorded b hb
    refine ⟨old, ?_, hsame⟩
    rw [store_withStore]
    split
    · next hpeer =>
      -- the inviter of an answer is never the one who receives it
      have hother : b.relationshipId ≠ record.relationshipId := by
        intro heq
        obtain rfl := h.single b hb a ha (heq.trans hid.symm)
        exact (h.formed b hb).2.2.2.1 (hpeer.trans hreceiver.symm)
      rw [relationships_add, if_neg hother, ← hpeer]
      exact hold
    · exact hold
  single := h.single
  formed := h.formed
  used := by
    intro other j old rid
    rw [withStore_same Store.invites]
    exacts [h.used other j old rid, rfl]
  known := by
    intro other rid found hget
    rw [store_withStore] at hget ⊢
    split at hget
    · next hpeer =>
      rw [if_pos hpeer, secrets_add]
      rw [relationships_add] at hget
      split at hget
      · next hrid =>
        obtain rfl := Option.some.inj hget
        refine ⟨hrid.symm, a, ha, hid.trans hrid.symm, hinvite, .inr ⟨?_, hkey⟩, ?_⟩
        · rw [hreceiver, hpeer]
        · intro _
          rw [if_pos hrid]
      · next hrid =>
        rw [if_neg hrid, hpeer]
        exact h.known peer rid found hget
    · next hpeer =>
      rw [if_neg hpeer]
      exact h.known other rid found hget
  unique := by
    intro one other j
    rw [withStore_same Store.invites one, withStore_same Store.invites other]
    exacts [h.unique one other j, rfl, rfl]

theorem Inv.revoke (h : Inv p w) {revokedAt : String} {retainSecret : Bool}
    (hrecord : (w.store peer).relationships.get? rid = some record) :
    Inv p (w.withStore peer ((w.store peer).revoke rid revokedAt retainSecret)) := by
  obtain ⟨hinvites, ⟨record', hrevoked, hid', hinvite', hpeer', hpub', hget'⟩, hsecrets⟩ :=
    revoke_spec revokedAt retainSecret hrecord
  have hsame := fun other => withStore_same Store.invites other hinvites
  refine ⟨fun b hb => (hsame b.publicKey).symm ▸ h.answered b hb, ?_, h.single, h.formed, ?_, ?_,
    fun one other => (hsame one).symm ▸ (hsame other).symm ▸ h.unique one other⟩
  · intro b hb
    obtain ⟨old, hold, hsame⟩ := h.recorded b hb
    rw [store_withStore]
    split
    · next hpeer =>
      rw [hget']
      rw [hpeer] at hold
      split
      · next hrid =>
        rw [hrid, hrecord] at hold
        obtain rfl := Option.some.inj hold
        exact ⟨record', rfl, hinvite'.trans hsame.1, hpeer'.trans hsame.2.1,
          hpub'.trans hsame.2.2⟩
      · exact ⟨old, hold, hsame⟩
    · exact ⟨old, hold, hsame⟩
  · intro other j old rid'
    rw [hsame]
    exact h.used other j old rid'
  · intro other j found hget
    rw [store_withStore] at hget ⊢
    split at hget
    · next hpeer =>
      rw [if_pos hpeer]
      rw [hget'] at hget
      split at hget
      · next hj =>
        obtain rfl := Option.some.inj hget
        obtain ⟨hid, a, ha, harid, hainvite, haside, _⟩ := h.known peer rid record hrecord
        rw [hpeer, hj]
        refine ⟨hid'.trans hid, a, ha, harid, hainvite.trans hinvite'.symm, ?_, ?_⟩
        · rw [hpeer']
          exact haside
        · intro hactive
          rw [hrevoked] at hactive
          cases hactive
      · next hj =>
        rw [hsecrets j hj, hpeer]
        exact h.known peer j found hget
    · next hpeer =>
      rw [if_neg hpeer]
      exact h.known other j found hget

/-- A first join creates its relationship. -/
theorem Inv.create (h : Inv p w) {proposed : Relationship}
    (hinvite : (w.store peer).invites.get? id = some invite) (hactive : invite.status = .active)
    (hfresh : ∀ b ∈ w.answers, b.relationshipId ≠ proposed.relationshipId)
    (hid : proposed.inviteId = id) (hother : proposed.peerId ≠ peer) (hdrawn : drawn.length = 32)
    (ha : a = ⟨peer, proposed.relationshipId, id, proposed.peerId, p.messagingPub peer,
      ⟨p.messagingPub peer, proposed.messagingPub, messageLabel, drawn⟩⟩) :
    Inv p { w.withStore peer (((w.store peer).putInvite id
        { invite with
          status := .used
          relationshipId := some proposed.relationshipId }).addRelationship proposed drawn) with
      answers := a :: w.answers } := by
  have hinvites : ∀ j, (((w.store peer).putInvite id
      { invite with
        status := .used
        relationshipId := some proposed.relationshipId }).addRelationship proposed
          drawn).invites.get? j =
      if j = id then some { invite with
        status := .used
        relationshipId := some proposed.relationshipId }
      else (w.store peer).invites.get? j := fun j => invites_put _ _ _ _
  -- nothing was answered for the invite yet
  have hno : ∀ b ∈ w.answers, b.publicKey = peer → b.inviteId ≠ id := by
    intro b hb hkey hsame
    obtain ⟨used, hused, hstatus, _⟩ := h.answered b hb
    rw [hkey, hsame, hinvite] at hused
    rw [← Option.some.inj hused, hactive] at hstatus
    cases hstatus
  refine ⟨?_, ?_, ?_, ?_, ?_, ?_, ?_⟩
  · intro b hb
    simp only [store_withStore]
    rcases List.mem_cons.mp hb with heq | hb
    · rw [heq, ha, if_pos rfl, hinvites, if_pos rfl]
      exact ⟨_, rfl, rfl, rfl⟩
    · split
      · next hkey =>
        rw [hinvites, if_neg (hno b hb hkey), ← hkey]
        exact h.answered b hb
      · exact h.answered b hb
  · intro b hb
    simp only [store_withStore]
    rcases List.mem_cons.mp hb with heq | hb
    · rw [heq, ha, if_pos rfl, relationships_add, if_pos rfl]
      exact ⟨proposed, rfl, hid, rfl, rfl⟩
    · split
      · next hkey =>
        rw [relationships_add, if_neg (hfresh b hb)]
        have hrecorded := h.recorded b hb
        rw [hkey] at hrecorded
        exact hrecorded
      · exact h.recorded b hb
  · intro b hb c hc hsame
    rcases List.mem_cons.mp hb with heq | hb
    · rcases List.mem_cons.mp hc with heq' | hc
      · rw [heq, heq']
      · rw [heq, ha] at hsame
        exact absurd hsame.symm (hfresh c hc)
    · rcases List.mem_cons.mp hc with heq' | hc
      · rw [heq', ha] at hsame
        exact absurd hsame (hfresh b hb)
      · exact h.single b hb c hc hsame
  · intro b hb
    rcases List.mem_cons.mp hb with heq | hb
    · rw [heq, ha]
      exact ⟨rfl, rfl, rfl, hother.symm, hdrawn⟩
    · exact h.formed b hb
  · intro other j old rid hget hrid
    simp only [store_withStore] at hget
    have hold : (∃ b ∈ w.answers, b.publicKey = other ∧ b.inviteId = j ∧
        b.relationshipId = rid) → ∃ b ∈ a :: w.answers, b.publicKey = other ∧ b.inviteId = j ∧
        b.relationshipId = rid := by
      rintro ⟨b, hb, hsame⟩
      exact ⟨b, .tail _ hb, hsame⟩
    split at hget
    · next hkey =>
      rw [hinvites] at hget
      split at hget
      · next hj =>
        rw [← Option.some.inj hget] at hrid
        refine ⟨a, (.head _), ?_⟩
        rw [ha]
        exact ⟨hkey.symm, hj.symm, Option.some.inj hrid⟩
      · apply hold
        rw [hkey]
        exact h.used peer j old rid hget hrid
    · exact hold (h.used other j old rid hget hrid)
  · intro other rid record hget
    simp only [store_withStore] at hget ⊢
    split at hget
    · next hkey =>
      rw [if_pos hkey, secrets_add]
      rw [relationships_add] at hget
      split at hget
      · next hrid =>
        obtain rfl := Option.some.inj hget
        refine ⟨hrid.symm, a, (.head _), ?_⟩
        rw [ha]
        refine ⟨hrid.symm, hid.symm, .inl ⟨hkey.symm, rfl⟩, ?_⟩
        intro _
        rw [if_pos hrid]
      · next hrid =>
        rw [if_neg hrid, hkey]
        obtain ⟨hname, b, hb, hrest⟩ := h.known peer rid record hget
        exact ⟨hname, b, .tail _ hb, hrest⟩
    · next hkey =>
      rw [if_neg hkey]
      obtain ⟨hname, b, hb, hrest⟩ := h.known other rid record hget
      exact ⟨hname, b, .tail _ hb, hrest⟩
  · intro one other j old old' hold hold'
    simp only [store_withStore] at hold hold'
    grind [h.unique]

/-- What `accept` answers: the answer it gave before, or one about a new relationship. -/
theorem accept_cases (h : Inv p w) {body : Join} {clock : Int}
    (haccept : Node.accept p peer (w.store peer) body clock now rid drawn = .ok
    (s, a)) :
    (a ∈ w.answers ∧ s = w.store peer) ∨
      ∃ invite proposed, (w.store peer).invites.get? a.inviteId = some invite ∧
        invite.status = .active ∧ ¬ invite.expiresAt ≤ now ∧
        proposed.relationshipId = rid ∧ proposed.inviteId = a.inviteId ∧
        (proposed.peerId ≠ peer ∧ body.proofKey = proposed.peerId ∧
          body.messagingPub = proposed.messagingPub ∧ proposed.status = .active) ∧
        a = ⟨peer, rid, a.inviteId, proposed.peerId, p.messagingPub peer,
          ⟨p.messagingPub peer, proposed.messagingPub, messageLabel, drawn⟩⟩ ∧
        s = ((w.store peer).putInvite a.inviteId
          { invite with status := .used, relationshipId := some rid }).addRelationship
            proposed drawn := by
  simp only [Node.accept, bind_ok] at haccept
  obtain ⟨secret, hadmitted, ⟨s', record, stored⟩, hstore, haccept⟩ := haccept
  have hother : body.peerId ≠ peer ∧ body.proofKey = body.peerId := by
    simp only [Node.admitted, bind_ok, demand_ok, require_ok] at hadmitted
    obtain ⟨_, _, _, _, _, hproof, _, _, _, hchecks, _⟩ := hadmitted
    exact ⟨hchecks.2.2.2, hproof.1⟩
  simp only [pure_ok, Prod.mk.injEq] at haccept
  obtain ⟨hs, ha⟩ := haccept
  obtain ⟨invite, hinvite, _, hrest⟩ := acceptInvite_ok hstore
  rcases hrest with ⟨_, hsame, rid', hrid', hget, hpeer, hpub, hactive, hsecret⟩ |
      ⟨hactive, hexpiry, hrecord, hstored, hs'⟩
  · -- the stored relationship was answered before, with the same secret
    refine .inl ⟨?_, hs.symm.trans hsame⟩
    obtain ⟨b, hb, hkey, hid, hbrid⟩ := h.used peer _ invite rid' hinvite hrid'
    obtain ⟨hname, c, hc, hcrid, _, _, hplain⟩ := h.known peer rid' record hget
    obtain rfl := h.single b hb c hc (hbrid.trans hcrid.symm)
    obtain ⟨found, hfound, _, hreceiver, hbox⟩ := h.recorded b hb
    obtain ⟨hmessaging, hsender, hlabel, _⟩ := h.formed b hb
    rw [hkey, hbrid, hget] at hfound
    obtain rfl := Option.some.inj hfound
    rw [hname, hplain hactive] at hsecret
    have hplain' : b.box.plain = stored := Option.some.inj hsecret
    have hsame : b = a := by
      rw [← ha]
      obtain ⟨key, brid, bid, breceiver, bpub, ⟨sender, receiver, label, plain⟩⟩ := b
      simp only [Answer.mk.injEq, Box.mk.injEq]
      rw [hkey] at hmessaging hsender
      exact ⟨hkey, hbrid.trans hname.symm, hid, hreceiver.symm.trans hpeer, hmessaging,
        hsender, hbox.symm, hlabel, hplain'⟩
    rw [← hsame]
    exact hb
  · subst hrecord hstored
    rw [← ha]
    exact .inr ⟨invite, _, hinvite, hactive, hexpiry, rfl, rfl,
      ⟨hother.1, hother.2, rfl, rfl⟩, rfl, hs.symm.trans hs'⟩

/-! ### What never comes back -/

/-- An invite that is no longer open stays so, and a revoked relationship stays revoked. -/
structure Kept (s s' : Store) : Prop where
  invites : ∀ id invite, s.invites.get? id = some invite →
    ∃ invite', s'.invites.get? id = some invite' ∧ invite'.expiresAt = invite.expiresAt ∧
      (invite.status ≠ .active → invite'.status ≠ .active)
  relationships : ∀ rid record, s.relationships.get? rid = some record →
    record.status = .revoked →
      ∃ record', s'.relationships.get? rid = some record' ∧ record'.status = .revoked

theorem Kept.refl (s : Store) : Kept s s :=
  ⟨fun _ invite h => ⟨invite, h, rfl, id⟩, fun _ record h hrevoked => ⟨record, h, hrevoked⟩⟩

theorem Kept.trans {s'' : Store} (h : Kept s s') (h' : Kept s' s'') : Kept s s'' where
  invites := by
    intro id invite hget
    obtain ⟨invite', hget', hexpires, hstatus⟩ := h.invites id invite hget
    obtain ⟨invite'', hget'', hexpires', hstatus'⟩ := h'.invites id invite' hget'
    exact ⟨invite'', hget'', hexpires'.trans hexpires, fun hne => hstatus' (hstatus hne)⟩
  relationships := by
    intro rid record hget hrevoked
    obtain ⟨record', hget', hrevoked'⟩ := h.relationships rid record hget hrevoked
    exact h'.relationships rid record' hget' hrevoked'

theorem Kept.putInvite {new : Invite}
    (h : ∀ invite, s.invites.get? id = some invite → new.expiresAt = invite.expiresAt ∧
      (invite.status ≠ .active → new.status ≠ .active)) : Kept s (s.putInvite id new) where
  invites := by
    intro j invite hget
    rw [invites_put]
    split
    · next hj =>
      rw [hj] at hget
      exact ⟨new, rfl, h invite hget⟩
    · exact ⟨invite, hget, rfl, fun hne => hne⟩
  relationships := fun _ record hget hrevoked => ⟨record, hget, hrevoked⟩

theorem Kept.addRelationship
    (h : ∀ old, s.relationships.get? record.relationshipId = some old → old.status ≠ .revoked) :
    Kept s (s.addRelationship record secret) where
  invites := fun _ invite hget => ⟨invite, hget, rfl, fun hne => hne⟩
  relationships := by
    intro rid old hget hrevoked
    rw [relationships_add]
    split
    · next hrid =>
      rw [hrid] at hget
      exact absurd hrevoked (h old hget)
    · exact ⟨old, hget, hrevoked⟩

theorem Kept.revoke (revokedAt : String) (retainSecret : Bool)
    (h : s.relationships.get? rid = some record) :
    Kept s (s.revoke rid revokedAt retainSecret) := by
  obtain ⟨hinvites, ⟨record', hrevoked, _, _, _, _, hget'⟩, _⟩ :=
    revoke_spec revokedAt retainSecret h
  refine ⟨?_, ?_⟩
  · intro id invite hget
    rw [hinvites]
    exact ⟨invite, hget, rfl, fun hne => hne⟩
  · intro j old hget hold
    rw [hget']
    split
    · exact ⟨record', rfl, hrevoked⟩
    · exact ⟨old, hget, hold⟩

theorem closed_spec (hopen : w.Open peer id)
    (hs : s = (w.store peer).cancelInvite id ∨
      (∃ hash now, s = ((w.store peer).consumeInvite id hash now).1) ∧
        ¬ (w.withStore peer s).Open peer id) :
    ∃ invite new, (w.store peer).invites.get? id = some invite ∧ invite.status = .active ∧
      s = (w.store peer).putInvite id new ∧ new.status ≠ .active ∧
      new.relationshipId = invite.relationshipId ∧ new.expiresAt = invite.expiresAt := by
  obtain ⟨invite, hinvite, hactive⟩ := hopen
  rcases hs with hs | ⟨⟨hash, now, hs⟩, hclosed⟩
  · refine ⟨invite, { invite with status := .cancelled }, hinvite, hactive, ?_, ?_, rfl, rfl⟩
    · rw [hs, Store.cancelInvite, hinvite]
      exact if_pos hactive
    · intro h
      cases h
  · simp only [Store.consumeInvite, hinvite] at hs
    split at hs
    · refine absurd ⟨invite, ?_, hactive⟩ hclosed
      rw [store_withStore, if_pos rfl, hs]
      exact hinvite
    · split at hs
      · refine ⟨invite, _, hinvite, hactive, hs, ?_, rfl, rfl⟩
        intro hstatus
        cases hstatus
      · refine ⟨invite, _, hinvite, hactive, hs, ?_, rfl, rfl⟩
        intro hstatus
        cases hstatus

theorem kept_closed (hopen : w.Open peer id)
    (hs : s = (w.store peer).cancelInvite id ∨
      (∃ hash now, s = ((w.store peer).consumeInvite id hash now).1) ∧
        ¬ (w.withStore peer s).Open peer id) :
    Kept (w.store peer) s ∧
      ∃ invite, s.invites.get? id = some invite ∧ invite.status ≠ .active := by
  obtain ⟨invite, new, hinvite, hactive, rfl, hnew, _, hexpires⟩ := closed_spec hopen hs
  refine ⟨Kept.putInvite fun old hold => ?_, new, (invites_put _ _ _ _).trans (if_pos rfl), hnew⟩
  obtain rfl := Option.mem_unique hinvite hold
  exact ⟨hexpires, fun hne => absurd hactive hne⟩

theorem Inv.open_unanswered (h : Inv p w) (hinvite : (w.store peer).invites.get? id = some invite)
    (hactive : invite.status = .active) :
    (∀ a ∈ w.answers, a.publicKey = peer → a.inviteId ≠ id) ∧ invite.relationshipId = none := by
  have hno : ∀ a ∈ w.answers, a.publicKey = peer → a.inviteId ≠ id := by
    intro a ha hkey hid
    obtain ⟨used, hused, hstatus, _⟩ := h.answered a ha
    rw [hkey, hid, hinvite] at hused
    rw [← Option.some.inj hused, hactive] at hstatus
    cases hstatus
  refine ⟨hno, ?_⟩
  cases hrid : invite.relationshipId with
  | none => rfl
  | some rid =>
    obtain ⟨a, ha, hkey, hid, _⟩ := h.used peer id invite rid hinvite hrid
    exact absurd hid (hno a ha hkey)

theorem kept_withStore (h : Kept (w.store peer) s) (other : String) :
    Kept (w.store other) ((w.withStore peer s).store other) := by
  rw [store_withStore]
  split
  · next hpeer =>
    rw [hpeer]
    exact h
  · exact Kept.refl _

theorem receive_ok {body : Join} (h : Node.receive p peer s body a now = .ok s') :
    ∃ record, s' = s.addRelationship record a.box.plain ∧
      a.relationshipId = record.relationshipId ∧ a.inviteId = record.inviteId ∧
      a.receiver = peer ∧ a.publicKey = record.peerId ∧ record.status = .active ∧
      ∀ old, s.relationships.get? record.relationshipId = some old → old.status ≠ .revoked := by
  simp only [Node.receive, bind_ok, demand_ok, require_ok] at h
  obtain ⟨_, ⟨hkey, hid, hreceiver, _⟩, endpoint, _, secret, hsecret, _, _, h⟩ := h
  obtain ⟨_, _, _, hplain⟩ := unseal_some hsecret
  obtain ⟨hold, hs⟩ := putRelationship_ok h
  rw [← hplain] at hs
  exact ⟨_, hs, rfl, hid, hreceiver, hkey, rfl, hold⟩

theorem inv_closed (h : Inv p w) (hopen : w.Open peer id)
    (hs : s = (w.store peer).cancelInvite id ∨
      (∃ hash now, s = ((w.store peer).consumeInvite id hash now).1) ∧
        ¬ (w.withStore peer s).Open peer id) : Inv p (w.withStore peer s) := by
  obtain ⟨invite, new, hinvite, hactive, hs, _, hrid, _⟩ := closed_spec hopen hs
  obtain ⟨hno, hnone⟩ := h.open_unanswered hinvite hactive
  rw [hs]
  exact h.putInvite hno (hrid.trans hnone) fun other old hold =>
    h.unique other peer id old invite hold hinvite

/-- The invariant holds in every reachable world. -/
theorem inv_step (h : Inv p w) (hstep : Step p w w') : Inv p w' := by
  cases hstep with
  | @createInvite peer hpeer inviteId hash expiresAt hfresh =>
    refine h.putInvite ?_ rfl ?_
    · intro a ha hkey hid
      obtain ⟨invite, hinvite, _⟩ := h.answered a ha
      rw [hid, hfresh] at hinvite
      cases hinvite
    · intro other invite hget
      rw [hfresh] at hget
      cases hget
  | @cancelInvite peer inviteId hopen =>
    exact (inv_closed h hopen (.inl rfl)).congr rfl fun _ => Iff.rfl
  | consumeInvite peer inviteId hash now hopen hchange =>
    exact (inv_closed h hopen (.inr ⟨⟨hash, now, rfl⟩, hchange⟩)).congr rfl fun _ => Iff.rfl
  | join hpeer nodeName endpoint invite hinvite secret timestamp hjoin =>
    exact h.congr rfl fun _ => Iff.rfl
  | @accept peer hpeer body hbody clock now rid drawn hdrawn hfresh s a haccept =>
    rcases accept_cases h haccept with ⟨ha, hs⟩ |
        ⟨invite, proposed, hinvite, hactive, hexpiry, hrid, hid, hother, heq, hs⟩
    · refine h.congr ?_ ?_
      · funext other
        show (w.withStore peer s).store other = w.store other
        rw [store_withStore, hs]
        split
        · next hother => rw [hother]
        · rfl
      · intro b
        constructor
        · intro hb
          rcases List.mem_cons.mp hb with rfl | hb
          · exact ha
          · exact hb
        · exact List.mem_cons_of_mem _
    · subst hrid hs
      exact (h.create hinvite hactive hfresh hid hother.1 hdrawn heq).congr rfl fun _ => Iff.rfl
  | @receive peer body hbody hown a ha now s hreceive =>
    obtain ⟨record, hs, hid, hinvite, hreceiver, hkey, _⟩ := receive_ok hreceive
    rw [hs]
    exact h.addRelationship ha hid hinvite hreceiver hkey
  | revoke peer rid revokedAt retainSecret hknown =>
    obtain ⟨record, hrecord⟩ := Option.isSome_iff_exists.mp hknown
    exact (h.revoke hrecord).congr rfl fun _ => Iff.rfl

/-- The invariant holds in every reachable world. -/
theorem inv_reachable (h : Reachable p w) : Inv p w := by
  induction h with
  | initial =>
    refine ⟨?_, ?_, ?_, ?_, ?_, ?_, ?_⟩
    · intro a ha
      cases ha
    · intro a ha
      cases ha
    · intro a ha
      cases ha
    · intro a ha
      cases ha
    · intro peer id invite rid hget
      cases hget
    · intro peer rid record hget
      cases hget
    · intro peer other id invite invite' hget
      cases hget
  | step _ hstep ih => exact inv_step ih hstep

theorem kept_step (h : Inv p w) (hstep : Step p w w') :
    (∀ peer, Kept (w.store peer) (w'.store peer)) ∧ (∀ a ∈ w.answers, a ∈ w'.answers) ∧
      (w'.history = w.history ∧ (∀ a ∈ w'.answers, a ∈ w.answers) ∨
        (∃ peer id, w'.history = .closed peer id :: w.history ∧
          (∀ a ∈ w'.answers, a ∈ w.answers) ∧
          ∃ invite, (w'.store peer).invites.get? id = some invite ∧ invite.status ≠ .active) ∨
        (∃ peer rid, w'.history = .revoked peer rid :: w.history ∧
          (∀ a ∈ w'.answers, a ∈ w.answers) ∧
          ∃ record, (w'.store peer).relationships.get? rid = some record ∧
            record.status = .revoked) ∨
        ∃ peer id rid now, w'.history = .created peer id rid now :: w.history ∧
          w.Open peer id ∧
          (∃ invite, (w'.store peer).invites.get? id = some invite ∧
            invite.status ≠ .active ∧ ¬ invite.expiresAt ≤ now) ∧
          ∀ a ∈ w'.answers, a ∈ w.answers ∨
            a.publicKey = peer ∧ a.inviteId = id ∧ a.relationshipId = rid) := by
  cases hstep with
  | @createInvite peer hpeer inviteId hash expiresAt hfresh =>
    refine ⟨kept_withStore (Kept.putInvite ?_), fun _ ha => ha, .inl ⟨rfl, fun _ ha => ha⟩⟩
    intro invite hget
    rw [hfresh] at hget
    cases hget
  | @cancelInvite peer id hopen =>
    obtain ⟨hkept, hclosed⟩ := kept_closed hopen (.inl rfl)
    refine ⟨kept_withStore hkept, fun _ ha => ha,
      .inr (.inl ⟨peer, id, rfl, fun _ ha => ha, ?_⟩)⟩
    exact (congrArg Store.invites (if_pos rfl)).symm ▸ hclosed
  | consumeInvite peer id hash now hopen hchange =>
    obtain ⟨hkept, hclosed⟩ := kept_closed hopen (.inr ⟨⟨hash, now, rfl⟩, hchange⟩)
    refine ⟨kept_withStore hkept, fun _ ha => ha,
      .inr (.inl ⟨peer, id, rfl, fun _ ha => ha, ?_⟩)⟩
    exact (congrArg Store.invites (if_pos rfl)).symm ▸ hclosed
  | join hpeer nodeName endpoint invite hinvite secret timestamp hjoin =>
    exact ⟨fun _ => Kept.refl _, fun _ ha => ha, .inl ⟨rfl, fun _ ha => ha⟩⟩
  | @accept peer hpeer body hbody clock now rid drawn hdrawn hfresh s a haccept =>
    refine ⟨?_, fun _ ha => .tail _ ha, ?_⟩
    · refine kept_withStore (s := s) ?_
      rcases accept_cases h haccept with ⟨_, hs⟩ |
          ⟨invite, proposed, hinvite, hactive, _, hrid, _, _, _, hs⟩
      · rw [hs]
        exact Kept.refl _
      · rw [hs]
        refine (Kept.putInvite ?_).trans (Kept.addRelationship ?_)
        · intro old hold
          rw [hinvite] at hold
          obtain rfl := Option.some.inj hold
          exact ⟨rfl, fun hne => absurd hactive hne⟩
        · intro old hold
          -- a fresh identifier stands for nothing yet
          obtain ⟨_, b, hb, hbrid, _⟩ := h.known peer proposed.relationshipId old hold
          exact absurd (hbrid.trans hrid) (hfresh b hb)
    · rcases accept_cases h haccept with ⟨ha, _⟩ |
          ⟨invite, proposed, hinvite, hactive, hexpiry, hrid, _, _, heq, hs⟩
      · have hold : ¬ a.relationshipId = rid := hfresh a ha
        refine .inl ⟨if_neg hold, ?_⟩
        intro b hb
        rcases List.mem_cons.mp hb with rfl | hb
        · exact ha
        · exact hb
      · have hnew : a.relationshipId = rid := by rw [heq]
        refine .inr (.inr (.inr ⟨peer, a.inviteId, rid, now, if_pos hnew,
          ⟨invite, hinvite, hactive⟩, ?_, ?_⟩))
        · refine ⟨{ invite with status := .used, relationshipId := some rid }, ?_, ?_, hexpiry⟩
          · show ((w.withStore peer s).store peer).invites.get? a.inviteId = _
            rw [store_withStore, if_pos rfl, hs]
            exact (invites_put _ _ _ _).trans (if_pos rfl)
          · nofun
        · intro b hb
          rcases List.mem_cons.mp hb with rfl | hb
          · exact .inr ⟨by rw [heq], rfl, hnew⟩
          · exact .inl hb
  | @receive peer body hbody hown a ha now s hreceive =>
    obtain ⟨record, hs, _, _, _, _, _, hold⟩ := receive_ok hreceive
    refine ⟨kept_withStore ?_, fun _ ha => ha, .inl ⟨rfl, fun _ ha => ha⟩⟩
    rw [hs]
    exact Kept.addRelationship hold
  | revoke peer rid revokedAt retainSecret hknown =>
    obtain ⟨record, hrecord⟩ := Option.isSome_iff_exists.mp hknown
    obtain ⟨_, ⟨record', hrevoked, _, _, _, _, hget'⟩, _⟩ :=
      revoke_spec revokedAt retainSecret hrecord
    refine ⟨kept_withStore (Kept.revoke revokedAt retainSecret hrecord), fun _ ha => ha,
      .inr (.inr (.inl ⟨peer, rid, rfl, fun _ ha => ha, record', ?_, hrevoked⟩))⟩
    show ((w.withStore peer ((w.store peer).revoke rid revokedAt retainSecret)).store
      peer).relationships.get? rid = _
    rw [store_withStore, if_pos rfl, hget', if_pos rfl]

theorem past_step (h : Inv p w) (hpast : Past w) (hstep : Step p w w') : Past w' := by
  obtain ⟨hkept, hmore, hadded⟩ := kept_step h hstep
  have htimely : ∀ peer id rid now, .created peer id rid now ∈ w.history →
      ∃ invite, (w'.store peer).invites.get? id = some invite ∧ invite.status ≠ .active ∧
        ¬ invite.expiresAt ≤ now := by
    intro peer id rid now hmem
    obtain ⟨invite, hget, hstatus, hexpiry⟩ := hpast.timely peer id rid now hmem
    obtain ⟨invite', hget', hexpires, hstatus'⟩ := (hkept peer).invites id invite hget
    exact ⟨invite', hget', hstatus' hstatus, hexpires ▸ hexpiry⟩
  have hclosed : ∀ peer id, .closed peer id ∈ w.history →
      ∃ invite, (w'.store peer).invites.get? id = some invite ∧ invite.status ≠ .active := by
    intro peer id hmem
    obtain ⟨invite, hget, hstatus⟩ := hpast.closed peer id hmem
    obtain ⟨invite', hget', _, hstatus'⟩ := (hkept peer).invites id invite hget
    exact ⟨invite', hget', hstatus' hstatus⟩
  have hrevoked : ∀ peer rid, .revoked peer rid ∈ w.history →
      ∃ record, (w'.store peer).relationships.get? rid = some record ∧
        record.status = .revoked := by
    intro peer rid hmem
    obtain ⟨record, hget, hstatus⟩ := hpast.revoked peer rid hmem
    exact (hkept peer).relationships rid record hget hstatus
  have hcreated : ∀ a ∈ w.answers, ∀ event, ∃ now,
      .created a.publicKey a.inviteId a.relationshipId now ∈ event :: w.history := by
    intro a ha event
    obtain ⟨now, hmem⟩ := hpast.created a ha
    exact ⟨now, .tail _ hmem⟩
  -- an event of another kind leaves what the stores owe to this one
  rcases hadded with ⟨hhistory, hless⟩ | ⟨peer, id, hhistory, hless, hnew⟩ |
      ⟨peer, rid, hhistory, hless, hnew⟩ | ⟨peer, id, rid, now, hhistory, _, hnew, hless⟩
  · rw [← hhistory] at htimely hclosed hrevoked
    refine ⟨?_, htimely, hclosed, hrevoked⟩
    intro a ha
    rw [hhistory]
    exact hpast.created a (hless a ha)
  · refine ⟨?_, ?_, ?_, ?_⟩ <;> rw [hhistory]
    · exact fun a ha => hcreated a (hless a ha) _
    · simpa using htimely
    · intro peer' id' hmem
      rcases List.mem_cons.mp hmem with heq | hmem
      · obtain ⟨rfl, rfl⟩ := Event.closed.inj heq
        exact hnew
      · exact hclosed peer' id' hmem
    · simpa using hrevoked
  · refine ⟨?_, ?_, ?_, ?_⟩ <;> rw [hhistory]
    · exact fun a ha => hcreated a (hless a ha) _
    · simpa using htimely
    · simpa using hclosed
    · intro peer' rid' hmem
      rcases List.mem_cons.mp hmem with heq | hmem
      · obtain ⟨rfl, rfl⟩ := Event.revoked.inj heq
        exact hnew
      · exact hrevoked peer' rid' hmem
  · refine ⟨?_, ?_, ?_, ?_⟩ <;> rw [hhistory]
    · intro a ha
      rcases hless a ha with ha | ⟨hkey, hid, hrid⟩
      · exact hcreated a ha _
      · rw [hkey, hid, hrid]
        exact ⟨now, (.head _)⟩
    · intro peer' id' rid' now' hmem
      rcases List.mem_cons.mp hmem with heq | hmem
      · obtain ⟨rfl, rfl, rfl, rfl⟩ := Event.created.inj heq
        exact hnew
      · exact htimely peer' id' rid' now' hmem
    · simpa using hclosed
    · simpa using hrevoked

/-- An invite is used within its time, and once. -/
theorem firstUse_step (h : Inv p w) (hpast : Past w) (hfirst : Justified FirstUse w.history)
    (hstep : Step p w w') : Justified FirstUse w'.history := by
  obtain ⟨_, _, hadded⟩ := kept_step h hstep
  rcases hadded with ⟨hhistory, _⟩ | ⟨peer, id, hhistory, _⟩ | ⟨peer, rid, hhistory, _⟩ |
      ⟨peer, id, rid, now, hhistory, hopen, _⟩
  · rw [hhistory]
    exact hfirst
  · rw [hhistory]
    refine hfirst.cons ?_
    nofun
  · rw [hhistory]
    refine hfirst.cons ?_
    nofun
  · rw [hhistory]
    refine hfirst.cons ?_
    intro peer' id' rid' now' heq
    obtain ⟨rfl, rfl, rfl, rfl⟩ := Event.created.inj heq
    obtain ⟨invite, hinvite, hactive⟩ := hopen
    constructor
    · intro hmem
      obtain ⟨found, hfound, hstatus⟩ := hpast.closed peer id hmem
      rw [hinvite] at hfound
      obtain rfl := Option.some.inj hfound
      exact hstatus hactive
    · intro rid' now' hmem
      obtain ⟨found, hfound, hstatus, _⟩ := hpast.timely peer id rid' now' hmem
      rw [hinvite] at hfound
      obtain rfl := Option.some.inj hfound
      exact hstatus hactive

theorem past_reachable (h : Reachable p w) : Past w ∧ Justified FirstUse w.history := by
  induction h with
  | initial =>
    refine ⟨⟨?_, ?_, ?_, ?_⟩, trivial⟩
    · nofun
    · nofun
    · nofun
    · nofun
  | step hreach hstep ih =>
    have hinv := inv_reachable hreach
    exact ⟨past_step hinv ih.1 hstep, firstUse_step hinv ih.1 ih.2 hstep⟩

/-! ### Requests and their answers -/

/-- Who a request is from, for whom an answer is sealed, and what ends a relationship. -/
structure Named (p : Platform) (w : World) : Prop where
  sent : ∀ body ∈ w.joins, body.proofKey = body.peerId ∧
    body.messagingPub = p.messagingPub body.peerId
  sealed : ∀ a ∈ w.answers, p.honest a.receiver → a.box.receiver = p.messagingPub a.receiver
  ended : ∀ peer rid record, (w.store peer).relationships.get? rid = some record →
    record.status = .revoked → .revoked peer rid ∈ w.history

/-- A store in which only relationships named in the history became revoked. -/
theorem Named.ended_store (h : Named p w) (hstore : w'.store = (w.withStore peer s).store)
    (hmore : ∀ event ∈ w.history, event ∈ w'.history)
    (hs : ∀ rid record, s.relationships.get? rid = some record → record.status = .revoked →
      (w.store peer).relationships.get? rid = some record ∨ .revoked peer rid ∈ w'.history) :
    ∀ other rid record, (w'.store other).relationships.get? rid = some record →
      record.status = .revoked → .revoked other rid ∈ w'.history := by
  intro other rid record hget hrevoked
  rw [hstore, store_withStore] at hget
  split at hget
  · next hother =>
    rw [hother]
    rcases hs rid record hget hrevoked with hold | hmem
    · exact hmore _ (h.ended peer rid record hold hrevoked)
    · exact hmem
  · exact hmore _ (h.ended other rid record hget hrevoked)

theorem add_revoked {found : Relationship} (hactive : record.status = .active)
    (hget : (s.addRelationship record secret).relationships.get? rid = some found)
    (hrevoked : found.status = .revoked) : s.relationships.get? rid = some found := by
  rw [relationships_add] at hget
  split at hget
  · rw [← Option.some.inj hget, hactive] at hrevoked
    cases hrevoked
  · exact hget

/-- The request that `join` sends. -/
theorem join_request {nodeName endpoint : String} {invite : SignedInvite} {timestamp : Int}
    {body : Join} (h : Node.join p peer s nodeName endpoint invite secret timestamp =
      .ok (.inr body)) :
    ∃ own, p.validEndpoint endpoint = some own ∧ body =
      { kind := joinKind, invite, peerId := peer, nodeName, endpoint := own, timestamp
        box := ⟨p.messagingPub peer, invite.payload.messagingPub, inviteSecretInfo peer, secret⟩
        messagingPub := p.messagingPub peer, permissionsMatch := true, proofKey := peer } := by
  simp only [Node.join, bind_ok, demand_ok] at h
  obtain ⟨_, _, _, _, h⟩ := h
  cases hprior : Node.prior s invite.payload with
  | some row =>
    simp only [hprior, bind_ok, pure_ok, reduceCtorEq, and_false, exists_false] at h
  | none =>
    simp only [hprior, bind_ok, demand_ok, pure_ok] at h
    obtain ⟨own, hown, hbody⟩ := h
    exact ⟨own, hown, (Sum.inr.inj hbody).symm⟩

theorem named_step (hinv : Inv p w) (h : Named p w) (hstep : Step p w w') : Named p w' := by
  cases hstep with
  | @createInvite peer hpeer inviteId hash expiresAt hfresh =>
    exact ⟨h.sent, h.sealed, h.ended_store rfl (fun _ hmem => hmem)
      fun _ _ hget _ => .inl hget⟩
  | @cancelInvite peer id hopen =>
    obtain ⟨_, _, _, _, hs, _⟩ := closed_spec hopen (.inl rfl)
    refine ⟨h.sent, h.sealed, h.ended_store rfl (fun _ hmem => .tail _ hmem) ?_⟩
    intro rid record hget _
    rw [hs] at hget
    exact .inl hget
  | consumeInvite peer id hash now hopen hchange =>
    obtain ⟨_, _, _, _, hs, _⟩ := closed_spec hopen (.inr ⟨⟨hash, now, rfl⟩, hchange⟩)
    refine ⟨h.sent, h.sealed, h.ended_store rfl (fun _ hmem => .tail _ hmem) ?_⟩
    intro rid record hget _
    rw [hs] at hget
    exact .inl hget
  | join hpeer nodeName endpoint invite hinvite secret timestamp hjoin =>
    refine ⟨?_, h.sealed, h.ended⟩
    intro body hbody
    rcases List.mem_cons.mp hbody with rfl | hbody
    · obtain ⟨own, _, rfl⟩ := join_request hjoin
      exact ⟨rfl, rfl⟩
    · exact h.sent body hbody
  | @accept peer hpeer body hbody clock now rid drawn hdrawn hfresh s a haccept =>
    have hmore : ∀ event ∈ w.history, event ∈ (if a.relationshipId = rid then
        .created peer a.inviteId rid now :: w.history else w.history) := by
      intro event hmem
      split
      · exact .tail _ hmem
      · exact hmem
    refine ⟨h.sent, ?_, h.ended_store rfl hmore ?_⟩
    · intro b hb hhonest
      rcases List.mem_cons.mp hb with rfl | hb
      · rcases accept_cases hinv haccept with ⟨hold, _⟩ |
            ⟨_, proposed, _, _, _, _, _, ⟨_, hproof, hpub, _⟩, heq, _⟩
        · exact h.sealed _ hold hhonest
        · -- a peer that runs this code sent the request under its own key
          rw [heq] at hhonest ⊢
          obtain ⟨hself, hsent⟩ := h.sent body (hbody (hproof ▸ hhonest))
          rw [← hpub, hsent, ← hself, hproof]
      · exact h.sealed b hb hhonest
    · intro rid' record hget hrevoked
      rcases accept_cases hinv haccept with ⟨_, hs⟩ |
          ⟨_, proposed, _, _, _, _, _, ⟨_, _, _, hactive⟩, _, hs⟩
      · rw [hs] at hget
        exact .inl hget
      · rw [hs] at hget
        have hold := add_revoked hactive hget hrevoked
        exact .inl hold
  | @receive peer body hbody hown a ha now s hreceive =>
    obtain ⟨record, hs, _, _, _, _, hactive, _⟩ := receive_ok hreceive
    refine ⟨h.sent, h.sealed, h.ended_store rfl (fun _ hmem => hmem) ?_⟩
    intro rid found hget hrevoked
    rw [hs] at hget
    exact .inl (add_revoked hactive hget hrevoked)
  | revoke peer rid revokedAt retainSecret hknown =>
    obtain ⟨record, hrecord⟩ := Option.isSome_iff_exists.mp hknown
    obtain ⟨_, ⟨_, _, _, _, _, _, hget'⟩, _⟩ := revoke_spec revokedAt retainSecret hrecord
    refine ⟨h.sent, h.sealed, h.ended_store rfl (fun _ hmem => .tail _ hmem) ?_⟩
    intro j found hget _
    rw [hget'] at hget
    split at hget
    · next hj =>
      rw [hj]
      exact .inr (.head _)
    · exact .inl hget

theorem named_reachable (h : Reachable p w) : Named p w := by
  induction h with
  | initial =>
    refine ⟨?_, ?_, ?_⟩
    · nofun
    · nofun
    · nofun
  | step hreach hstep ih => exact named_step (inv_reachable hreach) ih hstep

/-! ### The promises -/

/-- The invite is the one its signer stored. -/
def Issued (p : Platform) (w : World) (invite : SignedInvite) : Prop :=
  invite.payload.peerId = invite.publicKey ∧
    invite.payload.messagingPub = p.messagingPub invite.publicKey ∧
    ∃ stored, (w.store invite.publicKey).invites.get? invite.payload.inviteId = some stored ∧
      stored.secretHash = invite.payload.secretHash

/-- The receiver of an answer joins its invite again, from a valid address, and the
request arrives in time. -/
structure Again (p : Platform) (w : World) (a : Answer) (invite : SignedInvite)
    (secret : Bytes) (endpoint : String) (timestamp clock : Int) : Prop where
  issued : Issued p w invite
  signer : invite.publicKey = a.publicKey
  named : invite.payload.inviteId = a.inviteId
  secret : invite.payload.secretHash = p.secretHash secret
  inviter : ∃ valid, p.validEndpoint invite.payload.endpoint = some valid
  own : ∃ own, p.validEndpoint endpoint = some own ∧ ∃ valid, p.validEndpoint own = some valid
  key : ∃ key, p.decode (p.messagingPub a.receiver) = some key ∧ key.length = 32
  recent : (clock - timestamp).natAbs ≤ 120

/-- A store with the active relationship of an answer and its secret. -/
def Holds (s : Store) (a : Answer) : Prop :=
  ∃ record, s.relationships.get? a.relationshipId = some record ∧ record.status = .active ∧
    s.secrets.get? (.relationship a.relationshipId) = some a.box.plain

/-- What invitations promise in a world. -/
structure Safe (p : Platform) (w : World) : Prop where
  /-- One invite leads to one relationship: it is answered alike, to one joiner, every
  time. -/
  single : ∀ a ∈ w.answers, ∀ b ∈ w.answers, a.publicKey = b.publicKey →
    a.inviteId = b.inviteId → a = b
  /-- A relationship is between the two peers of one answer, with its secret. -/
  between : ∀ peer rid record, (w.store peer).relationships.get? rid = some record →
    ∃ a ∈ w.answers, a.relationshipId = rid ∧ a.inviteId = record.inviteId ∧
      (a.publicKey = peer ∧ a.receiver = record.peerId ∨
        a.receiver = peer ∧ a.publicKey = record.peerId) ∧
      (record.status = .active →
        (w.store peer).secrets.get? (.relationship rid) = some a.box.plain) ∧
      ∀ b ∈ w.answers, b.relationshipId = rid → b = a
  /-- An answer is about a relationship that the inviter created. -/
  created : ∀ a ∈ w.answers, ∃ now,
    .created a.publicKey a.inviteId a.relationshipId now ∈ w.history
  /-- An invite that was used, cancelled or expired creates no relationship. -/
  firstUse : ∀ later past peer id rid now,
    w.history = later ++ .created peer id rid now :: past →
      .closed peer id ∉ past ∧ (∀ rid' now', .created peer id rid' now' ∉ past) ∧
        ∃ invite, (w.store peer).invites.get? id = some invite ∧ ¬ invite.expiresAt ≤ now
  /-- A request that repeats one is answered alike, until the inviter revokes. -/
  answeredAlike : ∀ a ∈ w.answers, .revoked a.publicKey a.relationshipId ∉ w.history →
    ∀ (body : Join) clock now rid drawn secret,
      Node.admitted p a.publicKey body clock = .ok secret →
      body.invite.payload.inviteId = a.inviteId → body.peerId = a.receiver →
      body.messagingPub = a.box.receiver →
      (∀ invite, (w.store a.publicKey).invites.get? a.inviteId = some invite →
        invite.secretHash = p.secretHash secret) →
      Node.accept p a.publicKey (w.store a.publicKey) body clock now rid drawn =
        .ok (w.store a.publicKey, a)
  /-- A joiner that repeats its join finds the relationship of the first answer, or its
  request is answered alike and the answer gives it that relationship with its secret. -/
  repeated : ∀ a ∈ w.answers, p.honest a.receiver →
    .revoked a.publicKey a.relationshipId ∉ w.history →
    .revoked a.receiver a.relationshipId ∉ w.history →
    ∀ invite secret nodeName endpoint timestamp clock now later rid drawn,
      Again p w a invite secret endpoint timestamp clock →
      (∃ row, Node.join p a.receiver (w.store a.receiver) nodeName endpoint invite secret
          timestamp = .ok (.inl row) ∧ row.relationshipId = a.relationshipId ∧
        Holds (w.store a.receiver) a) ∨
      ∃ body s, Node.join p a.receiver (w.store a.receiver) nodeName endpoint invite secret
          timestamp = .ok (.inr body) ∧
        Node.accept p a.publicKey (w.store a.publicKey) body clock now rid drawn =
          .ok (w.store a.publicKey, a) ∧
        Node.receive p a.receiver (w.store a.receiver) body a later = .ok s ∧ Holds s a
  /-- Whenever an answer arrives, what it gives is its own relationship and secret, and
  only the peer it is for takes it. -/
  received : ∀ peer (body : Join) (a : Answer) now s,
    Node.receive p peer (w.store peer) body a now = .ok s → a.receiver = peer ∧ Holds s a
  /-- The two sides of an invite hold the same identifier, and the same secret where
  both are active. -/
  agreed : ∀ peer other rid rid' record record',
    (w.store peer).relationships.get? rid = some record →
    (w.store other).relationships.get? rid' = some record' →
    record.inviteId = record'.inviteId →
      rid = rid' ∧ (record.status = .active → record'.status = .active →
        (w.store peer).secrets.get? (.relationship rid) =
          (w.store other).secrets.get? (.relationship rid'))
  /-- What was revoked at a side stays revoked there. -/
  revoked : ∀ peer rid, .revoked peer rid ∈ w.history →
    ∃ record, (w.store peer).relationships.get? rid = some record ∧ record.status = .revoked

theorem Inv.one_answer (h : Inv p w) {b : Answer} (ha : a ∈ w.answers) (hb : b ∈ w.answers)
    (hkey : a.publicKey = b.publicKey) (hid : a.inviteId = b.inviteId) : a = b := by
  obtain ⟨invite, hinvite, _, hrid⟩ := h.answered a ha
  obtain ⟨invite', hinvite', _, hrid'⟩ := h.answered b hb
  rw [hkey, hid, hinvite'] at hinvite
  obtain rfl := Option.some.inj hinvite
  rw [hrid] at hrid'
  exact h.single a ha b hb (Option.some.inj hrid')

theorem Inv.answeredAlike (h : Inv p w) (ha : a ∈ w.answers)
    (hrecord : (w.store a.publicKey).relationships.get? a.relationshipId = some record)
    (hactive : record.status = .active) {body : Join} {clock : Int}
    (hadmitted : Node.admitted p a.publicKey body clock = .ok secret)
    (hid : body.invite.payload.inviteId = a.inviteId) (hpeer : body.peerId = a.receiver)
    (hpub : body.messagingPub = a.box.receiver)
    (hhash : ∀ invite, (w.store a.publicKey).invites.get? a.inviteId = some invite →
      invite.secretHash = p.secretHash secret) :
    Node.accept p a.publicKey (w.store a.publicKey) body clock now rid drawn =
      .ok (w.store a.publicKey, a) := by
  obtain ⟨invite, hinvite, hused, hrid⟩ := h.answered a ha
  obtain ⟨found, hfound, _, hreceiver, hbox⟩ := h.recorded a ha
  obtain ⟨hmessaging, hsender, hlabel, _, hlength⟩ := h.formed a ha
  obtain ⟨hname, b, hb, hbrid, _, _, hplain⟩ := h.known a.publicKey a.relationshipId record hrecord
  obtain rfl := h.single b hb a ha hbrid
  rw [hrecord] at hfound
  obtain rfl := Option.some.inj hfound
  have hstored := hplain hactive
  have hnonempty : b.box.plain ≠ [] := by
    intro hnil
    rw [hnil] at hlength
    cases hlength
  have hstore : ∀ proposed : Relationship, proposed.peerId = b.receiver →
      proposed.messagingPub = b.box.receiver →
      (w.store b.publicKey).acceptInvite b.inviteId (p.secretHash secret) now proposed drawn =
        .ok (w.store b.publicKey, record, b.box.plain) := by
    intro proposed hproposed hproposedPub
    unfold Store.acceptInvite
    simp only [hinvite, demand_some, ok_bind, hused, hrid, Option.bind_some,
      hrecord, hname, hstored]
    rw [require, require_of (hhash invite hinvite), ok_bind, require,
      require_of ⟨hreceiver.trans hproposed.symm, hbox.trans hproposedPub.symm⟩,
      ok_bind, require, require_of hactive, ok_bind, require,
      require_of hnonempty]
    rfl
  unfold Node.accept
  rw [hadmitted, ok_bind, hid, hstore _ hpeer hpub, ok_bind]
  refine congrArg (fun answer => Except.ok (w.store b.publicKey, answer)) ?_
  obtain ⟨key, arid, aid, areceiver, apub, ⟨sender, receiver, label, plain⟩⟩ := b
  simp only at hmessaging hsender hlabel hname hbox hpeer
  simp only [hmessaging, hsender, hlabel, hname, hbox, hpeer]

theorem prior_some {payload : InvitePayload} {row : Relationship}
    (h : Node.prior s payload = some row) :
    (∃ rid, s.relationships.get? rid = some row) ∧ row.inviteId = payload.inviteId ∧
      row.peerId = payload.peerId := by
  have hmem := List.mem_of_find?_eq_some h
  have hnames := List.find?_some h
  rw [Bool.and_eq_true, decide_eq_true_eq, decide_eq_true_eq] at hnames
  exact ⟨Dict.mem_values_iff.mp ((List.mem_insertionSort _).mp hmem), hnames⟩

/-- What was never revoked at a side is active there. -/
theorem Named.active (h : Named p w) (hopen : .revoked peer rid ∉ w.history)
    (hget : (w.store peer).relationships.get? rid = some record) : record.status = .active := by
  cases hstatus : record.status with
  | active => rfl
  | revoked => exact absurd (h.ended peer rid record hget hstatus) hopen

theorem Inv.holds (h : Inv p w) (hnamed : Named p w) (ha : a ∈ w.answers)
    (hopen : .revoked peer a.relationshipId ∉ w.history)
    (hget : (w.store peer).relationships.get? a.relationshipId = some record) :
    Holds (w.store peer) a := by
  have hactive := hnamed.active hopen hget
  obtain ⟨_, b, hb, hbrid, _, _, hplain⟩ := h.known peer a.relationshipId record hget
  obtain rfl := h.single b hb a ha hbrid
  exact ⟨record, hget, hactive, hplain hactive⟩

/-- A relationship of the invite of an answer is the one of the answer. -/
theorem Inv.of_invite (h : Inv p w) (ha : a ∈ w.answers)
    (hget : (w.store peer).relationships.get? rid = some record)
    (hinvite : record.inviteId = a.inviteId) : rid = a.relationshipId := by
  obtain ⟨_, b, hb, hbrid, hbid, _⟩ := h.known peer rid record hget
  obtain ⟨invite, hopen, _⟩ := h.answered a ha
  obtain ⟨invite', hopen', _⟩ := h.answered b hb
  rw [hbid, hinvite] at hopen'
  have hkey := h.unique _ _ _ _ _ hopen hopen'
  obtain rfl := h.one_answer ha hb hkey (hbid.trans hinvite).symm
  exact hbrid.symm

theorem receive_holds {body : Join} (h : Node.receive p peer s body a now = .ok s') :
    a.receiver = peer ∧ Holds s' a := by
  obtain ⟨record, hs, hid, _, hreceiver, _, hactive, _⟩ := receive_ok h
  refine ⟨hreceiver, record, ?_, hactive, ?_⟩
  · rw [hs, relationships_add, if_pos hid]
  · rw [hs, secrets_add, if_pos hid]

variable {invite : SignedInvite} {endpoint : String} {timestamp clock : Int}

/-- The inviter answers a repeated join as before. -/
theorem Inv.admitted (h : Inv p w) (ha : a ∈ w.answers)
    (hagain : Again p w a invite secret endpoint timestamp clock) {nodeName : String} {body : Join}
    (hbody : Node.join p a.receiver s nodeName endpoint invite secret timestamp =
      .ok (.inr body)) : Node.admitted p a.publicKey body clock = .ok secret := by
  obtain ⟨own, hown, rfl⟩ := join_request hbody
  obtain ⟨own', hown', _, hvalid⟩ := hagain.own
  obtain rfl := Option.mem_unique hown hown'
  obtain ⟨key, hkey, hlength⟩ := hagain.key
  obtain ⟨hpeer, hpub, -⟩ := hagain.issued
  obtain ⟨-, -, -, hother, -⟩ := h.formed a ha
  have hchecks : invite.publicKey = a.publicKey ∧ invite.payload.peerId = a.publicKey ∧
      invite.payload.secretHash = p.secretHash secret ∧ a.receiver ≠ a.publicKey :=
    ⟨hagain.signer, hpeer.trans hagain.signer, hagain.secret, hother.symm⟩
  unfold Node.admitted
  simp [Box.unseal, hpub, hchecks, hkey, hlength, hvalid, hagain.recent, require,
    Checked.require_of]

/-- The joiner takes the answer again. -/
theorem Inv.receives (h : Inv p w) (hnamed : Named p w) (ha : a ∈ w.answers)
    (hhonest : p.honest a.receiver) (hopen : .revoked a.receiver a.relationshipId ∉ w.history)
    (hagain : Again p w a invite secret endpoint timestamp clock) {body : Join}
    (hbody : body.invite = invite) (now : String) :
    ∃ s, Node.receive p a.receiver (w.store a.receiver) body a now = .ok s := by
  obtain ⟨hpeer, hpub, -⟩ := hagain.issued
  obtain ⟨hmessaging, hsender, hlabel, -, hlength⟩ := h.formed a ha
  obtain ⟨valid, hvalid⟩ := hagain.inviter
  have hold : ∀ old ∈ (w.store a.receiver).relationships.get? a.relationshipId,
      old.status ≠ .revoked := by
    intro old hold hrevoked
    exact hopen (hnamed.ended _ _ old hold hrevoked)
  have hchecks : a.publicKey = invite.payload.peerId ∧ a.inviteId = invite.payload.inviteId ∧
      True ∧ a.messagingPub = invite.payload.messagingPub := by
    rw [hpeer, hpub, hagain.signer]
    exact ⟨rfl, hagain.named.symm, trivial, hmessaging⟩
  have hunseal : a.box.unseal (p.messagingPub a.receiver) a.messagingPub messageLabel =
      some a.box.plain := by
    rw [Box.unseal, if_pos ⟨hsender.trans hmessaging.symm, hnamed.sealed a ha hhonest, hlabel⟩]
  unfold Node.receive
  rw [hbody]
  simp only [require, Checked.require_of hchecks, ok_bind, hvalid, demand_some, hunseal,
    Checked.require_of hlength, Store.putRelationship, Checked.require_of hold]
  exact ⟨_, rfl⟩

/-- Both halves of a repeated join. -/
theorem Inv.repeated (h : Inv p w) (hnamed : Named p w) (ha : a ∈ w.answers)
    (hhonest : p.honest a.receiver) (hinviter : .revoked a.publicKey a.relationshipId ∉ w.history)
    (hjoiner : .revoked a.receiver a.relationshipId ∉ w.history)
    (hagain : Again p w a invite secret endpoint timestamp clock) (nodeName later : String) :
    (∃ row, Node.join p a.receiver (w.store a.receiver) nodeName endpoint invite secret
        timestamp = .ok (.inl row) ∧ row.relationshipId = a.relationshipId ∧
      Holds (w.store a.receiver) a) ∨
    ∃ body s, Node.join p a.receiver (w.store a.receiver) nodeName endpoint invite secret
        timestamp = .ok (.inr body) ∧
      Node.accept p a.publicKey (w.store a.publicKey) body clock now rid drawn =
        .ok (w.store a.publicKey, a) ∧
      Node.receive p a.receiver (w.store a.receiver) body a later = .ok s ∧ Holds s a := by
  have hsigned : invite.payload.peerId = invite.publicKey ∧
      invite.payload.secretHash = p.secretHash secret := ⟨hagain.issued.1, hagain.secret⟩
  obtain ⟨valid, hvalid⟩ := hagain.inviter
  obtain ⟨own, hown, _⟩ := hagain.own
  cases hprior : Node.prior (w.store a.receiver) invite.payload with
  | some row =>
    left
    obtain ⟨⟨found, hget⟩, hinvite, -⟩ := prior_some hprior
    obtain rfl := h.of_invite ha hget (hinvite.trans hagain.named)
    refine ⟨row, ?_, (h.known _ _ row hget).1, h.holds hnamed ha hjoiner hget⟩
    simp only [Node.join, require, Checked.require_of hsigned, ok_bind, hvalid, demand_some, hprior,
      Checked.require_of (hnamed.active hjoiner hget)]
    rfl
  | none =>
    right
    obtain ⟨body, hbody⟩ : ∃ body, Node.join p a.receiver (w.store a.receiver) nodeName endpoint
        invite secret timestamp = .ok (.inr body) := by
      simp only [Node.join, require, Checked.require_of hsigned, ok_bind, hvalid, demand_some,
        hprior, hown]
      exact ⟨_, rfl⟩
    obtain ⟨_, _, heq⟩ := join_request hbody
    have hinvite : body.invite = invite := by rw [heq]
    obtain ⟨s, hreceive⟩ := h.receives hnamed ha hhonest hjoiner hagain hinvite later
    refine ⟨body, s, hbody, ?_, hreceive, (receive_holds hreceive).2⟩
    obtain ⟨record, hrecord, -⟩ := h.recorded a ha
    refine h.answeredAlike ha hrecord (hnamed.active hinviter hrecord) (h.admitted ha hagain hbody)
      ?_ ?_ ?_ ?_
    · rw [heq]
      exact hagain.named
    · rw [heq]
    · rw [heq]
      exact (hnamed.sealed a ha hhonest).symm
    · intro found hfound
      obtain ⟨-, -, stored, hstored, hhash⟩ := hagain.issued
      rw [hagain.signer, hagain.named, hfound] at hstored
      rw [Option.some.inj hstored, hhash, hagain.secret]

theorem Inv.agreed (h : Inv p w) {other rid' : String} {record' : Relationship}
    (hrecord : (w.store peer).relationships.get? rid = some record)
    (hrecord' : (w.store other).relationships.get? rid' = some record')
    (hinvite : record.inviteId = record'.inviteId) :
    rid = rid' ∧ (record.status = .active → record'.status = .active →
      (w.store peer).secrets.get? (.relationship rid) =
        (w.store other).secrets.get? (.relationship rid')) := by
  obtain ⟨_, a, ha, harid, haid, haside, haplain⟩ := h.known peer rid record hrecord
  obtain ⟨_, b, hb, hbrid, hbid, hbside, hbplain⟩ := h.known other rid' record' hrecord'
  have hid : a.inviteId = b.inviteId := haid.trans (hinvite.trans hbid.symm)
  -- the two inviters hold invites of one identifier, so they are one
  have hkey : a.publicKey = b.publicKey := by
    obtain ⟨invite, hget, _⟩ := h.answered a ha
    obtain ⟨invite', hget', _⟩ := h.answered b hb
    rw [← hid] at hget'
    exact h.unique _ _ _ _ _ hget hget'
  obtain rfl := h.one_answer ha hb hkey hid
  refine ⟨harid.symm.trans hbrid, ?_⟩
  intro hactive hactive'
  rw [haplain hactive, hbplain hactive']

/-- **Invitations are single-use and revocation is final**, in every reachable world. -/
theorem invitations_safe {w : World} (h : Reachable p w) : Safe p w := by
  have hinv := inv_reachable h
  obtain ⟨hpast, hfirst⟩ := past_reachable h
  have hnamed := named_reachable h
  refine ⟨?_, ?_, hpast.created, ?_, ?_, ?_, ?_, ?_, hpast.revoked⟩
  · intro a ha b hb hkey hid
    exact hinv.one_answer ha hb hkey hid
  · intro peer rid record hrecord
    obtain ⟨_, a, ha, hrid, hid, hside, hplain⟩ := hinv.known peer rid record hrecord
    refine ⟨a, ha, hrid, hid, hside, hplain, ?_⟩
    intro b hb hbrid
    exact hinv.single b hb a ha (hbrid.trans hrid.symm)
  · intro later past peer id rid now hsplit
    have hevent := Justified.justified_iff.mp hfirst later _ past hsplit
    obtain ⟨hclosed, hcreated⟩ := hevent peer id rid now rfl
    have hmem : .created peer id rid now ∈ w.history := by
      rw [hsplit]
      exact List.mem_append_right _ (.head _)
    obtain ⟨invite, hget, _, hexpiry⟩ := hpast.timely peer id rid now hmem
    exact ⟨hclosed, hcreated, invite, hget, hexpiry⟩
  · intro a ha hopen body clock now rid drawn secret hadmitted hid hpeer hpub hhash
    obtain ⟨record, hrecord, -⟩ := hinv.recorded a ha
    exact hinv.answeredAlike ha hrecord (hnamed.active hopen hrecord) hadmitted hid hpeer hpub hhash
  · intro a ha hhonest hinviter hjoiner invite secret nodeName endpoint timestamp clock now later
      rid drawn hagain
    exact hinv.repeated hnamed ha hhonest hinviter hjoiner hagain nodeName later
  · intro peer body a now s hreceive
    exact receive_holds hreceive
  · intro peer other rid rid' record record' hrecord hrecord' hinvite
    exact hinv.agreed hrecord hrecord' hinvite

def samplePlatform : Platform where
  honest _ := True
  messagingPub peer := peer
  secretHash _ := "hash"
  validEndpoint endpoint := some endpoint
  decode _ := some (List.replicate 32 0)

def sampleInvite : SignedInvite where
  publicKey := "inviter"
  payload := ⟨"invite", "inviter", "Inviter", "http://10.0.0.1", "inviter", "2", "hash"⟩

def sampleSecret : Bytes := List.replicate 32 1

def sampleJoin : Join where
  kind := joinKind
  invite := sampleInvite
  box := ⟨"joiner", "inviter", inviteSecretInfo "joiner", [7]⟩
  peerId := "joiner"
  nodeName := "Joiner"
  endpoint := "http://10.0.0.2"
  messagingPub := "joiner"
  timestamp := 0
  permissionsMatch := true
  proofKey := "joiner"

def sampleAnswer : Answer where
  publicKey := "inviter"
  relationshipId := "relationship"
  inviteId := "invite"
  receiver := "joiner"
  messagingPub := "inviter"
  box := ⟨"inviter", "joiner", messageLabel, sampleSecret⟩

def sampleCreated : World :=
  World.initial.withStore "inviter"
    (Store.empty.putInvite "invite" ⟨"hash", "2", .active, none⟩)

def sampleRecord : Relationship where
  relationshipId := "relationship"
  inviteId := "invite"
  peerId := "joiner"
  nodeName := "Joiner"
  endpoint := trimmed "http://10.0.0.2"
  messagingPub := "joiner"
  status := .active
  createdAt := "1"
  revokedAt := none

def sampleStore : Store :=
  ((Store.empty.putInvite "invite" ⟨"hash", "2", .active, none⟩).putInvite "invite"
    ⟨"hash", "2", .used, some "relationship"⟩).addRelationship sampleRecord sampleSecret

/-- An invite that was joined; the answer is still on its way. -/
def sampleWorld : World :=
  { { sampleCreated with joins := [sampleJoin] }.withStore "inviter" sampleStore with
    answers := [sampleAnswer]
    history := [.created "inviter" "invite" "relationship" "1"] }

theorem sample_reachable : Reachable samplePlatform sampleWorld := by
  have hcreated : Reachable samplePlatform sampleCreated :=
    .step .initial (.createInvite _ trivial "invite" "hash" "2" fun _ => rfl)
  have hjoined : Reachable samplePlatform { sampleCreated with joins := [sampleJoin] } :=
    .step hcreated (@Step.join _ _ "joiner" trivial "Joiner" "http://10.0.0.2" sampleInvite
      trivial [7] 0 _ rfl)
  exact .step hjoined (@Step.accept _ _ "inviter" trivial sampleJoin
    (fun _ => (.head _)) 0 "1" "relationship" sampleSecret rfl
    (by intro answer h; cases h) sampleStore sampleAnswer rfl)

theorem invitations_safe_sample : Safe samplePlatform sampleWorld ∧
    Again samplePlatform sampleWorld sampleAnswer sampleInvite [7] "http://10.0.0.2" 0 0 :=
  ⟨invitations_safe sample_reachable, ⟨rfl, rfl, _, rfl, rfl⟩, rfl, rfl, rfl, ⟨_, rfl⟩,
    ⟨_, rfl, _, rfl⟩, ⟨_, rfl, rfl⟩, by decide⟩

end Invites
