import Rynmesh.PairingStore

/-!
# What compaction and trimming keep of the pairing store

* `Keeps` is what a change of the document must keep: the validator accepts it, live
  pairs and their invites stay as they are, and consumed invites admit nobody;
* `Sweep` is what compaction and trimming have in common: they drop pairs that ended,
  invites that are finished and not linked, and the links to dropped pairs;
* `Sweep.keeps_iff` says when a sweep keeps all of that, and `mutate_safe_iff` when
  `mutate` does.

A sweep can only fail on consumed invites: one that has not expired and loses its link
looks like one that was never used.
-/

namespace Pairing

open Checked

variable {p : Platform} {data after : Data} {now : Rat}

/-! ### What must be kept -/

/-- A pair that is active, or awaits a step of one side. -/
def Live (pair : Json) : Prop :=
  isStatus "rejected" pair = false ∧ isStatus "revoked" pair = false

/-- The invite has admitted a device. -/
def Consumed (invite : Json) : Prop :=
  isStatus "claimed" invite = true ∨ (linkOf invite).isSome = true

/-- A join request that carries the invite, for a pair that is not in the store, is not
refused on their account. -/
def Usable (data : Data) (now : Rat) (inviteId : String) : Prop :=
  ∃ (join : Join) (saved : Json), join.inviteId = inviteId ∧
    data.invites.get? inviteId = some saved ∧ expiresOf saved = some (join.expires : Rat) ∧
    data.pairs.get? join.pairId = none ∧ refusal data now join saved = none

/-- What a change of a document has to keep. -/
structure Keeps (p : Platform) (now : Rat) (before after : Data) : Prop where
  valid : validate p after = .ok ()
  pairs : ∀ pairId pair, before.pairs.get? pairId = some pair → Live pair →
    after.pairs.get? pairId = some pair
  invites : ∀ inviteId invite pairId pair, before.invites.get? inviteId = some invite →
    linkOf invite = some (.str pairId) → before.pairs.get? pairId = some pair → Live pair →
    after.invites.get? inviteId = some invite
  consumed : ∀ inviteId invite, before.invites.get? inviteId = some invite → Consumed invite →
    ∀ later, now ≤ later → ¬ Usable after later inviteId

/-- A consumed invite is cancelled or expired, or stays linked. -/
def Guarded (now : Rat) (dropped : List String) (invite : Json) : Prop :=
  Consumed invite → isStatus "cancelled" invite = true ∨
    (expiresOf invite).all (· ≤ now) = true ∨
    (linkOf invite).isSome = true ∧ linkedTo dropped invite = false

/-- The rows differ in the transfer state at most. -/
def Alike (pair pair' : Json) : Prop :=
  pair'.isObj = pair.isObj ∧ ∀ k, k ≠ "transfer" → pair'.get? k = pair.get? k

/-- The documents differ in the order of their ids and the transfer state of pairs. -/
structure AlikeDocuments (before after : Data) : Prop where
  invites : ∀ inviteId, after.invites.get? inviteId = before.invites.get? inviteId
  pairs : ∀ pairId pair, before.pairs.get? pairId = some pair →
    ∃ pair', after.pairs.get? pairId = some pair' ∧ Alike pair pair'
  none : ∀ pairId, before.pairs.get? pairId = none → after.pairs.get? pairId = none

/-- `mutate` keeps what it has to, and stores what it made. -/
def Safe (p : Platform) (data : Data) (now : Rat) (operation : Data → Except String Data) :
    Prop :=
  ∃ compacted, compact data now = .ok compacted ∧ Keeps p now data compacted ∧
    ∀ changed, operation compacted = .ok changed → validate p changed = .ok () →
      Keeps p now changed changed.trimmed ∧
        ∀ bounded, boundRejections changed.trimmed = .ok bounded →
          bounded.json.size ≤ maxPlaintext →
          mutate p data now operation = .ok bounded.reread ∧
            validate p bounded.reread = .ok () ∧ AlikeDocuments changed.trimmed bounded.reread

/-- Every invite can be judged, and no consumed one that could still be used is left
without its link: neither by compaction nor by trimming what the operation left. -/
structure Unbroken (p : Platform) (data : Data) (now : Rat)
    (operation : Data → Except String Data) : Prop where
  readable : ∀ inviteId invite, data.invites.get? inviteId = some invite →
    readable invite = true
  compaction : ∀ inviteId invite, data.invites.get? inviteId = some invite →
    Guarded now (compactDropped data.pairs) invite
  trimming : ∀ compacted changed, compact data now = .ok compacted →
    operation compacted = .ok changed → validate p changed = .ok () →
    ∀ inviteId invite, changed.invites.get? inviteId = some invite →
      Guarded now (overflow changed.pairs) invite

/-! ### What the validator demands -/

/-- The document passes `_validate`. -/
structure Valid (p : Platform) (data : Data) : Prop where
  version : data.version = Pairing.version
  actor : data.actor = p.actor
  invitesFit : data.invites.entries.length ≤ maxRecords
  pairsFit : (data.pairs.entries.filter fun e =>
    e.2.isObj && e.2.get? "status" ≠ some (.str "revoked")).length ≤ maxRecords
  pairs : ∀ pairId pair, data.pairs.get? pairId = some pair →
    validatePair p pairId pair = .ok ()
  offers : ∀ inviteId invite, data.invites.get? inviteId = some invite →
    validateOffer p inviteId invite = .ok ()
  links : ∀ inviteId invite, data.invites.get? inviteId = some invite →
    validateLink data inviteId invite = .ok ()

/-- The validator accepts exactly the valid documents. -/
theorem validate_iff : validate p data = .ok () ↔ Valid p data := by
  simp only [validate, bind_ok, require_ok, forM_ok, Prod.forall,
    ← Dict.get?_eq_some_iff]
  constructor
  · intro h
    obtain ⟨_, hversion, _, hactor, _, hinvites, _, hpairs, _, hrows, hboth⟩ := h
    refine ⟨hversion, hactor, hinvites, hpairs, hrows, ?_, ?_⟩
    · intro inviteId invite hinvite
      obtain ⟨_, hoffer, -⟩ := hboth inviteId invite hinvite
      exact hoffer
    · intro inviteId invite hinvite
      obtain ⟨_, -, hlink⟩ := hboth inviteId invite hinvite
      exact hlink
  · intro h
    exact ⟨(), h.version, (), h.actor, (), h.invitesFit, (), h.pairsFit, (), h.pairs,
      fun inviteId invite hinvite =>
        ⟨(), h.offers inviteId invite hinvite, h.links inviteId invite hinvite⟩⟩

variable {pairId : String}

theorem validatePair_id {pair : Json} (h : validatePair p pairId pair = .ok ()) :
    isHex 64 pairId = true := by
  simp only [validatePair, actorId, bind_ok, require_ok, Checked.demand_ok,
    Option.bind_some, Json.asStr?, Option.some.injEq] at h
  obtain ⟨_, ⟨text, rfl, _, hhex, _⟩, _⟩ := h
  exact hhex

/-- The fields that the checks of a row read. -/
def rowFields : List String :=
  ["status", "role", "local", "remote", "expires", "invite_id", "requested_scopes",
    "local_policy", "remote_policy", "secret", "approval_hash"]

/-- The validator of a row reads its own fields only. -/
theorem validateRow_congr {pair pair' : Json}
    (h : ∀ k ∈ rowFields, pair'.get? k = pair.get? k) :
    validateRow p pair' = validateRow p pair := by
  simp only [rowFields, List.forall_mem_cons] at h
  obtain ⟨hstatus, hrole, hlocal, hremote, hexpires, hinvite, hscopes, hown, hother, hsecret,
    happroval, -⟩ := h
  simp only [validateRow, statusOf, hstatus, hrole, hlocal, hremote, hexpires, hinvite, hscopes,
    hown, hother, hsecret, happroval]

/-- So rows that are alike are valid together. -/
theorem validatePair_alike {pair pair' : Json} (h : Alike pair pair')
    (hvalid : validatePair p pairId pair = .ok ()) : validatePair p pairId pair' = .ok () := by
  have hrow : validateRow p pair' = validateRow p pair := by
    refine validateRow_congr fun k hk => h.2 k ?_
    rintro rfl
    simp [rowFields] at hk
  simp only [validatePair, h.1, h.2 "id" (by simp), hrow] at hvalid ⊢
  exact hvalid

variable {inviteId : String}

/-- An offer is judged by its status and its proof. -/
theorem validateOffer_congr {invite invite' : Json}
    (hstatus : invite'.get? "status" = invite.get? "status")
    (hproof : invite'.get? "proof" = invite.get? "proof") :
    validateOffer p inviteId invite' = validateOffer p inviteId invite := by
  simp only [validateOffer, statusOf, hstatus, hproof]

/-- A link leads to a pair that the inviter keeps. -/
theorem validateLink_iff {invite : Json} :
    validateLink data inviteId invite = .ok () ↔ ∀ link, linkOf invite = some link →
      ∃ pairId pair, link = .str pairId ∧ data.pairs.get? pairId = some pair ∧
        pair.get? "role" = some (.str "inviter") ∧
        pair.get? "invite_id" = some (.str inviteId) := by
  unfold validateLink
  cases hlink : linkOf invite with
  | none => simp
  | some link =>
    simp only [bind_ok, require_ok, Checked.demand_ok, Option.some.injEq,
      forall_eq']
    constructor
    · intro h
      obtain ⟨_, _, pair, hpair, hmatches⟩ := h
      cases link with
      | str pairId => exact ⟨pairId, pair, rfl, hpair, hmatches⟩
      | _ => cases hpair
    · intro h
      obtain ⟨pairId, pair, rfl, hpair, hmatches⟩ := h
      exact ⟨(), rfl, pair, hpair, hmatches⟩

/-- **The checks carry over** to a document whose rows are alike and whose links are
kept or cleared. -/
theorem Valid.carry (h : Valid p data) (hversion : after.version = data.version)
    (hactor : after.actor = data.actor)
    (hinvitesFit : after.invites.entries.length ≤ data.invites.entries.length)
    (hpairsFit : (after.pairs.entries.filter fun e =>
        e.2.isObj && e.2.get? "status" ≠ some (.str "revoked")).length ≤
      (data.pairs.entries.filter fun e =>
        e.2.isObj && e.2.get? "status" ≠ some (.str "revoked")).length)
    (hpairs : ∀ pairId pair', after.pairs.get? pairId = some pair' →
      ∃ pair, data.pairs.get? pairId = some pair ∧ Alike pair pair')
    (hinvites : ∀ inviteId invite', after.invites.get? inviteId = some invite' →
      ∃ invite, data.invites.get? inviteId = some invite ∧
        invite'.get? "status" = invite.get? "status" ∧
        invite'.get? "proof" = invite.get? "proof" ∧
        ∀ link, linkOf invite' = some link → linkOf invite = some link ∧
          ∀ pairId, link = .str pairId → (after.pairs.get? pairId).isSome = true) :
    Valid p after where
  version := hversion.trans h.version
  actor := hactor.trans h.actor
  invitesFit := hinvitesFit.trans h.invitesFit
  pairsFit := hpairsFit.trans h.pairsFit
  pairs pairId pair' hpair' := by
    obtain ⟨pair, hpair, halike⟩ := hpairs pairId pair' hpair'
    exact validatePair_alike halike (h.pairs pairId pair hpair)
  offers inviteId invite' hinvite' := by
    obtain ⟨invite, hinvite, hstatus, hproof, -⟩ := hinvites inviteId invite' hinvite'
    rw [validateOffer_congr hstatus hproof]
    exact h.offers inviteId invite hinvite
  links inviteId invite' hinvite' := by
    obtain ⟨invite, hinvite, -, -, hlinks⟩ := hinvites inviteId invite' hinvite'
    refine validateLink_iff.mpr fun link hlink => ?_
    obtain ⟨hbefore, hthere⟩ := hlinks link hlink
    obtain ⟨pairId, pair, rfl, hpair, hrole, hof⟩ :=
      validateLink_iff.mp (h.links inviteId invite hinvite) link hbefore
    obtain ⟨pair', hpair'⟩ := Option.isSome_iff_exists.mp (hthere pairId rfl)
    obtain ⟨known, hknown, halike⟩ := hpairs pairId pair' hpair'
    obtain rfl : known = pair := Option.mem_unique hknown hpair
    refine ⟨pairId, pair', rfl, hpair', ?_, ?_⟩
    · rw [halike.2 "role" (by simp), hrole]
    · rw [halike.2 "invite_id" (by simp), hof]

/-! ### Sweeps -/

/-- An invite is linked to one of some pairs. -/
theorem linkedTo_iff {ids : List String} {invite : Json} :
    linkedTo ids invite = true ↔ ∃ pairId, linkOf invite = some (.str pairId) ∧ pairId ∈ ids := by
  unfold linkedTo
  cases hlink : linkOf invite with
  | none => simp
  | some link => cases link <;> simp

/-- The invite after the links to dropped pairs are cleared. -/
def swept (dropped : List String) (invite : Json) : Json :=
  if linkedTo dropped invite then invite.withField "pair_id" .null else invite

/-- It touches no other field of an invite. -/
theorem get?_swept (dropped : List String) (invite : Json) {k : String} (hk : k ≠ "pair_id") :
    (swept dropped invite).get? k = invite.get? k := by
  unfold swept
  split
  · exact Json.get?_withField_ne invite .null hk
  · rfl

theorem linkOf_cleared (invite : Json) : linkOf (invite.withField "pair_id" .null) = none := by
  cases invite with
  | obj fields => simp [linkOf, Json.withField, Json.get?, Json.lookup_setField]
  | _ => rfl

/-- A sweep takes the links to the pairs that it drops. -/
theorem linkOf_swept (dropped : List String) (invite : Json) :
    linkOf (swept dropped invite) =
      if linkedTo dropped invite then none else linkOf invite := by
  unfold swept
  split
  · exact linkOf_cleared invite
  · rfl

theorem isStatus_swept (status : String) (dropped : List String) (invite : Json) :
    isStatus status (swept dropped invite) = isStatus status invite := by
  simp only [isStatus, get?_swept dropped invite (show "status" ≠ "pair_id" by simp)]

theorem expiresOf_swept (dropped : List String) (invite : Json) :
    expiresOf (swept dropped invite) = expiresOf invite := by
  simp only [expiresOf, get?_swept dropped invite (show "proof" ≠ "pair_id" by simp)]

/-- Pairs that ended are dropped, and so are invites that are finished and not linked;
links to dropped pairs are cleared. -/
structure Sweep (data after : Data) (now : Rat) (dropped : List String)
    (keep : String → Json → Bool) : Prop where
  version : after.version = data.version
  actor : after.actor = data.actor
  pairs : after.pairs = popAll data.pairs dropped
  ended : ∀ pairId ∈ dropped, ∀ pair, data.pairs.get? pairId = some pair → ¬ Live pair
  invites : ∀ inviteId, after.invites.get? inviteId =
    ((data.invites.get? inviteId).filter (keep inviteId)).map (swept dropped)
  invitesFit : after.invites.entries.length ≤ data.invites.entries.length
  finished : ∀ inviteId invite, data.invites.get? inviteId = some invite →
    keep inviteId invite = false → (isStatus "cancelled" invite = true ∨
      (expiresOf invite).any (· ≤ now) = true) ∧ linkedTo data.pairs.keys invite = false

section Sweeps

variable {dropped : List String} {keep : String → Json → Bool}

theorem get?_popAll (pairs : Dict String Json) (ids : List String) (pairId : String) :
    (popAll pairs ids).get? pairId = if pairId ∈ ids then none else pairs.get? pairId := by
  rw [popAll, Dict.get?_filter]
  by_cases h : pairId ∈ ids
  · cases pairs.get? pairId <;> simp [h]
  · cases pairs.get? pairId <;> simp [h]

/-- The pairs that a sweep leaves. -/
theorem Sweep.pair (h : Sweep data after now dropped keep) {pair : Json} :
    after.pairs.get? pairId = some pair ↔
      pairId ∉ dropped ∧ data.pairs.get? pairId = some pair := by
  rw [h.pairs, get?_popAll]
  by_cases hdropped : pairId ∈ dropped <;> simp [hdropped]

/-- The invites that a sweep leaves. -/
theorem Sweep.invite (h : Sweep data after now dropped keep) {invite' : Json} :
    after.invites.get? inviteId = some invite' ↔
      ∃ invite, data.invites.get? inviteId = some invite ∧ keep inviteId invite = true ∧
        swept dropped invite = invite' := by
  rw [h.invites]
  simp only [Option.map_eq_some_iff, Option.filter_eq_some_iff, and_assoc]

/-- **A sweep of a valid document is valid.** -/
theorem Sweep.valid (h : Sweep data after now dropped keep) (hvalid : Valid p data) :
    Valid p after := by
  refine hvalid.carry h.version h.actor h.invitesFit ?_ ?_ ?_
  · rw [h.pairs]
    exact (List.filter_sublist.filter _).length_le
  · intro pairId pair hpair
    exact ⟨pair, (h.pair.mp hpair).2, rfl, fun _ _ => rfl⟩
  · intro inviteId invite' hinvite'
    obtain ⟨invite, hinvite, -, rfl⟩ := h.invite.mp hinvite'
    refine ⟨invite, hinvite, get?_swept dropped invite (by simp),
      get?_swept dropped invite (by simp), fun link hlink => ?_⟩
    rw [linkOf_swept] at hlink
    split at hlink
    · cases hlink
    · next hunlinked =>
      refine ⟨hlink, fun pairId heq => ?_⟩
      obtain ⟨known, pair, hknown, hpair, -⟩ :=
        validateLink_iff.mp (hvalid.links inviteId invite hinvite) link hlink
      obtain rfl : known = pairId := by
        rw [heq] at hknown
        exact (Json.str.inj hknown).symm
      refine Option.isSome_iff_exists.mpr ⟨pair, h.pair.mpr ⟨fun hdropped => hunlinked ?_, hpair⟩⟩
      exact linkedTo_iff.mpr ⟨known, heq ▸ hlink, hdropped⟩

theorem expiresOf_valid {invite : Json} {expires : Rat}
    (h : validateOffer p inviteId invite = .ok ()) (hexpires : expiresOf invite = some expires) :
    ∃ n : Int, expires = n := by
  simp only [validateOffer, verify, bind_ok, Checked.demand_ok, pure_ok,
    require_ok] at h
  obtain ⟨_, -, _, -, _, -, _, -, proof, ⟨value, hvalue, _, -, payload, hpayload, _, -, _, -, _, -,
    _, -, rfl⟩, _, -, _, -, _, -, n, hn, -⟩ := h
  simp only [expiresOf, hvalue, Option.bind_some] at hexpires
  obtain ⟨raw, hraw, hdict⟩ := Option.bind_eq_some_iff.mp hpayload
  rw [hraw, Option.bind_some] at hexpires
  obtain ⟨found, hfound, hnumber⟩ := Option.bind_eq_some_iff.mp hexpires
  obtain rfl := Json.dict?_of_get? hfound hdict
  obtain ⟨found', hfound', hint⟩ := Option.bind_eq_some_iff.mp hn
  obtain rfl := Option.mem_unique hfound hfound'
  refine ⟨n, ?_⟩
  cases found with
  | int m =>
    obtain rfl : m = n := by simpa [Json.asInt?] using hint
    simpa [Json.number?] using hnumber.symm
  | _ => simp [Json.asInt?] at hint

/-- There is always an id that is free. -/
theorem exists_fresh (rows : Dict String Json) : ∃ pairId, rows.get? pairId = none := by
  by_contra hall
  have hused : ∀ n, String.ofList (List.replicate n 'a') ∈ rows.keys := by
    intro n
    by_contra hnot
    exact hall ⟨_, Dict.get?_eq_none_iff.mpr hnot⟩
  have hnodup : ((List.range (rows.keys.length + 1)).map fun n =>
      String.ofList (List.replicate n 'a')).Nodup := by
    refine List.Nodup.map (fun a b hab => ?_) List.nodup_range
    have hlists := congrArg (fun text => text.toList.length) hab
    simpa using hlists
  have hsubset : ((List.range (rows.keys.length + 1)).map fun n =>
      String.ofList (List.replicate n 'a')) ⊆ rows.keys := by
    intro text htext
    obtain ⟨n, -, rfl⟩ := List.mem_map.mp htext
    exact hused n
  have hle := (List.subperm_of_subset hnodup hsubset).length_le
  simp at hle

/-- An unlinked invite in force can be used. -/
theorem usable_of {saved : Json} {expires : Int} (hsaved : data.invites.get? inviteId = some saved)
    (hcancelled : isStatus "cancelled" saved = false) (hlink : linkOf saved = none)
    (hexpires : expiresOf saved = some (expires : Rat)) (hlive : now < expires) :
    Usable data now inviteId := by
  obtain ⟨pairId, hfresh⟩ := exists_fresh data.pairs
  refine ⟨⟨pairId, inviteId, .null, .null, expires, .null, .null⟩, saved, rfl, hsaved, hexpires,
    hfresh, ?_⟩
  simp only [refusal, hlink, hfresh, hcancelled, Option.any_none, Bool.or_self, Bool.false_eq_true,
    if_false, Option.all_none, and_true, not_le.mpr hlive]

/-- What a usable invite admits. -/
theorem Usable.spec (h : Usable data now inviteId) :
    ∃ saved, data.invites.get? inviteId = some saved ∧ isStatus "cancelled" saved = false ∧
      (expiresOf saved).any (now < ·) = true ∧
      ∀ pairId pair, linkOf saved = some (.str pairId) → data.pairs.get? pairId = some pair →
        pairId = "" := by
  obtain ⟨join, saved, rfl, hsaved, hexpires, hfresh, hrefusal⟩ := h
  simp only [refusal, hfresh, Option.any_none, Bool.or_false, Option.all_none, and_true] at hrefusal
  split at hrefusal
  · cases hrefusal
  · next hunlinked =>
    split at hrefusal
    · cases hrefusal
    · next hopen =>
      split at hrefusal
      · cases hrefusal
      · next hlive =>
        refine ⟨saved, hsaved, by simpa using hopen, ?_, ?_⟩
        · rw [hexpires]
          simpa using hlive
        · intro pairId pair hlink hpair
          rw [hlink] at hunlinked
          simp only [Option.any_some, Json.truthy, ne_eq, Json.str.injEq, Bool.and_eq_true,
            decide_eq_true_eq, not_and, not_not] at hunlinked
          by_contra hne
          rw [hunlinked hne, hfresh] at hpair
          cases hpair

/-- **When a sweep keeps what it must**: exactly when it leaves no consumed invite that
could still be used without its link. -/
theorem Sweep.keeps_iff (h : Sweep data after now dropped keep) (hvalid : Valid p data) :
    Keeps p now data after ↔ ∀ inviteId invite, data.invites.get? inviteId = some invite →
      Guarded now dropped invite := by
  constructor
  · intro hkeeps inviteId invite hinvite hconsumed
    by_contra hbroken
    simp only [not_or, Bool.not_eq_true] at hbroken
    obtain ⟨hopen, hlive, hunlinked⟩ := hbroken
    cases hexpires : expiresOf invite with
    | none => simp [hexpires] at hlive
    | some expires =>
      obtain ⟨n, rfl⟩ := expiresOf_valid (hvalid.offers inviteId invite hinvite) hexpires
      have hlater : now < n := by simpa [hexpires] using hlive
      have hkept : keep inviteId invite = true := by
        by_contra hnot
        obtain ⟨hdone, -⟩ := h.finished inviteId invite hinvite (Bool.eq_false_iff.mpr hnot)
        rcases hdone with hcancelled | hexpired
        · rw [hopen] at hcancelled
          cases hcancelled
        · rw [hexpires] at hexpired
          exact absurd hlater (not_lt.mpr (by simpa using hexpired))
      have hlink : linkOf (swept dropped invite) = none := by
        rw [linkOf_swept]
        by_cases hlinked : linkedTo dropped invite = true
        · rw [if_pos hlinked]
        · rw [if_neg hlinked]
          cases hlink : linkOf invite with
          | none => rfl
          | some link => exact absurd ⟨by rw [hlink]; rfl, by simpa using hlinked⟩ hunlinked
      refine hkeeps.consumed inviteId invite hinvite hconsumed now le_rfl
        (usable_of (h.invite.mpr ⟨invite, hinvite, hkept, rfl⟩) ?_ hlink ?_ hlater)
      · rw [isStatus_swept, hopen]
      · rw [expiresOf_swept, hexpires]
  · intro hguarded
    refine ⟨validate_iff.mpr (h.valid hvalid), ?_, ?_, ?_⟩
    · intro pairId pair hpair hlive
      exact h.pair.mpr ⟨fun hdropped => h.ended pairId hdropped pair hpair hlive, hpair⟩
    · intro inviteId invite pairId pair hinvite hlink hpair hlive
      have hkept : keep inviteId invite = true := by
        by_contra hnot
        obtain ⟨-, hunlinked⟩ := h.finished inviteId invite hinvite (Bool.eq_false_iff.mpr hnot)
        have hlinked := linkedTo_iff.mpr ⟨pairId, hlink, Dict.mem_keys_of_get? hpair⟩
        rw [hunlinked] at hlinked
        cases hlinked
      have hsame : swept dropped invite = invite := by
        refine if_neg fun hlinked => ?_
        obtain ⟨other, hother, hdropped⟩ := linkedTo_iff.mp hlinked
        obtain rfl : other = pairId := by simpa [hlink, eq_comm] using hother
        exact h.ended other hdropped pair hpair hlive
      exact h.invite.mpr ⟨invite, hinvite, hkept, hsame⟩
    · intro inviteId invite hinvite hconsumed later hlater husable
      obtain ⟨saved, hsaved, hopen, hlive, hlinks⟩ := husable.spec
      obtain ⟨known, hknown, -, rfl⟩ := h.invite.mp hsaved
      obtain rfl := Option.mem_unique hinvite hknown
      rw [isStatus_swept] at hopen
      rw [expiresOf_swept] at hlive
      rcases hguarded inviteId invite hinvite hconsumed with hcancelled | hexpired | ⟨hlink, hkept⟩
      · rw [hopen] at hcancelled
        cases hcancelled
      · cases hexpires : expiresOf invite with
        | none => simp [hexpires] at hlive
        | some expires =>
          simp only [hexpires, Option.any_some, Option.all_some, decide_eq_true_eq]
            at hlive hexpired
          exact absurd (hexpired.trans hlater) (not_le.mpr hlive)
      · obtain ⟨link, hlink⟩ := Option.isSome_iff_exists.mp hlink
        obtain ⟨pairId, pair, rfl, hpair, -⟩ :=
          validateLink_iff.mp (hvalid.links inviteId invite hinvite) link hlink
        have hundropped : pairId ∉ dropped := by
          intro hdropped
          rw [linkedTo_iff.mpr ⟨pairId, hlink, hdropped⟩] at hkept
          cases hkept
        have hempty := hlinks pairId pair (by rw [linkOf_swept, hkept]; exact hlink)
          (h.pair.mpr ⟨hundropped, hpair⟩)
        have hhex := validatePair_id (hvalid.pairs pairId pair hpair)
        rw [hempty] at hhex
        exact absurd hhex (by decide)

end Sweeps

/-! ### Compaction and trimming are sweeps -/

/-- Only revoked pairs are trimmed. -/
theorem overflow_revoked {pairs : Dict String Json} {pair : Json} (h : pairId ∈ overflow pairs)
    (hpair : pairs.get? pairId = some pair) : isStatus "revoked" pair = true := by
  obtain ⟨entry, hentry, heq⟩ := List.mem_map.mp (List.mem_of_mem_take h)
  obtain ⟨hmem, hrevoked⟩ := List.mem_filter.mp hentry
  have hfound : pairs.get? pairId = some entry.2 :=
    Dict.get?_eq_some_iff.mpr (heq ▸ hmem)
  rw [hpair] at hfound
  rwa [Option.some.inj hfound]

/-- A revoked pair is not live. -/
theorem not_live_of_revoked {pair : Json} (h : isStatus "revoked" pair = true) : ¬ Live pair := by
  intro hlive
  rw [hlive.2] at h
  cases h

theorem get?_clear (invites : Dict String Json) (dropped : List String) (inviteId : String) :
    (clearDanglingInviteLinks invites dropped).get? inviteId =
      (invites.get? inviteId).map (swept dropped) :=
  Dict.get?_mapValues (swept dropped) invites inviteId

theorem length_clear (invites : Dict String Json) (dropped : List String) :
    (clearDanglingInviteLinks invites dropped).entries.length = invites.entries.length :=
  List.length_map ..

/-- Trimming is a sweep that keeps all invites. -/
theorem trimmed_sweep (data : Data) (now : Rat) :
    Sweep data data.trimmed now (overflow data.pairs) fun _ _ => true where
  version := rfl
  actor := rfl
  pairs := rfl
  ended pairId hdropped pair hpair := not_live_of_revoked (overflow_revoked hdropped hpair)
  invites inviteId := by
    refine (get?_clear ..).trans ?_
    cases data.invites.get? inviteId <;> rfl
  invitesFit := (length_clear ..).le
  finished inviteId invite _ h := by cases h

/-- Compaction drops only pairs that have ended. -/
theorem compactDropped_ended {pairs : Dict String Json} {pair : Json}
    (h : pairId ∈ compactDropped pairs) (hpair : pairs.get? pairId = some pair) : ¬ Live pair := by
  rcases List.mem_append.mp h with hrejected | htrimmed
  · obtain ⟨entry, hentry, heq⟩ := List.mem_map.mp hrejected
    obtain ⟨hmem, hstatus⟩ := List.mem_filter.mp hentry
    have hfound : pairs.get? pairId = some entry.2 :=
      Dict.get?_eq_some_iff.mpr (heq ▸ hmem)
    rw [hpair] at hfound
    obtain rfl := Option.some.inj hfound
    intro hlive
    rw [hlive.1] at hstatus
    cases hstatus
  · by_cases hgone : pairId ∈ (pairs.entries.filter fun e => isStatus "rejected" e.2).map Prod.fst
    · obtain ⟨entry, hentry, rfl⟩ := List.mem_map.mp (List.mem_of_mem_take htrimmed)
      have hfound := Dict.get?_eq_some_iff.mpr (List.mem_filter.mp hentry).1
      rw [get?_popAll, if_pos hgone] at hfound
      cases hfound
    · refine not_live_of_revoked (overflow_revoked htrimmed ?_)
      rw [get?_popAll, if_neg hgone, hpair]

/-- Compaction is a sweep of readable invites. -/
theorem compact_ok (h : compact data now = .ok after) :
    (∀ inviteId invite, data.invites.get? inviteId = some invite → readable invite = true) ∧
      Sweep data after now (compactDropped data.pairs)
        fun _ invite => !finished data.pairs.keys now invite := by
  simp only [compact, bind_ok, require_ok, pure_ok] at h
  obtain ⟨_, hreadable, rfl⟩ := h
  refine ⟨fun inviteId invite hinvite =>
    hreadable (inviteId, invite) (Dict.get?_eq_some_iff.mp hinvite), rfl, rfl, rfl,
    fun pairId hdropped pair hpair => compactDropped_ended hdropped hpair, ?_, ?_, ?_⟩
  · intro inviteId
    rw [get?_clear, Dict.get?_filter]
  · rw [length_clear]
    exact List.length_filter_le ..
  · intro inviteId invite _ hdone
    simp only [finished, Bool.not_eq_false', Bool.and_eq_true, Bool.or_eq_true,
      Bool.not_eq_true'] at hdone
    exact hdone

/-- Compaction succeeds where every invite can be read. -/
theorem compact_of (h : ∀ inviteId invite, data.invites.get? inviteId = some invite →
    readable invite = true) : ∃ after, compact data now = .ok after := by
  have hreadable : ∀ e ∈ data.invites.entries, readable e.2 = true :=
    fun e he => h e.1 e.2 (Dict.get?_eq_some_iff.mpr he)
  unfold compact
  rw [require, Checked.require_of hreadable]
  exact ⟨_, rfl⟩

/-! ### Storing what was made -/

theorem Alike.withTransfer (pair v : Json) : Alike pair (pair.withField "transfer" v) := by
  refine ⟨?_, fun k hk => Json.get?_withField_ne pair v hk⟩
  cases pair <;> rfl

/-- Bounding the refusals of a pair leaves it alike. -/
theorem boundPair_alike (quota : Nat) (pair : Json) : Alike pair (boundPair quota pair) := by
  unfold boundPair
  split
  · exact .withTransfer ..
  · exact ⟨rfl, fun _ _ => rfl⟩

theorem mapValues_self (rows : Dict String Json) : (rows.mapValues fun row => row) = rows := by
  simp [Dict.mapValues]

/-- So does bounding those of all pairs. -/
theorem boundRejections_ok {bounded : Data} (h : boundRejections data = .ok bounded) :
    ∃ f : Json → Json, (∀ pair, Alike pair (f pair)) ∧
      bounded = { data with pairs := data.pairs.mapValues f } := by
  simp only [boundRejections, bind_ok, require_ok] at h
  obtain ⟨_, -, hbounded⟩ := h
  split at hbounded
  · refine ⟨fun pair => pair, fun _ => ⟨rfl, fun _ _ => rfl⟩, ?_⟩
    rw [mapValues_self]
    exact (pure_ok.mp hbounded).symm
  · simp only [bind_ok, require_ok, pure_ok] at hbounded
    obtain ⟨_, -, _, -, rfl⟩ := hbounded
    exact ⟨_, boundPair_alike _, rfl⟩

theorem Valid.bounded (h : Valid p data) {f : Json → Json} (hf : ∀ pair, Alike pair (f pair)) :
    Valid p { data with pairs := data.pairs.mapValues f } := by
  refine h.carry rfl rfl le_rfl (le_of_eq ?_) ?_ ?_
  · show ((data.pairs.entries.map fun e => (e.1, f e.2)).filter _).length = _
    rw [List.filter_map, List.length_map]
    congr 1
    refine List.filter_congr fun e _ => ?_
    simp only [Function.comp, (hf e.2).1, (hf e.2).2 "status" (by simp)]
  · intro pairId pair' hpair'
    rw [Dict.get?_mapValues] at hpair'
    obtain ⟨pair, hpair, rfl⟩ := Option.map_eq_some_iff.mp hpair'
    exact ⟨pair, hpair, hf pair⟩
  · intro inviteId invite hinvite
    refine ⟨invite, hinvite, rfl, rfl, fun link hlink => ⟨hlink, fun pairId heq => ?_⟩⟩
    obtain ⟨known, pair, hknown, hpair, -⟩ :=
      validateLink_iff.mp (h.links inviteId invite hinvite) link hlink
    obtain rfl : known = pairId := (Json.str.inj (heq.symm.trans hknown)).symm
    rw [Dict.get?_mapValues, hpair]
    rfl

@[simp] theorem get?_sortedIds (rows : Dict String Json) (k : String) :
    (sortedIds rows).get? k = rows.get? k := by
  ext v
  rw [Dict.get?_eq_some_iff, Dict.get?_eq_some_iff]
  exact (List.perm_insertionSort _ rows.entries).mem_iff

/-- A document that is written and read again is valid. -/
theorem Valid.reread (h : Valid p data) : Valid p data.reread := by
  refine h.carry rfl rfl ?_ ?_ ?_ ?_
  · exact (List.perm_insertionSort _ data.invites.entries).length_eq.le
  · exact ((List.perm_insertionSort _ data.pairs.entries).filter _).length_eq.le
  · intro pairId pair hpair
    exact ⟨pair, (get?_sortedIds ..).symm.trans hpair, rfl, fun _ _ => rfl⟩
  · intro inviteId invite hinvite
    rw [Data.reread, get?_sortedIds] at hinvite
    refine ⟨invite, hinvite, rfl, rfl, fun link hlink => ⟨hlink, fun pairId heq => ?_⟩⟩
    obtain ⟨known, pair, hknown, hpair, -⟩ :=
      validateLink_iff.mp (h.links inviteId invite hinvite) link hlink
    obtain rfl : known = pairId := (Json.str.inj (heq.symm.trans hknown)).symm
    rw [Data.reread, get?_sortedIds, hpair]
    rfl

theorem alikeDocuments_of {f : Json → Json} (hf : ∀ pair, Alike pair (f pair)) :
    AlikeDocuments data ({ data with pairs := data.pairs.mapValues f } : Data).reread where
  invites inviteId := get?_sortedIds ..
  pairs pairId pair hpair := by
    refine ⟨f pair, ?_, hf pair⟩
    simp only [Data.reread, get?_sortedIds, Dict.get?_mapValues, hpair, Option.map_some]
  none pairId hnone := by
    simp only [Data.reread, get?_sortedIds, Dict.get?_mapValues, hnone, Option.map_none]

/-! ### The whole change -/

/-- The stages of a change that succeeds. -/
theorem mutate_ok {compacted changed bounded : Data} {operation : Data → Except String Data}
    (hvalid : validate p data = .ok ()) (hcompact : compact data now = .ok compacted)
    (hoperation : operation compacted = .ok changed) (htrimmed : Valid p changed.trimmed)
    (hbound : boundRejections changed.trimmed = .ok bounded)
    (hsize : bounded.json.size ≤ maxPlaintext) :
    mutate p data now operation = .ok bounded.reread ∧ validate p bounded.reread = .ok () ∧
      AlikeDocuments changed.trimmed bounded.reread := by
  obtain ⟨f, hf, rfl⟩ := boundRejections_ok hbound
  have hbounded := htrimmed.bounded hf
  refine ⟨?_, validate_iff.mpr hbounded.reread, alikeDocuments_of hf⟩
  simp only [mutate, hvalid, hcompact, hoperation, hbound, validate_iff.mpr hbounded, require,
    Checked.require_of hsize, ok_bind]
  rfl

/-- **Pairing store compaction.**  For a document that passes the validator, `mutate`
keeps what it must exactly when no consumed invite that could still be used is left
without its link. -/
theorem mutate_safe_iff (p : Platform) (data : Data) (now : Rat)
    (operation : Data → Except String Data) (hvalid : validate p data = .ok ()) :
    Safe p data now operation ↔ Unbroken p data now operation := by
  have hdata := validate_iff.mp hvalid
  constructor
  · intro hsafe
    obtain ⟨compacted, hcompact, hkeeps, hchanges⟩ := hsafe
    obtain ⟨hreadable, hsweep⟩ := compact_ok hcompact
    refine ⟨hreadable, (hsweep.keeps_iff hdata).mp hkeeps, ?_⟩
    intro compacted' changed hcompact' hoperation hchanged
    obtain rfl := Except.ok.inj (hcompact.symm.trans hcompact')
    exact ((trimmed_sweep changed now).keeps_iff (validate_iff.mp hchanged)).mp
      (hchanges changed hoperation hchanged).1
  · intro hunbroken
    obtain ⟨compacted, hcompact⟩ : ∃ after, compact data now = .ok after :=
      compact_of hunbroken.readable
    obtain ⟨-, hsweep⟩ := compact_ok hcompact
    refine ⟨compacted, hcompact, (hsweep.keeps_iff hdata).mpr hunbroken.compaction, ?_⟩
    intro changed hoperation hchanged
    have htrim := trimmed_sweep changed now
    have hvalid' := validate_iff.mp hchanged
    refine ⟨(htrim.keeps_iff hvalid').mpr
      (hunbroken.trimming compacted changed hcompact hoperation hchanged), ?_⟩
    intro bounded hbound hsize
    exact mutate_ok hvalid hcompact hoperation (htrim.valid hvalid') hbound hsize

/-! ### A revoked device whose record is trimmed -/

section Sample

def samplePub : String := "AQEBAQEBAQEBAQEBAQEBAQEBAQEBAQEBAQEBAQEBAQE="

def sampleActor : String := "25d115d194636ecde138cf13b7d9372e7d6b624acbd362038cac5452e21e3388"

def otherPub : String := "AgICAgICAgICAgICAgICAgICAgICAgICAgICAgICAgI="

def otherActor : String := "c185a2bdeb62e2f3154848bf4bd0a8b5c5d6c4846d26d9c6863f494cd6455de1"

/-- The keys are 32 times the byte 1, and 32 times the byte 2. -/
def samplePlatform : Platform :=
  { actor := sampleActor
    fingerprint := fun value => if value = .str samplePub then sampleActor else otherActor
    b64decode := fun text =>
      if text = samplePub then some (List.replicate 32 1)
      else if text = otherPub then some (List.replicate 32 2)
      else none
    b64encode := fun bytes => if bytes = List.replicate 32 1 then samplePub else otherPub
    urlsafeDecode := fun _ => none
    urlsafeEncode := fun _ => ""
    validateEndpoint := some
    strip := id
    str := fun value => value.asStr?.getD ""
    verifies := fun publicKey _ _ => publicKey = samplePub }

def sampleIdentity (pub actor name endpoint : String) : Json :=
  .object [("peer_id", .str pub), ("messaging_pub", .str pub), ("actor", .str actor),
    ("name", .str name), ("endpoint", .str endpoint)]

def sampleOwn : Json := sampleIdentity samplePub sampleActor "laptop" "http://192.168.1.2:8000"

def sampleOther : Json := sampleIdentity otherPub otherActor "phone" "http://192.168.1.3:8000"

def sampleInviteId : String := String.ofList (List.replicate 32 '0')

/-- The id that comes first in the order of the file. -/
def firstId : String := String.ofList (List.replicate 64 '0')

/-- An id of an older pair. -/
def olderId (n : Nat) : String :=
  String.ofList ('1' :: Nat.digitChar (n / 16) :: Nat.digitChar (n % 16) :: List.replicate 61 '0')

def sampleRow (pairId status : String) : Json :=
  .object [("id", .str pairId), ("role", .str "inviter"), ("local", sampleOwn),
    ("remote", sampleOther), ("invite_id", .str sampleInviteId), ("requested_scopes", .arr []),
    ("expires", .int 1000), ("status", .str status)]

def samplePayload : Json :=
  .object [("kind", .str inviteKind), ("id", .str sampleInviteId), ("inviter", sampleOwn),
    ("scopes", .arr []), ("created", .int 100), ("expires", .int 1000),
    ("secret_hash", .str "e57fa68cecbca4a238f1c1278a2cc0aba66e5a164e7aa6f877cdaabc740e21da")]

/-- The invite that admitted the first device. -/
def sampleInvite : Json :=
  .object [("status", .str "claimed"), ("pair_id", .str firstId),
    ("proof", .object [("alg", .str "ed25519"), ("public_key", .str samplePub),
      ("signature", .str "c2lnbmF0dXJl"), ("payload", samplePayload)])]

theorem toList_firstId : firstId.toList = List.replicate 64 '0' := String.toList_ofList

theorem toList_olderId (n : Nat) : (olderId n).toList =
    '1' :: Nat.digitChar (n / 16) :: Nat.digitChar (n % 16) :: List.replicate 61 '0' :=
  String.toList_ofList

theorem olderId_facts {m n : Nat} (hm : m < 256) (hn : n < 256) (h : olderId m = olderId n) :
    m = n := by
  have hdigit : ∀ a < 16, ∀ b < 16, Nat.digitChar a = Nat.digitChar b → a = b := by decide
  have hlists := congrArg String.toList h
  simp only [toList_olderId, List.cons.injEq, true_and, and_true] at hlists
  have hhigh := hdigit (m / 16) (by omega) (n / 16) (by omega) hlists.1
  have hlow := hdigit (m % 16) (by omega) (n % 16) (by omega) hlists.2
  omega

theorem firstId_ne_olderId (n : Nat) : firstId ≠ olderId n := by
  intro h
  have hfirst : firstId.toList.head? = some '0' := by
    rw [toList_firstId]
    rfl
  have holder : (olderId n).toList.head? = some '1' := by
    rw [toList_olderId]
    rfl
  rw [h, holder] at hfirst
  exact absurd hfirst (by decide)

/-- One device that was just admitted, and 256 that were revoked. -/
def sampleStore : Data :=
  { version := Pairing.version
    actor := sampleActor
    invites := ⟨[(sampleInviteId, sampleInvite)], List.nodup_singleton _⟩
    pairs := ⟨(firstId, sampleRow firstId "awaiting_owner") ::
        (List.range 256).map fun n => (olderId n, sampleRow (olderId n) "revoked"), by
      rw [List.map_cons, List.map_map, List.nodup_cons]
      refine ⟨?_, List.nodup_range.map_on ?_⟩
      · intro hmem
        obtain ⟨n, -, heq⟩ := List.mem_map.mp hmem
        exact firstId_ne_olderId n heq.symm
      · intro m hm n hn heq
        exact olderId_facts (List.mem_range.mp hm) (List.mem_range.mp hn) heq⟩ }

theorem otherPub_ne : otherPub ≠ samplePub := by simp [otherPub, samplePub]

theorem sampleOwn_identity : identity samplePlatform (some sampleOwn) = .ok sampleOwn := by
  decide +kernel

theorem sampleOther_identity : identity samplePlatform (some sampleOther) = .ok sampleOther := by
  decide +kernel

theorem olderId_hex {n : Nat} (h : n < 256) : isHex 64 (olderId n) = true := by
  have hdigit : ∀ a < 16, (('0' ≤ Nat.digitChar a && Nat.digitChar a ≤ '9') ||
      ('a' ≤ Nat.digitChar a && Nat.digitChar a ≤ 'f')) = true := by decide
  have hhigh := hdigit (n / 16) (by omega)
  have hlow := hdigit (n % 16) (by omega)
  simp only [isHex, toList_olderId, List.length_cons, List.length_replicate,
    List.all_cons, hhigh, hlow]
  decide

theorem sampleRow_valid (pairId : String) :
    validateRow samplePlatform (sampleRow pairId "revoked") = .ok () := by
  have hscopes : selected (some (.arr [])) = .ok [] := rfl
  have hinvite : identifier (some (.str sampleInviteId)) = .ok sampleInviteId := by
    rfl
  have hactor : sampleOwn.get? "actor" = some (.str samplePlatform.actor) := by
    simp [sampleOwn, sampleIdentity, samplePlatform]
  simp [validateRow, sampleRow, statusOf, hashable, Json.asStr?, Json.asInt?, statuses, agreed,
    sampleOwn_identity, sampleOther_identity, hactor, hinvite, hscopes, validatePolicy, require,
    Checked.require, whenever]

/-- A pair of the sample under its id. -/
structure SamplePair (entry : String × Json) : Prop where
  valid : validatePair samplePlatform entry.1 entry.2 = .ok ()
  role : entry.2.get? "role" = some (.str "inviter")
  inviteId : entry.2.get? "invite_id" = some (.str sampleInviteId)
  kept : isStatus "rejected" entry.2 = false

theorem sampleInvite_offer : validateOffer samplePlatform sampleInviteId sampleInvite = .ok () := by
  decide +kernel

theorem sampleInvite_link : linkOf sampleInvite = some (.str firstId) := by
  rfl

theorem sample_valid (pairs : Dict String Json) (hpairs : ∀ e ∈ pairs.entries, SamplePair e)
    (hfirst : (pairs.get? firstId).isSome = true)
    (hfit : (pairs.entries.filter fun e =>
      e.2.isObj && e.2.get? "status" ≠ some (.str "revoked")).length ≤ maxRecords) :
    Valid samplePlatform { sampleStore with pairs } where
  version := rfl
  actor := rfl
  invitesFit := show 1 ≤ maxRecords by decide
  pairsFit := hfit
  pairs pairId pair hpair := (hpairs (pairId, pair) (Dict.get?_eq_some_iff.mp hpair)).valid
  offers inviteId invite hinvite := by
    obtain ⟨rfl, rfl⟩ := Prod.mk.inj (List.mem_singleton.mp (Dict.get?_eq_some_iff.mp hinvite))
    exact sampleInvite_offer
  links inviteId invite hinvite := by
    obtain ⟨rfl, rfl⟩ := Prod.mk.inj (List.mem_singleton.mp (Dict.get?_eq_some_iff.mp hinvite))
    obtain ⟨row, hrow⟩ := Option.isSome_iff_exists.mp hfirst
    have hfound := hpairs (firstId, row) (Dict.get?_eq_some_iff.mp hrow)
    refine validateLink_iff.mpr fun link hlink => ⟨firstId, row, ?_, hrow, hfound.role,
      hfound.inviteId⟩
    exact Option.mem_unique hlink sampleInvite_link

/-- The older pairs of the sample. -/
def olderRows : List (String × Json) :=
  (List.range 256).map fun n => (olderId n, sampleRow (olderId n) "revoked")

theorem olderRows_pair {e : String × Json} (h : e ∈ olderRows) :
    SamplePair e ∧ isStatus "revoked" e.2 = true := by
  obtain ⟨n, hn, rfl⟩ := List.mem_map.mp h
  have hid : actorId (some (.str (olderId n))) = .ok (olderId n) := by
    simp only [actorId, Option.bind_some, Json.asStr?, Checked.demand_some, ok_bind,
      require, Checked.require_of (olderId_hex (List.mem_range.mp hn))]
    rfl
  have hobj : (sampleRow (olderId n) "revoked").isObj = true := rfl
  have hown : (sampleRow (olderId n) "revoked").get? "id" = some (.str (olderId n)) := by
    simp [sampleRow]
  refine ⟨⟨?_, by simp [sampleRow], by simp [sampleRow], by simp [isStatus, sampleRow]⟩,
    by simp [isStatus, sampleRow]⟩
  simp [validatePair, hid, hobj, hown, sampleRow_valid, require, Checked.require]

theorem olderRows_revoked : olderRows.filter (fun e => isStatus "revoked" e.2) = olderRows :=
  List.filter_eq_self.mpr fun _ he => (olderRows_pair he).2

theorem olderRows_dead : (olderRows.filter fun e =>
    e.2.isObj && e.2.get? "status" ≠ some (.str "revoked")) = [] := by
  refine List.filter_eq_nil_iff.mpr fun e he => ?_
  have hrevoked := (olderRows_pair he).2
  simp only [isStatus, decide_eq_true_eq] at hrevoked
  simp [hrevoked]

theorem sampleStore_pair {e : String × Json} (h : e ∈ sampleStore.pairs.entries) :
    SamplePair e := by
  rcases List.mem_cons.mp h with heq | holder
  · rw [heq]
    exact ⟨by decide +kernel, by decide +kernel, by decide +kernel, by decide +kernel⟩
  · exact (olderRows_pair holder).1

theorem sampleStore_valid : Valid samplePlatform sampleStore := by
  refine sample_valid sampleStore.pairs (fun e he => sampleStore_pair he) ?_ ?_
  · exact Option.isSome_iff_exists.mpr ⟨_, Dict.get?_eq_some_iff.mpr (.head _)⟩
  · show (((firstId, sampleRow firstId "awaiting_owner") :: olderRows).filter _).length ≤ _
    have hlength := congrArg List.length olderRows_dead
    rw [List.filter_cons]
    split
    · rw [List.length_cons, hlength]
      decide
    · rw [hlength]
      decide

/-- The owner revokes the device that was just admitted. -/
def sampleRevoke : Data → Except String Data := revoke sampleOwn (.str "wire") firstId (.int 0)

theorem popAll_nil (pairs : Dict String Json) : popAll pairs [] = pairs := by
  simp [popAll, Dict.filter]

theorem clear_nil (invites : Dict String Json) : clearDanglingInviteLinks invites [] = invites := by
  have hsame : ∀ invite, linkedTo [] invite = false := by
    intro invite
    refine Bool.eq_false_iff.mpr fun hlinked => ?_
    obtain ⟨_, -, hmem⟩ := linkedTo_iff.mp hlinked
    cases hmem
  simp only [clearDanglingInviteLinks, hsame, Bool.false_eq_true, if_false, mapValues_self]

theorem sampleStore_overflow : overflow sampleStore.pairs = [] := by
  have hrevoked : sampleStore.pairs.entries.filter (fun e => isStatus "revoked" e.2) =
      olderRows := by
    show ((firstId, sampleRow firstId "awaiting_owner") :: olderRows).filter _ = _
    rw [List.filter_cons_of_neg (by simp [isStatus, sampleRow]), olderRows_revoked]
  rw [overflow, hrevoked, List.length_map, olderRows, List.length_map, List.length_range]
  rfl

theorem sampleStore_compact : compact sampleStore 500 = .ok sampleStore := by
  have hexpires : expiresOf sampleInvite = some 1000 := by
    simp [expiresOf, sampleInvite, samplePayload, Json.number?]
  have hrejected : sampleStore.pairs.entries.filter (fun e => isStatus "rejected" e.2) = [] := by
    refine List.filter_eq_nil_iff.mpr fun e he => ?_
    simp [(sampleStore_pair he).kept]
  have hdropped : compactDropped sampleStore.pairs = [] := by
    rw [compactDropped, hrejected, List.map_nil, popAll_nil, sampleStore_overflow]
    rfl
  have hreadable : ∀ e ∈ sampleStore.invites.entries, readable e.2 = true := by
    intro e he
    obtain rfl := List.mem_singleton.mp he
    simp [readable, hexpires]
  have hopen : ∀ linked, finished linked 500 sampleInvite = false := by
    intro linked
    have hstatus : isStatus "cancelled" sampleInvite = false := by simp [isStatus, sampleInvite]
    have hlive : ¬ (1000 : Rat) ≤ 500 := by norm_num
    simp [finished, hstatus, hexpires, hlive]
  have hkept : (sampleStore.invites.filter fun _ invite =>
      !finished sampleStore.pairs.keys 500 invite) = sampleStore.invites := by
    simp [Dict.filter, sampleStore, hopen]
  simp only [compact, hdropped, hkept, popAll_nil, clear_nil, require, Checked.require_of hreadable,
    ok_bind]
  rfl

/-- The row of the device after it was revoked. -/
def sampleRevokedRow : Json := revokedRow (sampleRow firstId "awaiting_owner") (.str "wire")

theorem sampleRevokedRow_pair : SamplePair (firstId, sampleRevokedRow) ∧
    isStatus "revoked" sampleRevokedRow = true :=
  ⟨⟨by decide +kernel, by decide +kernel, by decide +kernel, by decide +kernel⟩,
    by decide +kernel⟩

/-- The document after the device was revoked, and before it is trimmed. -/
def sampleChanged : Data :=
  { sampleStore with pairs := sampleStore.pairs.set firstId sampleRevokedRow }

theorem sampleChanged_entries :
    sampleChanged.pairs.entries = (firstId, sampleRevokedRow) :: olderRows := by
  show Dict.assign firstId sampleRevokedRow
    ((firstId, sampleRow firstId "awaiting_owner") :: olderRows) = _
  rw [Dict.assign, if_pos rfl]

theorem sampleRevoke_ok : sampleRevoke sampleStore = .ok sampleChanged := by
  have hid : actorId (some (.str firstId)) = .ok firstId := by decide +kernel
  have hfound : sampleStore.pairs.get? firstId = some (sampleRow firstId "awaiting_owner") :=
    Dict.get?_eq_some_iff.mpr (.head _)
  have hsame : sameIdentity sampleOwn sampleOwn = true := by simp [sameIdentity]
  have hown : (sampleRow firstId "awaiting_owner").get? "local" = some sampleOwn := by
    simp [sampleRow]
  simp only [sampleRevoke, revoke, pairOf, hid, hfound, hown, hsame, Option.any_some, require,
    Checked.require, Checked.demand_some, ok_bind, if_true, Json.asInt?, Option.isSome_some]
  rfl

theorem sampleChanged_valid : Valid samplePlatform sampleChanged := by
  refine sample_valid (sampleStore.pairs.set firstId sampleRevokedRow) ?_ ?_ ?_
  · intro e he
    rcases List.mem_cons.mp (sampleChanged_entries ▸ he) with heq | holder
    · rw [heq]
      exact sampleRevokedRow_pair.1
    · exact (olderRows_pair holder).1
  · rw [Dict.get?_set_self]
    rfl
  · have hdead := sampleRevokedRow_pair.2
    simp only [isStatus, decide_eq_true_eq] at hdead
    have hentries : (sampleStore.pairs.set firstId sampleRevokedRow).entries = _ :=
      sampleChanged_entries
    rw [hentries, List.filter_cons_of_neg (by simp [hdead]), olderRows_dead]
    decide

theorem sampleChanged_overflow : overflow sampleChanged.pairs = [firstId] := by
  rw [overflow, sampleChanged_entries, List.filter_cons_of_pos (by exact sampleRevokedRow_pair.2),
    olderRows_revoked, List.length_map, List.length_cons, olderRows, List.length_map,
    List.length_range]
  rfl

theorem mutate_safe_iff_sample : Safe samplePlatform sampleStore 500 sampleRevoke ↔
    Unbroken samplePlatform sampleStore 500 sampleRevoke :=
  mutate_safe_iff samplePlatform sampleStore 500 sampleRevoke
    (validate_iff.mpr sampleStore_valid)

/-- **A revoked device's invite admits again.**  Revoking the device drops its record
when 256 others were revoked before and its id comes first, and the invite that it
consumed loses the link that refused everybody else. -/
theorem revoked_invite_reopens : validate samplePlatform sampleStore = .ok () ∧
    ¬ Safe samplePlatform sampleStore 500 sampleRevoke := by
  have hvalid : validate samplePlatform sampleStore = .ok () :=
    validate_iff.mpr sampleStore_valid
  refine ⟨hvalid, fun hsafe => ?_⟩
  obtain ⟨compacted, hcompact, -, hchanges⟩ := hsafe
  obtain rfl : sampleStore = compacted :=
    Except.ok.inj (sampleStore_compact.symm.trans hcompact)
  have hkeeps := (hchanges sampleChanged sampleRevoke_ok
    (validate_iff.mpr sampleChanged_valid)).1
  have hguarded := ((trimmed_sweep sampleChanged 500).keeps_iff sampleChanged_valid).mp hkeeps
    sampleInviteId sampleInvite (Dict.get?_eq_some_iff.mpr (.head _))
  have hconsumed : Consumed sampleInvite := .inr (by rw [sampleInvite_link]; rfl)
  rcases hguarded hconsumed with hcancelled | hexpired | ⟨-, hunlinked⟩
  · simp [isStatus, sampleInvite] at hcancelled
  · have hexpires : expiresOf sampleInvite = some 1000 := by
      simp [expiresOf, sampleInvite, samplePayload, Json.number?]
    rw [hexpires] at hexpired
    norm_num at hexpired
  · have hlinked : linkedTo [firstId] sampleInvite = true :=
      linkedTo_iff.mpr ⟨firstId, sampleInvite_link, (.head _)⟩
    rw [sampleChanged_overflow, hlinked] at hunlinked
    cases hunlinked

end Sample

end Pairing
