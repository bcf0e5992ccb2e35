import Rynmesh.AIAccess

/-!
# A revoked permission never works again

* `Permissions.set_ok` says all that a call of `set` can do to a grant;
* `Grown` is what every later grant keeps of an earlier one (`Run.grown`);
* `set_again`: a call that is repeated returns the row that it returned, or nothing;
* `authorize_iff` is when a request is admitted;
* `permissions_final`: a permission from before a revoke is refused for good.
-/

namespace AIAccess

open Checked

variable {p : Platform} {store store' : Permissions p} {friends : Friends} {request : Request}
  {written : Bool} {shown : Public}

/-! ### Keys -/

variable {relationshipId serviceId : String}

theorem ruleKey_ok {key : String} (h : ruleKey p serviceId relationshipId = .ok key) :
    isService serviceId = true ∧ isRelationshipId relationshipId = true ∧
      key = p.sha256 (serviceId ++ "\x00" ++ relationshipId) := by
  unfold ruleKey at h
  simp only [bind_ok, require_ok, pure_ok] at h
  obtain ⟨-, hservice, -, hrelationship, rfl⟩ := h
  exact ⟨hservice, hrelationship, rfl⟩

theorem length_of_isRelationshipId {text : String} (h : isRelationshipId text = true) :
    text.toList.length = 32 := by
  unfold isRelationshipId at h
  rw [Bool.and_eq_true, decide_eq_true_eq] at h
  exact h.1

theorem ruleKey_inj (hp : Function.Injective p.sha256) {service rid key : String}
    (h : ruleKey p serviceId relationshipId = .ok key) (h' : ruleKey p service rid = .ok key) :
    service = serviceId ∧ rid = relationshipId := by
  obtain ⟨-, hlength, rfl⟩ := ruleKey_ok h
  obtain ⟨-, hlength', heq⟩ := ruleKey_ok h'
  have htext := congrArg String.toList (hp heq)
  simp only [String.toList_append] at htext
  have hsplit := List.append_inj' htext (by
    rw [length_of_isRelationshipId hlength, length_of_isRelationshipId hlength'])
  have hfront := List.append_inj' hsplit.1 rfl
  exact ⟨(String.toList_inj.mp hfront.1).symm, (String.toList_inj.mp hsplit.2).symm⟩

theorem Permissions.grantAt_of_key {key : String}
    (h : ruleKey p serviceId relationshipId = .ok key) :
    store.grantAt serviceId relationshipId = store.grants.get? key := by
  unfold Permissions.grantAt
  rw [h]

variable {row : Grant}

theorem Permissions.grantAt_named (hp : Function.Injective p.sha256)
    (h : store.grantAt serviceId relationshipId = some row) :
    row.serviceId = serviceId ∧ row.relationshipId = relationshipId := by
  unfold Permissions.grantAt at h
  split at h
  · rename_i key hkey
    exact ruleKey_inj hp hkey (store.keyed key row h)
  · cases h

/-! ### What a call does -/

/-- A change of a grant: a new one, or one whose flag turns, with the next revision; a grant
that allows is of a peer that is an active friend. -/
structure Changed (friends : Friends) (request : Request) (before : Option Grant) (after : Grant) :
    Prop where
  allowed : after.allowed = request.allowed
  revision : after.revision = request.expectedRevision + 1
  next : after.revision = (before.map Grant.revision).getD 0 + 1
  turned : ∀ row, before = some row → row.allowed ≠ after.allowed ∧ after.peerId = row.peerId
  friend : after.allowed = true → friends.activeWith request.relationshipId after.peerId = true

/-- What a call of `set` that returns has done: nothing, or one change of its own grant. -/
structure Answered (store store' : Permissions p) (friends : Friends) (request : Request)
    (shown : Public) : Prop where
  row : store'.grantAt request.serviceId request.relationshipId = some shown.grant
  allowed : shown.grant.allowed = request.allowed
  friend : request.allowed = true →
    (friends request.relationshipId).any Relationship.active = true
  done : store' = store ∧ (shown.grant.revision = request.expectedRevision ∨
      shown.grant.revision = request.expectedRevision + 1) ∨
    Changed friends request (store.grantAt request.serviceId request.relationshipId) shown.grant ∧
    ∀ serviceId relationshipId, (serviceId, relationshipId) ≠
      (request.serviceId, request.relationshipId) →
        store'.grantAt serviceId relationshipId = store.grantAt serviceId relationshipId

theorem Permissions.put_others (hp : Function.Injective p.sha256) {key : String}
    {hkey : ruleKey p row.serviceId row.relationshipId = .ok key} {hpositive : 1 ≤ row.revision}
    {hnamed : 1 ≤ row.peerId.length ∧ row.peerId.length ≤ 128}
    (hrequest : ruleKey p request.serviceId request.relationshipId = .ok key)
    (hne : (serviceId, relationshipId) ≠ (request.serviceId, request.relationshipId)) :
    (store.put key row hkey hpositive hnamed).grantAt serviceId relationshipId =
      store.grantAt serviceId relationshipId := by
  unfold Permissions.grantAt
  split
  · rename_i other hother
    refine Dict.get?_set_ne _ _ fun heq => hne ?_
    rw [heq] at hother
    obtain ⟨hservice, hrelationship⟩ := ruleKey_inj hp hrequest hother
    rw [hservice, hrelationship]
  · rfl

theorem activeWith_of_any {peerId : String}
    (hactive : (friends relationshipId).any Relationship.active = true)
    (hpeer : (friends relationshipId).map Relationship.peerId = some peerId) :
    friends.activeWith relationshipId peerId = true := by
  unfold Friends.activeWith
  cases hrow : friends relationshipId with
  | none =>
    rw [hrow] at hpeer
    cases hpeer
  | some row =>
    rw [hrow] at hactive hpeer
    simp only [Option.any_some, Option.map_some, Option.some.injEq] at hactive hpeer ⊢
    simp [hactive, hpeer]

theorem Permissions.set_ok (hp : Function.Injective p.sha256)
    (h : store.set friends request written = .ok (store', shown)) :
    Answered store store' friends request shown := by
  obtain ⟨⟨key, hkey⟩, -, h⟩ := bind_ok.mp h
  obtain ⟨_, hfriend, h⟩ := bind_ok.mp h
  rw [require_ok] at hfriend
  have hat : ∀ store : Permissions p, store.grantAt request.serviceId request.relationshipId =
      store.grants.get? key := fun store => Permissions.grantAt_of_key hkey
  split at h
  · rename_i prior hprior
    unfold Permissions.change at h
    split at h
    · rename_i hrepeat
      obtain ⟨rfl, rfl⟩ := Prod.mk.inj (Except.ok.inj h)
      exact ⟨(hat store).trans hprior, hrepeat.2, hfriend, Or.inl ⟨rfl, Or.inr hrepeat.1⟩⟩
    split at h
    · cases h
    rename_i hrevision
    rw [not_not] at hrevision
    split at h
    · rename_i hallowed
      obtain ⟨rfl, rfl⟩ := Prod.mk.inj (Except.ok.inj h)
      exact ⟨(hat store).trans hprior, hallowed, hfriend, Or.inl ⟨rfl, Or.inl hrevision⟩⟩
    · rename_i hallowed
      simp only [bind_ok, require_ok, pure_ok] at h
      obtain ⟨-, hpeer, -, -, h⟩ := h
      obtain ⟨rfl, rfl⟩ := Prod.mk.inj h
      refine ⟨(hat _).trans (Dict.get?_set_self _ _ _), rfl, hfriend, Or.inr ⟨⟨rfl, ?_, ?_, ?_, ?_⟩,
        fun serviceId relationshipId hne => Permissions.put_others hp hkey hne⟩⟩
      · exact congrArg (· + 1) hrevision
      · rw [hat store, hprior]
        rfl
      · intro row hrow
        rw [hat store, hprior] at hrow
        cases hrow
        exact ⟨hallowed, rfl⟩
      · exact fun hallow => activeWith_of_any (hfriend hallow) (hpeer hallow)
  · rename_i hnone
    unfold Permissions.create at h
    simp only [bind_ok, require_ok, demand_ok, pure_ok] at h
    obtain ⟨relationship, hrelationship, -, hzero, -, -, -, -, h⟩ := h
    obtain ⟨rfl, rfl⟩ := Prod.mk.inj h
    refine ⟨(hat _).trans (Dict.get?_set_self _ _ _), rfl, hfriend, Or.inr ⟨⟨rfl, ?_, ?_, ?_, ?_⟩,
      fun serviceId relationshipId hne => Permissions.put_others hp hkey hne⟩⟩
    · exact congrArg (· + 1) hzero
    · rw [hat store, hnone]
      rfl
    · intro row hrow
      rw [hat store, hnone] at hrow
      cases hrow
    · refine fun hallow => activeWith_of_any (hfriend hallow) ?_
      rw [hrelationship]
      rfl

theorem attach_of {x : Except String String} {key : String} (h : x = .ok key) :
    attach x = .ok ⟨key, h⟩ := by
  subst h
  rfl

/-- A call that finds what it asks for returns it. -/
theorem Permissions.set_found
    (hrow : store.grantAt request.serviceId request.relationshipId = some row)
    (hallowed : row.allowed = request.allowed)
    (hrevision : row.revision = request.expectedRevision ∨
      row.revision = request.expectedRevision + 1)
    (hfriend : request.allowed = true →
      (friends request.relationshipId).any Relationship.active = true) :
    store.set friends request written = .ok (store, row.public friends) := by
  unfold Permissions.grantAt at hrow
  split at hrow
  · rename_i key hkey
    unfold Permissions.set
    rw [attach_of hkey, ok_bind]
    simp only
    rw [require_of hfriend, ok_bind]
    split
    · rename_i prior hprior
      rw [hprior, Option.some.injEq] at hrow
      subst hrow
      unfold Permissions.change
      split
      · rfl
      · rename_i hnot
        have hsame : prior.revision = request.expectedRevision :=
          hrevision.resolve_right fun heq => hnot ⟨heq, hallowed⟩
        rw [if_neg (not_not.mpr hsame)]
    · rename_i hnone
      rw [hnone] at hrow
      cases hrow
  · cases hrow

/-! ### Later grants -/

/-- What a later grant keeps of an earlier one: its names, and a revision that tells its flag. -/
structure Grown (row later : Grant) : Prop where
  serviceId : later.serviceId = row.serviceId
  relationshipId : later.relationshipId = row.relationshipId
  peerId : later.peerId = row.peerId
  revision : row.revision ≤ later.revision
  flag : later.allowed = row.allowed ↔ (later.revision - row.revision) % 2 = 0

theorem Grown.refl (row : Grant) : Grown row row :=
  ⟨rfl, rfl, rfl, le_rfl, by simp⟩

theorem Grown.trans {next last : Grant} (h : Grown row next) (hlast : Grown next last) :
    Grown row last := by
  refine ⟨hlast.serviceId.trans h.serviceId, hlast.relationshipId.trans h.relationshipId,
    hlast.peerId.trans h.peerId, h.revision.trans hlast.revision, ?_⟩
  have hrevision := h.revision
  have hrevision' := hlast.revision
  have hflag := h.flag
  have hflag' := hlast.flag
  generalize row.allowed = a at hflag ⊢
  generalize next.allowed = b at hflag hflag'
  generalize last.allowed = c at hflag' ⊢
  cases a <;> cases b <;> cases c <;>
    simp only [reduceCtorEq, true_iff, false_iff] at hflag hflag' ⊢ <;> omega

theorem Grown.eq {later : Grant} (h : Grown row later) (hrevision : later.revision = row.revision) :
    later = row := by
  obtain ⟨hservice, hrelationship, hpeer, -, hflag⟩ := h
  cases row
  cases later
  simp_all

theorem Answered.grown (hp : Function.Injective p.sha256)
    (h : Answered store store' friends request shown)
    (hrow : store.grantAt serviceId relationshipId = some row) :
    ∃ later, store'.grantAt serviceId relationshipId = some later ∧ Grown row later := by
  obtain ⟨rfl, -⟩ | ⟨hchanged, hothers⟩ := h.done
  · exact ⟨row, hrow, Grown.refl row⟩
  by_cases hsame : (serviceId, relationshipId) = (request.serviceId, request.relationshipId)
  · obtain ⟨rfl, rfl⟩ := Prod.mk.inj hsame
    have hnames := Permissions.grantAt_named hp hrow
    have hnames' := Permissions.grantAt_named hp h.row
    obtain ⟨hturned, hpeer⟩ := hchanged.turned row hrow
    have hnext := hchanged.next
    rw [hrow, Option.map_some, Option.getD_some] at hnext
    refine ⟨_, h.row, hnames'.1.trans hnames.1.symm, hnames'.2.trans hnames.2.symm, hpeer, by omega,
      iff_of_false (Ne.symm hturned) (by omega)⟩
  · exact ⟨row, (hothers _ _ hsame).trans hrow, Grown.refl row⟩

variable {w w' later : World p}

theorem Run.grown (hp : Function.Injective p.sha256) (h : Run w w')
    (hrow : w.store.grantAt serviceId relationshipId = some row) :
    ∃ later, w'.store.grantAt serviceId relationshipId = some later ∧ Grown row later := by
  induction h with
  | refl => exact ⟨row, hrow, Grown.refl row⟩
  | step _ hstep ih =>
    obtain ⟨next, hnext, hgrown⟩ := ih
    cases hstep with
    | relate friends => exact ⟨next, hnext, hgrown⟩
    | set request written hset =>
      obtain ⟨last, hlast, hgrown'⟩ := (Permissions.set_ok hp hset).grown hp hnext
      exact ⟨last, hlast, hgrown.trans hgrown'⟩

/-- A call that is repeated later and returns has changed nothing, and returns the same row. -/
theorem set_again (hp : Function.Injective p.sha256)
    (h : w.store.set w.friends request written = .ok (store, shown))
    (hrun : Run ⟨store, w.friends⟩ later) {written' : Bool} {store' : Permissions p}
    {shown' : Public}
    (h' : later.store.set later.friends request written' = .ok (store', shown')) :
    store' = later.store ∧ shown'.grant = shown.grant := by
  have hfirst := Permissions.set_ok hp h
  have hagain := Permissions.set_ok hp h'
  obtain ⟨row, hrow, hgrown⟩ := hrun.grown hp hfirst.row
  have hrevision : shown.grant.revision = request.expectedRevision ∨
      shown.grant.revision = request.expectedRevision + 1 := by
    obtain ⟨-, hrevision⟩ | ⟨hchanged, -⟩ := hfirst.done
    · exact hrevision
    · exact Or.inr hchanged.revision
  have hle := hgrown.revision
  obtain ⟨rfl, hfound⟩ | ⟨hchanged, -⟩ := hagain.done
  · refine ⟨rfl, ?_⟩
    have hsame : shown'.grant = row := Option.mem_unique hagain.row hrow
    rw [hsame] at hfound ⊢
    -- with one revision more the flag would have turned
    have heven := hgrown.flag.mp (by rw [← hsame, hagain.allowed, hfirst.allowed])
    exact hgrown.eq (by omega)
  · have hnext := hchanged.next
    rw [hrow, Option.map_some, Option.getD_some, hchanged.revision] at hnext
    have hsame : row = shown.grant := hgrown.eq (by omega)
    refine absurd ?_ (hchanged.turned row hrow).1
    rw [hsame, hfirst.allowed, hchanged.allowed]

/-! ### Admission -/

theorem asInt?_eq {value : Option Json} {n : Int} :
    value.bind Json.asInt? = some n ↔ value = some (.int n) := by
  cases value with
  | none => simp
  | some v => cases v <;> simp [Json.asInt?]

theorem asStr?_eq {value : Option Json} {text : String} :
    value.bind Json.asStr? = some text ↔ value = some (.str text) := by
  cases value with
  | none => simp
  | some v => cases v <;> simp [Json.asStr?]

/-- A permission that is good now. -/
structure Good (store : Permissions p) (friends : Friends) (peerId serviceId : String)
    (permission : Json) (row : Grant) : Prop where
  relationshipId : permission.get? "relationship_id" = some (.str row.relationshipId)
  revision : permission.get? "revision" = some (.int row.revision)
  current : store.grantAt serviceId row.relationshipId = some row
  allowed : row.allowed = true
  peer : row.peerId = peerId
  friend : friends.activeWith row.relationshipId peerId = true

theorem authorize_iff (hp : Function.Injective p.sha256) {peerId : String} {permission : Json}
    {accepted : Accepted} :
    store.authorize friends peerId serviceId permission = .ok accepted ↔
      ∃ row, Good store friends peerId serviceId permission row ∧
        accepted = ⟨row.relationshipId, row.revision⟩ := by
  unfold Permissions.authorize
  simp only [bind_ok, demand_ok, require_ok, pure_ok, asInt?_eq, asStr?_eq,
    Option.filter_eq_some_iff, Bool.and_eq_true, decide_eq_true_eq]
  constructor
  · intro h
    obtain ⟨revision, hrevision, -, -, relationshipId, hrelationship, key, hkey, row,
      ⟨hrow, hpeer, hallowed⟩, -, rfl, -, hfriend, rfl⟩ := h
    obtain ⟨-, hname⟩ := ruleKey_inj hp hkey (store.keyed key row hrow)
    refine ⟨row, ⟨?_, hrevision, ?_, hallowed, hpeer, hfriend⟩, rfl⟩
    · rw [hname]
      exact hrelationship
    · rw [hname, Permissions.grantAt_of_key hkey]
      exact hrow
  · rintro ⟨row, hgood, rfl⟩
    have hcurrent := hgood.current
    unfold Permissions.grantAt at hcurrent
    split at hcurrent
    · rename_i key hkey
      exact ⟨row.revision, hgood.revision, ⟨⟩, (ruleKey_ok hkey).1, row.relationshipId,
        hgood.relationshipId, key, hkey, row, ⟨hcurrent, hgood.peer, hgood.allowed⟩, ⟨⟩, rfl, ⟨⟩,
        hgood.friend, rfl⟩
    · cases hcurrent

theorem Good.revoked (hp : Function.Injective p.sha256) {peerId : String} {permission : Json}
    {stopped : Grant} (hgood : Good w.store w.friends peerId serviceId permission row)
    (h : Run w w') (hstopped : w'.store.grantAt serviceId row.relationshipId = some stopped)
    (hrevoked : stopped.allowed = false) (hlater : Run w' later) {other : Grant} :
    ¬ Good later.store later.friends peerId serviceId permission other := by
  intro hother
  have hname : other.relationshipId = row.relationshipId := by
    have h := hgood.relationshipId.symm.trans hother.relationshipId
    simpa using h.symm
  have hrevision : other.revision = row.revision := by
    have h := hgood.revision.symm.trans hother.revision
    simpa using h.symm
  obtain ⟨next, hnext, hgrown⟩ := h.grown hp hgood.current
  rw [hstopped, Option.some.injEq] at hnext
  subst hnext
  obtain ⟨last, hlast, hgrown'⟩ := hlater.grown hp hstopped
  rw [← hname, hother.current, Option.some.injEq] at hlast
  subst hlast
  have hle := hgrown'.revision
  have hle' := hgrown.revision
  have hsame := hgrown.eq (by omega)
  rw [hsame, hgood.allowed] at hrevoked
  cases hrevoked

/-- **A revoked permission never works again.**  From every state: a call of `set` changes at most
the flag of its own grant, which it turns, with the next revision, and allows only an active
friend; a call that is repeated later changes nothing and returns its row while that row is
there, but for an allowance of a friend who is not active any more; a request is admitted
exactly with the current row of its own service, relationship and peer; and once that row was
revoked, its permission is never admitted again. -/
theorem permissions_final (p : Platform) (hp : Function.Injective p.sha256) (w : World p) :
    (∀ request written store shown, w.store.set w.friends request written = .ok (store, shown) →
      Answered w.store store w.friends request shown ∧
      ∀ later, Run ⟨store, w.friends⟩ later → ∀ written',
        (∀ store' shown', later.store.set later.friends request written' = .ok (store', shown') →
          store' = later.store ∧ shown'.grant = shown.grant) ∧
        (later.store.grantAt request.serviceId request.relationshipId = some shown.grant →
          (request.allowed = true →
            (later.friends request.relationshipId).any Relationship.active = true) →
          later.store.set later.friends request written' =
            .ok (later.store, shown.grant.public later.friends))) ∧
    (∀ peerId serviceId permission accepted,
      w.store.authorize w.friends peerId serviceId permission = .ok accepted ↔
        ∃ row, Good w.store w.friends peerId serviceId permission row ∧
          accepted = ⟨row.relationshipId, row.revision⟩) ∧
    (∀ serviceId relationshipId row, w.store.grantAt serviceId relationshipId = some row →
      row.serviceId = serviceId ∧ row.relationshipId = relationshipId ∧
      ∀ later, Run w later → ∃ row', later.store.grantAt serviceId relationshipId = some row' ∧
        Grown row row') ∧
    ∀ peerId serviceId permission row, Good w.store w.friends peerId serviceId permission row →
      ∀ w', Run w w' → ∀ stopped,
        w'.store.grantAt serviceId row.relationshipId = some stopped → stopped.allowed = false →
        ∀ later, Run w' later → ∀ accepted,
          later.store.authorize later.friends peerId serviceId permission ≠ .ok accepted := by
  refine ⟨?_, fun _ _ _ _ => authorize_iff hp, ?_, ?_⟩
  · intro request written store shown hset
    have hfirst := Permissions.set_ok hp hset
    refine ⟨hfirst, fun later hlater written' => ⟨fun store' shown' hagain => ?_, ?_⟩⟩
    · exact set_again hp hset hlater hagain
    · intro hrow hfriend
      refine Permissions.set_found hrow hfirst.allowed ?_ hfriend
      obtain ⟨-, hrevision⟩ | ⟨hchanged, -⟩ := hfirst.done
      · exact hrevision
      · exact Or.inr hchanged.revision
  · intro serviceId relationshipId row hrow
    obtain ⟨hservice, hrelationship⟩ := Permissions.grantAt_named hp hrow
    exact ⟨hservice, hrelationship, fun later hlater => hlater.grown hp hrow⟩
  · intro peerId serviceId permission row hgood w' hrun stopped hstopped hrevoked later hlater
      accepted haccepted
    obtain ⟨other, hother, -⟩ := (authorize_iff hp).mp haccepted
    exact hgood.revoked hp hrun hstopped hrevoked hlater hother

/-! A friend is allowed a service, and leaves. -/

def samplePlatform : Platform := ⟨id⟩

def sampleFriend : Relationship := ⟨"friend", true, by decide⟩

def sampleRid : String := "00000000000000000000000000000001"

def sampleFriends : Friends := fun rid => if rid = sampleRid then some sampleFriend else none

def sampleRequest : Request := ⟨"model-x", sampleRid, true, 0⟩

theorem sample_allowed : ∃ store shown, (Permissions.empty samplePlatform).set sampleFriends
    sampleRequest true = .ok (store, shown) := by
  have h : ((Permissions.empty samplePlatform).set sampleFriends sampleRequest
      true).toOption.isSome = true := by
    decide +kernel
  obtain ⟨result, hresult⟩ := toOption_isSome h
  exact ⟨result.1, result.2, hresult⟩

/-- A call whose response was lost is refused when it is repeated after the friend left. -/
theorem repeated_set_is_refused :
    ∃ store shown, (Permissions.empty samplePlatform).set sampleFriends sampleRequest true =
        .ok (store, shown) ∧
      ∃ later, Run ⟨store, sampleFriends⟩ later ∧ later.store = store ∧
        ∀ written result, later.store.set later.friends sampleRequest written ≠ .ok result := by
  obtain ⟨store, shown, h⟩ := sample_allowed
  refine ⟨store, shown, h, ⟨store, fun _ => none⟩, .step .refl (.relate fun _ => none), rfl, ?_⟩
  intro written result hresult
  have hfriend := (Permissions.set_ok Function.injective_id hresult).friend rfl
  cases hfriend

def samplePermission : Json := .obj [("relationship_id", .str sampleRid), ("revision", .int 1)]

/-- The friend is allowed, asks, and is revoked. -/
def sampleCalls : Except String (Accepted × Option Grant) := do
  let (store, _) ← (Permissions.empty samplePlatform).set sampleFriends sampleRequest true
  let accepted ← store.authorize sampleFriends "friend" "model-x" samplePermission
  let (stopped, _) ← store.set sampleFriends ⟨"model-x", sampleRid, false, 1⟩ true
  return (accepted, stopped.grantAt "model-x" sampleRid)

/-- Once the friend was revoked, the permission that worked is refused for good. -/
theorem permissions_final_sample :
    ∃ w w' : World samplePlatform, Run (.initial samplePlatform sampleFriends) w ∧ Run w w' ∧
      (∃ accepted, w.store.authorize w.friends "friend" "model-x" samplePermission =
        .ok accepted) ∧
      ∀ later, Run w' later → ∀ accepted,
        later.store.authorize later.friends "friend" "model-x" samplePermission ≠ .ok accepted := by
  have hcalls : (sampleCalls.toOption.any fun result => decide
      (result = (⟨sampleRid, 1⟩, some ⟨"model-x", sampleRid, "friend", false, 2⟩))) = true := by
    decide +kernel
  obtain ⟨result, hresult, hvalue⟩ := toOption_any hcalls
  rw [of_decide_eq_true hvalue] at hresult
  unfold sampleCalls at hresult
  simp only [bind_ok, pure_ok, Prod.mk.injEq] at hresult
  obtain ⟨⟨store, shown⟩, hset, accepted, haccepted, ⟨stopped, gone⟩, hrevoke, -, hstopped⟩ :=
    hresult
  have hrun : Run (.initial samplePlatform sampleFriends) ⟨store, sampleFriends⟩ :=
    .step .refl (.set sampleRequest true hset)
  have hrun' : Run (p := samplePlatform) ⟨store, sampleFriends⟩ ⟨stopped, sampleFriends⟩ :=
    .step .refl (.set _ true hrevoke)
  obtain ⟨row, hgood, -⟩ := (authorize_iff Function.injective_id).mp haccepted
  have hname : row.relationshipId = sampleRid := by
    have h := hgood.relationshipId
    rw [show samplePermission.get? "relationship_id" = some (.str sampleRid) by decide +kernel] at h
    simpa using h.symm
  refine ⟨⟨store, sampleFriends⟩, ⟨stopped, sampleFriends⟩, hrun, hrun', ⟨accepted, haccepted⟩, ?_⟩
  exact (permissions_final samplePlatform Function.injective_id ⟨store, sampleFriends⟩).2.2.2
    "friend" "model-x" samplePermission row hgood ⟨stopped, sampleFriends⟩ hrun' _
    (hname ▸ hstopped) rfl

end AIAccess
