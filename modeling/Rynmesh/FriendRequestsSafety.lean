import Mathlib
import Rynmesh.FriendRequests

/-!
# No friend request is accepted twice

* `joinLines_inj`: lines that hold no line end can be told from their join;
* `message_inj`: a signed text tells everything that was signed;
* `Dated`: a nonce is remembered until some second, whatever else is accepted;
* `Inv`: what holds of a node between two events;
* `requests_safe`: in every run, no request is accepted twice, and each accepted
  one was signed as it stands.
-/

namespace FriendRequests

open Checked

variable {p : Platform}

/-- What is relied on: a digest is one line, and no two collide. -/
structure Platform.Faithful (p : Platform) : Prop where
  sha256 : Function.Injective p.sha256
  sha256_line : ∀ body, '\n' ∉ (p.sha256 body).toList

/-! ### Lines -/

def lineEnds (lines : List String) : Nat := (lines.flatMap String.toList).count '\n'

variable {lines : List String}

theorem count_joinLines (h : lines ≠ []) :
    (joinLines lines).count '\n' + 1 = lines.length + lineEnds lines := by
  induction lines with
  | nil => exact absurd rfl h
  | cons line rest ih =>
    cases rest with
    | nil =>
      simp [joinLines, lineEnds]
      omega
    | cons next more =>
      have hrest := ih (by simp)
      simp only [joinLines, lineEnds, List.flatMap_cons, List.length_cons,
        List.count_append, List.count_cons_self] at hrest ⊢
      omega

theorem lineEnds_eq_zero_iff : lineEnds lines = 0 ↔ ∀ line ∈ lines, '\n' ∉ line.toList := by
  rw [lineEnds, List.count_eq_zero, List.mem_flatMap]
  exact not_exists.trans (forall_congr' fun line => not_and)

theorem append_lineEnd_inj {a b s t : List Char} (ha : '\n' ∉ a) (hb : '\n' ∉ b)
    (h : a ++ '\n' :: s = b ++ '\n' :: t) : a = b ∧ s = t := by
  induction a generalizing b with
  | nil =>
    cases b with
    | nil => exact ⟨rfl, List.tail_eq_of_cons_eq h⟩
    | cons c rest =>
      rw [List.nil_append, List.cons_append, List.cons.injEq] at h
      exact absurd (h.1 ▸ (.head _)) hb
  | cons c rest ih =>
    cases b with
    | nil =>
      rw [List.nil_append, List.cons_append, List.cons.injEq] at h
      exact absurd (h.1 ▸ (.head _)) ha
    | cons d others =>
      rw [List.cons_append, List.cons_append, List.cons.injEq] at h
      have hrest := ih (fun hmem => ha (List.mem_cons_of_mem c hmem))
        (fun hmem => hb (List.mem_cons_of_mem d hmem)) h.2
      exact ⟨by rw [h.1, hrest.1], hrest.2⟩

theorem joinLines_inj {others : List String} (hlength : lines.length = others.length)
    (hlines : ∀ line ∈ lines, '\n' ∉ line.toList) (h : joinLines lines = joinLines others) :
    lines = others := by
  have hothers : ∀ line ∈ others, '\n' ∉ line.toList := by
    cases others with
    | nil => simp
    | cons first more =>
      have hne : lines ≠ [] := by
        intro hnil
        rw [hnil] at hlength
        simp at hlength
      have hcount := count_joinLines hne
      rw [h, count_joinLines (by simp), ← hlength, lineEnds_eq_zero_iff.mpr hlines] at hcount
      exact lineEnds_eq_zero_iff.mp (by omega)
  induction lines generalizing others with
  | nil => exact (List.length_eq_zero_iff.mp hlength.symm).symm
  | cons line rest ih =>
    cases others with
    | nil => simp at hlength
    | cons other more =>
      have hfirst : '\n' ∉ line.toList := hlines line (.head _)
      have hother : '\n' ∉ other.toList := hothers other (.head _)
      simp only [List.length_cons, Nat.add_right_cancel_iff] at hlength
      cases rest with
      | nil =>
        rw [List.length_nil, eq_comm, List.length_eq_zero_iff] at hlength
        subst hlength
        rw [String.toList_inj.mp h]
      | cons next lines =>
        cases more with
        | nil => simp at hlength
        | cons second others =>
          obtain ⟨hsame, hjoin⟩ := append_lineEnd_inj hfirst hother h
          rw [String.toList_inj.mp hsame,
            ih hlength (fun l hl => hlines l (.tail _ hl)) hjoin
              fun l hl => hothers l (.tail _ hl)]

/-! ### What is signed -/

theorem notMem_repr (n : Int) : '\n' ∉ n.repr.toList := by
  have hnat : ∀ m : Nat, '\n' ∉ m.repr.toList := by
    intro m h
    rw [Nat.toList_repr] at h
    exact absurd (Nat.isDigit_of_mem_toDigits (by decide) (by decide) h) (by decide)
  cases n with
  | ofNat m => exact hnat m
  | negSucc m =>
    intro h
    rw [show (Int.negSucc m).repr = "-" ++ (m + 1).repr from rfl, String.toList_append,
      List.mem_append] at h
    cases h with
    | inl h => exact absurd h (by decide)
    | inr h => exact hnat _ h

/-- A signed text tells all that was signed. -/
theorem message_inj (hp : p.Faithful) {f g : Fields} (hline : OneLine p f)
    (h : message p f = message p g) :
    p.upper f.method = p.upper g.method ∧ f.path = g.path ∧ f.body = g.body ∧
      f.sender = g.sender ∧ f.receiver = g.receiver ∧ f.timestamp = g.timestamp ∧
      f.nonce = g.nonce := by
  have hlines : ∀ line ∈ fieldLines p f, '\n' ∉ line.toList := by
    intro line hline'
    simp only [fieldLines, List.mem_cons, List.not_mem_nil, or_false] at hline'
    obtain rfl | rfl | rfl | rfl | rfl | rfl | rfl | rfl := hline'
    · decide
    · exact hline _ (by simp)
    · exact hline _ (by simp)
    · exact hline _ (by simp)
    · exact hline _ (by simp)
    · exact notMem_repr _
    · exact hline _ (by simp)
    · exact hp.sha256_line _
  have hjoin : joinLines (fieldLines p f) = joinLines (fieldLines p g) :=
    String.ofList_injective h
  have hlength : (fieldLines p f).length = (fieldLines p g).length := rfl
  have hfields := joinLines_inj hlength hlines hjoin
  simp only [fieldLines, List.cons.injEq, and_true, true_and] at hfields
  obtain ⟨hsender, hreceiver, hmethod, hpath, htimestamp, hnonce, hbody⟩ := hfields
  exact ⟨hmethod, hpath, hp.sha256 hbody, hsender, hreceiver, Int.repr_injective htimestamp, hnonce⟩

/-! ### Nonces -/

/-- A nonce is remembered at least until a second. -/
def Dated (nonces : Dict String Remembered) (relationshipId nonce : String) (last : Int) : Prop :=
  ∃ expiries expires, nonces.get? relationshipId = some (.dated expiries) ∧
    expiries.get? nonce = some expires ∧ last ≤ expires

variable {next nonces : Dict String Remembered} {nonce relationshipId : String} {timestamp : Int}

variable {now : Int}

theorem rememberNonce_ok (h : rememberNonce nonces relationshipId nonce now timestamp = some next) :
    (seen nonces relationshipId now).get? nonce = none ∧
      next = nonces.set relationshipId
        (.dated ((seen nonces relationshipId now).set nonce (timestamp + 120))) := by
  unfold rememberNonce at h
  split at h
  · cases h
  · rename_i hnot
    cases h
    refine ⟨?_, rfl⟩
    simpa using (not_or.mp hnot).1

theorem Dated.seen {last : Int} (h : Dated nonces relationshipId nonce last) (hnow : now ≤ last) :
    ∃ expires, (seen nonces relationshipId now).get? nonce = some expires ∧ last ≤ expires := by
  obtain ⟨expiries, expires, hget, hexpires, hle⟩ := h
  refine ⟨expires, ?_, hle⟩
  unfold FriendRequests.seen
  rw [hget, Option.getD_some, Remembered.expiries, Dict.get?_filter, hexpires]
  simp [hnow.trans hle]

/-- Another request does not make a node forget. -/
theorem Dated.remember {last : Int} (h : Dated nonces relationshipId nonce last)
    {other otherNonce : String} (hnow : now ≤ last)
    (hnext : rememberNonce nonces other otherNonce now timestamp = some next) :
    Dated next relationshipId nonce last := by
  obtain ⟨hnone, rfl⟩ := rememberNonce_ok hnext
  obtain ⟨expires, hseen, hle⟩ := h.seen hnow
  by_cases hother : relationshipId = other
  · subst hother
    have hne : nonce ≠ otherNonce := by
      intro heq
      rw [heq, hnone] at hseen
      cases hseen
    refine ⟨_, expires, Dict.get?_set_self _ _ _, ?_, hle⟩
    rw [Dict.get?_set_ne _ _ hne]
    exact hseen
  · obtain ⟨expiries, old, hget, hold, hle⟩ := h
    exact ⟨expiries, old, by rw [Dict.get?_set_ne _ _ hother, hget], hold, hle⟩

theorem dated_of_remember
    (h : rememberNonce nonces relationshipId nonce now timestamp = some next) :
    Dated next relationshipId nonce (timestamp + 120) := by
  obtain ⟨-, rfl⟩ := rememberNonce_ok h
  exact ⟨_, _, Dict.get?_set_self _ _ _, Dict.get?_set_self _ _ _, le_rfl⟩

theorem get?_expiries_legacy (now : Int) (nonces : List String) (nonce : String) :
    ((Remembered.legacy nonces).expiries now).get? nonce =
      if nonce ∈ nonces then some (now + 120) else none := by
  have hfold : ∀ (items : List String) (d : Dict String Int),
      (items.foldl (fun d nonce => d.set nonce (now + 120)) d).get? nonce =
        if nonce ∈ items then some (now + 120) else d.get? nonce := by
    intro items
    induction items with
    | nil => intro d; simp
    | cons item rest ih =>
      intro d
      rw [List.foldl_cons, ih, Dict.get?_set]
      by_cases hitem : nonce = item <;> by_cases hrest : nonce ∈ rest <;> simp [hitem, hrest]
  exact hfold nonces .empty

theorem legacy_seen {legacy : List String}
    (hget : nonces.get? relationshipId = some (.legacy legacy)) (hmem : nonce ∈ legacy)
    (now : Int) :
    (seen nonces relationshipId now).get? nonce = some (now + 120) := by
  have hnow : now ≤ now + 120 := by omega
  unfold seen
  rw [hget, Option.getD_some, Dict.get?_filter, get?_expiries_legacy, if_pos hmem]
  simp [hnow]

theorem legacy_remember {legacy : List String}
    (hget : nonces.get? relationshipId = some (.legacy legacy)) (hmem : nonce ∈ legacy)
    {other otherNonce : String}
    (hnext : rememberNonce nonces other otherNonce now timestamp = some next) :
    next.get? relationshipId = some (.legacy legacy) ∨
      Dated next relationshipId nonce (now + 120) := by
  obtain ⟨hnone, rfl⟩ := rememberNonce_ok hnext
  have hseen := legacy_seen hget hmem now
  by_cases hother : relationshipId = other
  · subst hother
    have hne : nonce ≠ otherNonce := by
      intro heq
      rw [heq, hnone] at hseen
      cases hseen
    right
    refine ⟨_, _, Dict.get?_set_self _ _ _, ?_, le_rfl⟩
    rw [Dict.get?_set_ne _ _ hne]
    exact hseen
  · left
    rw [Dict.get?_set_ne _ _ hother, hget]

/-! ### Requests -/

variable {request : Request} {verified : Verified}

/-- What `verify_request` checked of a request that it accepted. -/
theorem verifyRequest_ok {receiver : String} {state next : State}
    (h : verifyRequest p receiver state now request = .ok (next, verified)) :
    state.friends.secrets.get? (.relationship (request.relationshipId p)) = some verified.secret ∧
      verified.relationship.peerId = request.sender p ∧
      now ≤ verified.timestamp + 120 ∧
      request.signature p =
        p.mac verified.secret (message p (request.fields p receiver verified.timestamp)) ∧
      ∃ nonces, rememberNonce state.nonces (request.relationshipId p) (request.nonce p) now
        verified.timestamp = some nonces ∧ next = { state with nonces } := by
  unfold verifyRequest at h
  simp only [bind_ok, demand_ok, require_ok, verifyAuth, pure_ok, Prod.mk.injEq] at h
  obtain ⟨relationship, -, secret, hsecret, -, ⟨-, hpeer⟩, timestamp, -, -, ⟨-, hwindow, hmac⟩, -,
    -, nonces, hnonces, rfl, rfl⟩ := h
  refine ⟨hsecret, hpeer, ?_, hmac, nonces, hnonces, rfl⟩
  simp only [authWindow, Request.fields] at hwindow
  change now ≤ timestamp + 120
  omega

/-! ### Runs -/

section Runs

variable {owner : Bytes → String} {receiver : String} {start : State} {clock : Int}

/-- An accepted request is one that was signed, as it stands. -/
structure SignedAs (p : Platform) (receiver : String) (signing : Signing) (e : Accepted) :
    Prop where
  secret : signing.secret = e.verified.secret
  relationshipId : signing.relationshipId = e.request.relationshipId p
  peer : e.verified.relationship.peerId = signing.fields.sender
  method : p.upper signing.fields.method = p.upper "POST"
  path : signing.fields.path = e.request.path
  body : signing.fields.body = e.request.body
  sender : signing.fields.sender = e.request.sender p
  receiver : signing.fields.receiver = receiver
  timestamp : signing.fields.timestamp = e.verified.timestamp
  nonce : signing.fields.nonce = e.request.nonce p

/-- Two acceptances of one nonce are of different requests, and the second comes when the first
request is not valid any more. -/
def Apart (p : Platform) (later earlier : Accepted) : Prop :=
  later.request.relationshipId p = earlier.request.relationshipId p →
    later.request.nonce p = earlier.request.nonce p →
      later.verified.timestamp ≠ earlier.verified.timestamp ∧
        earlier.verified.timestamp + 120 < later.now

/-- What holds of a node between two events. -/
structure Inv (p : Platform) (owner : Bytes → String) (receiver : String) (start : State)
    (clock : Int) (w : World) : Prop where
  past : clock ≤ w.clock
  drawn : Drawn owner w.state.friends
  line : ∀ signing ∈ w.signed, OneLine p signing.fields ∧
    owner signing.secret = signing.relationshipId
  kept : ∀ e ∈ w.accepted, e.verified.timestamp + 120 < w.clock ∨
    Dated w.state.nonces (e.request.relationshipId p) (e.request.nonce p)
      (e.verified.timestamp + 120)
  apart : w.accepted.Pairwise (Apart p)
  signed : ∀ e ∈ w.accepted, ∃ signing ∈ w.signed, SignedAs p receiver signing e
  legacy : ∀ relationshipId nonces, start.nonces.get? relationshipId = some (.legacy nonces) →
    ∀ nonce ∈ nonces, w.state.nonces.get? relationshipId = some (.legacy nonces) ∨
      Dated w.state.nonces relationshipId nonce (clock + 120) ∨ clock + 120 < w.clock
  migrated : ∀ e ∈ w.accepted, ∀ nonces,
    start.nonces.get? (e.request.relationshipId p) = some (.legacy nonces) →
      e.request.nonce p ∈ nonces → clock < e.verified.timestamp

theorem signedAs_of_verify (hp : p.Faithful) {w : World} {state : State}
    (hdrawn : Drawn owner w.state.friends)
    (hline : ∀ signing ∈ w.signed, OneLine p signing.fields ∧
      owner signing.secret = signing.relationshipId)
    (h : verifyRequest p receiver w.state w.clock request = .ok (state, verified))
    (hgenuine : Genuine p w verified.secret (request.signature p)) :
    ∃ signing ∈ w.signed, SignedAs p receiver signing ⟨request, verified, w.clock⟩ := by
  obtain ⟨hsecret, hpeer, -, hmac, -⟩ := verifyRequest_ok h
  obtain ⟨signing, hmem, hsame, hmessage⟩ := hgenuine _ hmac
  obtain ⟨hmethod, hpath, hbody, hsender, hreceiver, htimestamp, hnonce⟩ :=
    message_inj hp (hline signing hmem).1 hmessage
  have howner : signing.relationshipId = request.relationshipId p := by
    rw [← (hline signing hmem).2, hsame]
    exact hdrawn _ _ hsecret
  exact ⟨signing, hmem, hsame, howner, hpeer.trans hsender.symm, hmethod, hpath, hbody, hsender,
    hreceiver, htimestamp, hnonce⟩

theorem Dated.not_accepted {last : Int} (h : Dated nonces relationshipId nonce last)
    (hnext : rememberNonce nonces relationshipId nonce now timestamp = some next) : last < now := by
  by_contra hnow
  obtain ⟨expires, hseen, -⟩ := h.seen (Int.not_lt.mp hnow)
  rw [(rememberNonce_ok hnext).1] at hseen
  cases hseen

theorem Inv.accept (hp : p.Faithful) {w : World} (hi : Inv p owner receiver start clock w)
    {state : State} (h : verifyRequest p receiver w.state w.clock request = .ok (state, verified))
    (hgenuine : Genuine p w verified.secret (request.signature p)) :
    Inv p owner receiver start clock
      { w with state, accepted := ⟨request, verified, w.clock⟩ :: w.accepted } := by
  obtain ⟨-, -, hwindow, -, nonces, hnonces, rfl⟩ := verifyRequest_ok h
  refine ⟨hi.past, hi.drawn, hi.line, ?_, ?_, ?_, ?_, ?_⟩
  · intro e he
    rw [List.mem_cons] at he
    obtain rfl | he := he
    · exact Or.inr (dated_of_remember hnonces)
    · by_cases hclock : e.verified.timestamp + 120 < w.clock
      · exact Or.inl hclock
      · have hdated := (hi.kept e he).resolve_left hclock
        exact Or.inr (hdated.remember (Int.not_lt.mp hclock) hnonces)
  · refine List.Pairwise.cons (fun e he hrelationship hnonce => ?_) hi.apart
    have hlater : e.verified.timestamp + 120 < w.clock := by
      cases hi.kept e he with
      | inl hclock => exact hclock
      | inr hdated =>
        rw [← hrelationship, ← hnonce] at hdated
        exact hdated.not_accepted hnonces
    refine ⟨?_, hlater⟩
    change verified.timestamp ≠ _
    omega
  · intro e he
    rw [List.mem_cons] at he
    obtain rfl | he := he
    · exact signedAs_of_verify (w := w) hp hi.drawn hi.line h hgenuine
    · exact hi.signed e he
  · intro relationshipId old hold nonce hnonce
    by_cases hclock : clock + 120 < w.clock
    · exact Or.inr (Or.inr hclock)
    have hle : clock + 120 ≤ w.clock + 120 := by
      have := hi.past
      omega
    obtain hget | hdated | hlt := hi.legacy relationshipId old hold nonce hnonce
    · cases legacy_remember hget hnonce hnonces with
      | inl hget => exact Or.inl hget
      | inr hdated =>
        obtain ⟨expiries, expires, hexpiries, hexpires, hlast⟩ := hdated
        exact Or.inr (Or.inl ⟨expiries, expires, hexpiries, hexpires, hle.trans hlast⟩)
    · exact Or.inr (Or.inl (hdated.remember (Int.not_lt.mp hclock) hnonces))
    · exact absurd hlt hclock
  · intro e he old hold hnonce
    rw [List.mem_cons] at he
    obtain rfl | he := he
    · have hlater : clock + 120 < w.clock := by
        obtain hget | hdated | hlt := hi.legacy _ old hold _ hnonce
        · have hseen := legacy_seen hget hnonce w.clock
          rw [(rememberNonce_ok hnonces).1] at hseen
          cases hseen
        · exact hdated.not_accepted hnonces
        · exact hlt
      change clock < verified.timestamp
      omega
    · exact hi.migrated e he old hold hnonce

theorem Step.inv (hp : p.Faithful) {w next : World} (hstep : Step p owner receiver w next)
    (hi : Inv p owner receiver start clock w) : Inv p owner receiver start clock next := by
  cases hstep with
  | tick later h =>
    refine ⟨hi.past.trans h, hi.drawn, hi.line, fun e he => ?_, hi.apart, hi.signed, ?_,
      hi.migrated⟩
    · exact (hi.kept e he).imp_left fun hlt => hlt.trans_le h
    · intro relationshipId nonces hstart nonce hmem
      exact (hi.legacy relationshipId nonces hstart nonce hmem).imp_right
        fun hdated => hdated.imp_right fun hlt => hlt.trans_le h
  | sign signing howner hline =>
    refine ⟨hi.past, hi.drawn, ?_, hi.kept, hi.apart, ?_, hi.legacy, hi.migrated⟩
    · intro other hother
      rw [List.mem_cons] at hother
      obtain rfl | hother := hother
      · exact ⟨hline, howner⟩
      · exact hi.line other hother
    · intro e he
      obtain ⟨other, hother, hsigned⟩ := hi.signed e he
      exact ⟨other, List.mem_cons_of_mem signing hother, hsigned⟩
  | friends friends h =>
    exact ⟨hi.past, h, hi.line, hi.kept, hi.apart, hi.signed, hi.legacy, hi.migrated⟩
  | accept request h hgenuine => exact hi.accept hp h hgenuine

theorem Reachable.inv (hp : p.Faithful) {w : World}
    (h : Reachable p owner receiver start clock w) : Inv p owner receiver start clock w := by
  induction h with
  | start hdrawn =>
    exact ⟨le_rfl, hdrawn, by simp, by simp, List.Pairwise.nil, by simp,
      fun _ _ hstart _ _ => Or.inl hstart, by simp⟩
  | step _ hstep ih => exact hstep.inv hp ih

/-- In every run of a node, no request is accepted twice; each accepted request was signed as it
stands, by a holder of the secret of its relationship; and a nonce that an older version left
without a time is only accepted for requests of later seconds. -/
theorem requests_safe (hp : p.Faithful) {w : World}
    (h : Reachable p owner receiver start clock w) :
    w.accepted.Pairwise (Apart p) ∧
      (∀ e ∈ w.accepted, ∃ signing ∈ w.signed, SignedAs p receiver signing e) ∧
      ∀ e ∈ w.accepted, ∀ nonces,
        start.nonces.get? (e.request.relationshipId p) = some (.legacy nonces) →
          e.request.nonce p ∈ nonces → clock < e.verified.timestamp :=
  ⟨(h.inv hp).apart, (h.inv hp).signed, (h.inv hp).migrated⟩

end Runs

/-! ### A node -/

/-- A platform whose digests and codes can be read by eye. -/
def samplePlatform : Platform where
  lower text := String.ofList (text.toList.map Char.toLower)
  upper text := String.ofList (text.toList.map Char.toUpper)
  parseInt text := if text = "7" then some 7 else none
  sha256 body := String.ofList (body.map fun b => Char.ofNat (b.toNat + 65))
  mac _ text := text

theorem samplePlatform_faithful : samplePlatform.Faithful := by
  have hchar : ∀ n < 256, (Char.ofNat (n + 65)).toNat = n + 65 := by decide +kernel
  have hinj : Function.Injective fun b : UInt8 => Char.ofNat (b.toNat + 65) := by
    intro a b h
    have hnat := congrArg Char.toNat h
    simp only [hchar _ a.toNat_lt, hchar _ b.toNat_lt] at hnat
    exact UInt8.toNat_inj.mp (Nat.add_right_cancel hnat)
  refine ⟨fun a b h => hinj.list_map (String.ofList_injective h), fun body h => ?_⟩
  rw [samplePlatform, String.toList_ofList, List.mem_map] at h
  obtain ⟨b, -, hb⟩ := h
  have hnat := congrArg Char.toNat hb
  rw [hchar _ b.toNat_lt] at hnat
  exact absurd hnat (by rw [show '\n'.toNat = 10 from rfl]; omega)

def sampleState : State where
  friends :=
    { Invites.Store.empty with
      relationships := Dict.empty.set "r"
        ⟨"r", "i", "alice", "", "", "", .active, "", none⟩
      secrets := Dict.empty.set (.relationship "r") [1] }
  nonces := .empty

def sampleFields : Fields := ⟨"POST", "/feed", [], "alice", "bob", 7, "n"⟩

def sampleRequest : Request :=
  ⟨"/feed", [], authHeaders samplePlatform [1] "r" sampleFields⟩

theorem requests_safe_sample : ∃ w e,
    Reachable samplePlatform (fun _ => "r") "bob" sampleState 7 w ∧ w.accepted = [e] ∧
      ∃ signing ∈ w.signed, SignedAs samplePlatform "bob" signing e := by
  have hdrawn : Drawn (fun _ => "r") sampleState.friends := by
    intro relationshipId secret h
    rw [sampleState, Dict.get?_set] at h
    split at h
    · rename_i heq
      cases heq
      rfl
    · cases h
  have hany : (verifyRequest samplePlatform "bob" sampleState 7 sampleRequest).toOption.any
      (fun result => result.2.secret = [1]) = true := by
    decide +kernel
  obtain ⟨⟨state, verified⟩, hverify, hsecret⟩ := toOption_any hany
  have hsignature : sampleRequest.signature samplePlatform =
      message samplePlatform sampleFields := by
    decide +kernel
  have hline : OneLine samplePlatform sampleFields := by
    unfold OneLine
    decide +kernel
  have hrun := Reachable.step (Reachable.step (.start hdrawn)
    (.sign ⟨[1], "r", sampleFields⟩ rfl hline))
    (.accept sampleRequest hverify fun text htext =>
      ⟨_, (.head _), (of_decide_eq_true hsecret).symm, hsignature.symm.trans htext⟩)
  exact ⟨_, _, hrun, rfl,
    (requests_safe samplePlatform_faithful hrun).2.1 _ (.head _)⟩

end FriendRequests
