import Rynmesh.NodeAuth
import Mathlib.Data.List.TakeWhile

/-!
# The control surface lets in whom it should

`authorize` answers, and lets in only a legitimate request (`Legit`), unless one of the values
that it reads makes a check raise, or a signed assertion has a time or an audience that only look
right (`Harmless`).  After a rotation nothing of the old token is accepted, unless the token file
can be read but not removed.

* `verifySession_true`, `verifyAccessJwt_true`, `verifyBearer_true`: what each check accepts;
* `verifySession_total`, `verifyAccessJwt_total`, `verifyBearer_total`: when it answers;
* `NotOld.later`: what a token file is never again;
* `authorize_meets_iff` is the result.
-/

namespace NodeAuth

open Checked Route

/-- What is relied on of the texts of Python and of the base64 of a MAC. -/
structure Platform.Faithful (p : Platform) : Prop where
  strip_empty : p.strip "" = ""
  lower_empty : p.lower "" = ""
  lower_blank : ∀ text, ' ' ∈ (p.lower text).toList → ' ' ∈ text.toList
  /-- An integer that is a double is read back. -/
  float_repr : ∀ n : Int, Rounding.nearest n = some (n : Rat) → p.float n.repr = some (.finite n)
  int_repr : ∀ n : Int, Rounding.nearest n = some (n : Rat) → p.int n.repr = some n
  sign_ascii : ∀ token payload, isAscii (p.sign token payload) = true
  sign_dotless : ∀ token payload, '.' ∉ (p.sign token payload).toList
  /-- Neither SHA-256 nor the MAC collides. -/
  sign_injective : ∀ token other payload, p.sign token payload = p.sign other payload →
    token = other

variable {p : Platform}

/-! ### Comparing and splitting -/

theorem compareDigest_ok {a b : String} {r : Bool} :
    compareDigest a b = .ok r ↔ (isAscii a = true ∧ isAscii b = true) ∧ decide (a = b) = r := by
  simp [compareDigest]

theorem parts_join {a b c : String} (ha : '.' ∉ a.toList) (hb : '.' ∉ b.toList)
    (hc : '.' ∉ c.toList) : parts (a ++ "." ++ b ++ "." ++ c) = [a, b, c] := by
  have hdots : ∀ part ∈ [a.toList, b.toList, c.toList], '.' ∉ part := by
    simpa using ⟨ha, hb, hc⟩
  have hsplit := List.splitOn_intercalate '.' hdots (by simp)
  have htext : (a ++ "." ++ b ++ "." ++ c).toList =
      [('.' : Char)].intercalate [a.toList, b.toList, c.toList] := by
    simp [List.intercalate]
  rw [parts, htext, hsplit]
  simp

theorem notMem_repr (n : Int) : '.' ∉ n.repr.toList := by
  have hnat : ∀ m : Nat, '.' ∉ m.repr.toList := by
    intro m h
    rw [Nat.toList_repr] at h
    exact absurd (Nat.isDigit_of_mem_toDigits (by decide) (by decide) h) (by decide)
  cases n with
  | ofNat m => exact hnat m
  | negSucc m =>
    intro h
    simp only [Int.repr, String.toList_append, List.mem_append] at h
    obtain h | h := h
    · exact absurd h (by decide)
    · exact hnat _ h

/-! ### Sessions -/

/-- A cookie that is compared: it has three parts, and its numbers can be read. -/
def Judged (p : Platform) (cookie : String) (now : Rat) (issued expires provided : String) :
    Prop :=
  parts cookie = [issued, expires, provided] ∧
    (∃ time, p.float expires = some time ∧ time.lt (.finite now) = false) ∧
    p.int issued ≠ none

/-- A cookie that is signed under a token. -/
def SignedUnder (p : Platform) (token cookie : String) (now : Rat) : Prop :=
  ∃ issued expires, Judged p cookie now issued expires (p.sign token (issued ++ "." ++ expires))

variable {now : Rat} {current : Except String String}

theorem verifySession_judged {cookie : String} {issued expires provided : String}
    (h : Judged p cookie now issued expires provided) :
    verifySession p current cookie now =
      current >>= fun secret =>
        compareDigest (p.sign secret (issued ++ "." ++ expires)) provided := by
  obtain ⟨hparts, ⟨time, htime, hlt⟩, hint⟩ := h
  simp only [verifySession, hparts, htime]
  rw [if_neg (by simp [hlt, hint])]

theorem verifySession_unjudged {cookie : String}
    (h : ∀ issued expires provided, ¬ Judged p cookie now issued expires provided) :
    verifySession p current cookie now = .ok false := by
  unfold verifySession
  split
  · rename_i issued expires provided hparts
    split
    · rfl
    rename_i time htime
    split
    · rfl
    · rename_i hgo
      rw [not_or] at hgo
      exact absurd ⟨hparts, ⟨time, htime, by simpa using hgo.1⟩, hgo.2⟩ (h _ _ _)
  · rfl

/-- A cookie is accepted when it was signed with the token and is in its time. -/
theorem verifySession_true (hp : p.Faithful) {cookie : String} :
    verifySession p current cookie now = .ok true ↔
      ∃ secret, current = .ok secret ∧ SignedUnder p secret cookie now := by
  by_cases hjudged : ∃ issued expires provided, Judged p cookie now issued expires provided
  · obtain ⟨issued, expires, provided, h⟩ := hjudged
    rw [verifySession_judged h, bind_ok]
    constructor
    · rintro ⟨secret, hsecret, hcompare⟩
      have hequal := of_decide_eq_true (compareDigest_ok.mp hcompare).2
      exact ⟨secret, hsecret, issued, expires, hequal ▸ h⟩
    · rintro ⟨secret, hsecret, issued', expires', h'⟩
      have hsame := h.1.symm.trans h'.1
      obtain ⟨rfl, rfl, rfl⟩ := hsame
      refine ⟨secret, hsecret, compareDigest_ok.mpr ?_⟩
      exact ⟨⟨hp.sign_ascii _ _, hp.sign_ascii _ _⟩, decide_eq_true rfl⟩
  · rw [verifySession_unjudged fun issued expires provided h => hjudged ⟨_, _, _, h⟩]
    constructor
    · nofun
    · rintro ⟨_, _, issued, expires, h⟩
      exact absurd ⟨issued, expires, _, h⟩ hjudged

theorem verifySession_total (hp : p.Faithful) {cookie : String} :
    (∃ known, verifySession p current cookie now = .ok known) ↔
      ∀ issued expires provided, Judged p cookie now issued expires provided →
        (∃ secret, current = .ok secret) ∧ isAscii provided = true := by
  by_cases hjudged : ∃ issued expires provided, Judged p cookie now issued expires provided
  · obtain ⟨issued, expires, provided, h⟩ := hjudged
    rw [verifySession_judged h]
    constructor
    · intro hall issued' expires' provided' h'
      obtain ⟨known, hknown⟩ := hall
      have hsame := h.1.symm.trans h'.1
      obtain ⟨rfl, rfl, rfl⟩ := hsame
      obtain ⟨secret, hsecret, hcompare⟩ := bind_ok.mp hknown
      exact ⟨⟨secret, hsecret⟩, (compareDigest_ok.mp hcompare).1.2⟩
    · intro hall
      obtain ⟨⟨secret, hsecret⟩, hascii⟩ := hall _ _ _ h
      refine ⟨_, bind_ok.mpr ⟨secret, hsecret, compareDigest_ok.mpr ⟨?_, rfl⟩⟩⟩
      exact ⟨hp.sign_ascii _ _, hascii⟩
  · constructor
    · intro _ issued expires provided h
      exact absurd ⟨_, _, _, h⟩ hjudged
    · intro _
      exact ⟨false, verifySession_unjudged fun issued expires provided h => hjudged ⟨_, _, _, h⟩⟩

theorem Session.signedUnder (hp : p.Faithful) (s : Session) {token : String} :
    SignedUnder p token (s.text p) now ↔ token = s.token ∧ now ≤ s.expires := by
  have hparts : parts (s.text p) = [(truncate s.issued).repr, s.expires.repr,
      p.sign s.token s.payload] :=
    parts_join (notMem_repr _) (notMem_repr _) (hp.sign_dotless _ _)
  have hfloat : p.float s.expires.repr = some (.finite s.expires) := hp.float_repr _ s.whole.2
  constructor
  · rintro ⟨issued, expires, hsplit, ⟨time, htime, hlt⟩, _⟩
    rw [hparts] at hsplit
    simp only [List.cons.injEq, and_true] at hsplit
    obtain ⟨rfl, rfl, hsign⟩ := hsplit
    rw [hfloat, Option.some.injEq] at htime
    subst htime
    refine ⟨(hp.sign_injective _ _ _ hsign).symm, ?_⟩
    simpa [Number.lt] using hlt
  · rintro ⟨htoken, hnow⟩
    subst htoken
    refine ⟨_, _, hparts, ⟨_, hfloat, ?_⟩, ?_⟩
    · simpa [Number.lt] using hnow
    · rw [hp.int_repr _ s.whole.1]
      simp

/-! ### Access assertions -/

variable {published : Jwk → Prop}

/-- An assertion that is decoded. -/
def Considered (p : Platform) (perimeter : Perimeter published) (text : String)
    (assertion : Assertion) : Prop :=
  perimeter.configured ∧ text ≠ "" ∧ readAssertion p text = some assertion

/-- The expiry of an assertion, where `float` reads it. -/
def Assertion.expiry (p : Platform) (assertion : Assertion) : Option Number :=
  floatOf p ((assertion.payload.get? "exp").getD (.int 0))

/-- An assertion whose signature is looked at. -/
def Addressed (p : Platform) (perimeter : Perimeter published) (now : Rat)
    (assertion : Assertion) : Prop :=
  assertion.header.isObj = true ∧ assertion.header.get? "alg" = some (.str "RS256") ∧
    assertion.payload.isObj = true ∧
    (∃ time, assertion.expiry p = some time ∧ time.lt (.finite now) = false) ∧
    perimeter.accessAudience ∈ audiences p assertion.payload

/-- An assertion that the perimeter lets in. -/
def Accepted (p : Platform) (perimeter : Perimeter published) (text : String) (now : Rat)
    (fetched : Option (KeySet published) × Option (KeySet published))
    (assertion : Assertion) : Prop :=
  Considered p perimeter text assertion ∧ Addressed p perimeter now assertion ∧
    ∃ key, (keyFor perimeter now fetched ((assertion.header.get? "kid").getD .null)).1 = some key ∧
      p.rs256Verify assertion.signed assertion.signature key = true

variable {text : String}

theorem getD_null_eq_str {value : Option Json} :
    Json.pyEq (value.getD .null) (.str text) = true ↔ value = some (.str text) := by
  cases value with
  | none => simp [Json.pyEq, Json.number?]
  | some value => cases value <;> simp [Json.pyEq, Json.number?]

theorem addressed_ok {audience : String} {assertion : Assertion} {known : Bool} :
    addressed p audience now assertion = .ok known ↔
      assertion.header.isObj = true ∧
        ((assertion.header.get? "alg" ≠ some (.str "RS256") ∧ known = false) ∨
          (assertion.header.get? "alg" = some (.str "RS256") ∧ assertion.payload.isObj = true ∧
            ∃ time, assertion.expiry p = some time ∧
              known = (!time.lt (.finite now) && audience ∈ audiences p assertion.payload))) := by
  rw [addressed, bind_ok]
  simp only [require_ok, exists_and_left, exists_const]
  refine and_congr_right fun _ => ?_
  split
  · rename_i halg
    have hne : assertion.header.get? "alg" ≠ some (.str "RS256") := by
      intro h
      rw [getD_null_eq_str.mpr h] at halg
      cases halg
    constructor
    · intro h
      exact Or.inl ⟨hne, (pure_ok.mp h).symm⟩
    · intro h
      obtain ⟨_, hfalse⟩ | ⟨heq, _⟩ := h
      · exact pure_ok.mpr hfalse.symm
      · exact absurd heq hne
  · rename_i halg
    have heq : assertion.header.get? "alg" = some (.str "RS256") :=
      getD_null_eq_str.mp (by simpa using halg)
    simp only [bind_ok, require_ok, exists_and_left, exists_const, demand_ok, pure_ok, heq, ne_eq,
      not_true_eq_false, false_and, true_and, false_or, Assertion.expiry, eq_comm (a := known)]

variable {perimeter : Perimeter published}

theorem addressed_true {assertion : Assertion} :
    addressed p perimeter.accessAudience now assertion = .ok true ↔
      Addressed p perimeter now assertion := by
  rw [addressed_ok]
  refine and_congr_right fun _ => ?_
  constructor
  · intro h
    obtain ⟨_, hfalse⟩ | ⟨halg, hpayload, time, htime, hgood⟩ := h
    · cases hfalse
    · have hgood := hgood.symm
      rw [Bool.and_eq_true, Bool.not_eq_true', decide_eq_true_eq] at hgood
      exact ⟨halg, hpayload, ⟨time, htime, hgood.1⟩, hgood.2⟩
  · intro hall
    obtain ⟨halg, hpayload, ⟨time, htime, hlt⟩, haudience⟩ := hall
    refine Or.inr ⟨halg, hpayload, time, htime, ?_⟩
    rw [hlt, decide_eq_true haudience]
    rfl

/-- Reading an assertion answers when its header is an object, and for an RS256 signature its
payload is one, with a number as its expiry. -/
theorem addressed_total {audience : String} {assertion : Assertion} :
    (∃ known, addressed p audience now assertion = .ok known) ↔
      assertion.header.isObj = true ∧
        (assertion.header.get? "alg" = some (.str "RS256") →
          assertion.payload.isObj = true ∧ ∃ time, assertion.expiry p = some time) := by
  simp only [addressed_ok]
  constructor
  · intro hall
    obtain ⟨known, hheader, h⟩ := hall
    refine ⟨hheader, fun halg => ?_⟩
    obtain ⟨hne, _⟩ | ⟨_, hpayload, time, htime, _⟩ := h
    · exact absurd halg hne
    · exact ⟨hpayload, time, htime⟩
  · intro hall
    obtain ⟨hheader, h⟩ := hall
    by_cases halg : assertion.header.get? "alg" = some (.str "RS256")
    · obtain ⟨hpayload, time, htime⟩ := h halg
      exact ⟨_, hheader, Or.inr ⟨halg, hpayload, time, htime, rfl⟩⟩
    · exact ⟨false, hheader, Or.inl ⟨halg, rfl⟩⟩

variable {fetched : Option (KeySet published) × Option (KeySet published)}

theorem verifyAccessJwt_considered {assertion : Assertion}
    (h : Considered p perimeter text assertion) :
    (verifyAccessJwt p perimeter text now fetched).1 =
      (addressed p perimeter.accessAudience now assertion).map fun known => known &&
        (keyFor perimeter now fetched ((assertion.header.get? "kid").getD .null)).1.any
          fun key => p.rs256Verify assertion.signed assertion.signature key := by
  obtain ⟨hconfigured, htext, hread⟩ := h
  rw [verifyAccessJwt, if_pos ⟨hconfigured, htext⟩, hread]
  simp only
  cases addressed p perimeter.accessAudience now assertion with
  | error e => rfl
  | ok known => cases known <;> rfl

theorem verifyAccessJwt_unconsidered (h : ∀ assertion, ¬ Considered p perimeter text assertion) :
    (verifyAccessJwt p perimeter text now fetched).1 = .ok false := by
  unfold verifyAccessJwt
  split
  · rename_i hgo
    cases hread : readAssertion p text with
    | none => rfl
    | some assertion => exact absurd ⟨hgo.1, hgo.2, hread⟩ (h assertion)
  · rfl

theorem Considered.unique {assertion other : Assertion} (h : Considered p perimeter text assertion)
    (h' : Considered p perimeter text other) : other = assertion :=
  Option.mem_unique h'.2.2 h.2.2

/-- What the perimeter says to an assertion, up to `Accepted`. -/
theorem verifyAccessJwt_true :
    (verifyAccessJwt p perimeter text now fetched).1 = .ok true ↔
      ∃ assertion, Accepted p perimeter text now fetched assertion := by
  by_cases hconsidered : ∃ assertion, Considered p perimeter text assertion
  · obtain ⟨assertion, h⟩ := hconsidered
    rw [verifyAccessJwt_considered h]
    constructor
    · intro htrue
      cases hread : addressed p perimeter.accessAudience now assertion with
      | error e =>
        rw [hread] at htrue
        cases htrue
      | ok known =>
        rw [hread] at htrue
        simp only [Except.map, Except.ok.injEq, Bool.and_eq_true, Option.any_eq_true] at htrue
        obtain ⟨hknown, key, hkey, hverify⟩ := htrue
        exact ⟨assertion, h, addressed_true.mp (hknown ▸ hread), key, hkey, hverify⟩
    · rintro ⟨other, hother, haddressed, key, hkey, hverify⟩
      have hsame := h.unique hother
      subst hsame
      rw [addressed_true.mpr haddressed]
      simp [Except.map, hkey, hverify]
  · rw [verifyAccessJwt_unconsidered fun assertion h => hconsidered ⟨assertion, h⟩]
    constructor
    · nofun
    · rintro ⟨assertion, h, _⟩
      exact absurd ⟨assertion, h⟩ hconsidered

theorem verifyAccessJwt_total :
    (∃ known, (verifyAccessJwt p perimeter text now fetched).1 = .ok known) ↔
      ∀ assertion, Considered p perimeter text assertion → assertion.header.isObj = true ∧
        (assertion.header.get? "alg" = some (.str "RS256") →
          assertion.payload.isObj = true ∧ ∃ time, assertion.expiry p = some time) := by
  by_cases hconsidered : ∃ assertion, Considered p perimeter text assertion
  · obtain ⟨assertion, h⟩ := hconsidered
    rw [verifyAccessJwt_considered h]
    constructor
    · intro hall other hother
      obtain ⟨known, hknown⟩ := hall
      have hsame := h.unique hother
      subst hsame
      cases hread : addressed p perimeter.accessAudience now other with
      | error e =>
        rw [hread] at hknown
        cases hknown
      | ok read => exact addressed_total.mp ⟨read, hread⟩
    · intro hall
      have htotal : ∃ known, addressed p perimeter.accessAudience now assertion = .ok known :=
        addressed_total.mpr (hall assertion h)
      obtain ⟨known, hknown⟩ := htotal
      rw [hknown]
      exact ⟨_, rfl⟩
  · constructor
    · intro _ assertion h
      exact absurd ⟨assertion, h⟩ hconsidered
    · intro _
      exact ⟨false, verifyAccessJwt_unconsidered fun assertion h => hconsidered ⟨assertion, h⟩⟩

theorem accessKeys_published {force : Bool} {fetched : Option (KeySet published)} {key : Jwk}
    (h : key ∈ (accessKeys perimeter now force fetched).1) : published key := by
  unfold accessKeys at h
  split at h
  · cases h
  · split at h
    · exact perimeter.keySet.published key h
    · split at h
      · exact perimeter.keySet.published key h
      · cases fetched with
        | none => cases force <;> exact perimeter.keySet.published key h
        | some keySet => exact keySet.published key h

theorem keyFor_published {kid : Json} {key : Jwk}
    (h : (keyFor perimeter now fetched kid).1 = some key) : published key := by
  simp only [keyFor] at h
  split at h
  · rename_i found hfound
    rw [Option.some.injEq] at h
    subst h
    exact accessKeys_published (List.mem_of_find?_eq_some hfound)
  · exact accessKeys_published (List.mem_of_find?_eq_some h)

/-! ### Bearers -/

/-- A text that is presented as the token. -/
def Presents (p : Platform) (bearer text : String) : Prop :=
  "bearer ".toList <+: (p.lower bearer).toList ∧
    ∃ rest, afterBlank bearer.toList = some rest ∧ p.strip (String.ofList rest) = text

theorem afterBlank_isSome {text : List Char} (h : ' ' ∈ text) :
    ∃ rest, afterBlank text = some rest := by
  unfold afterBlank
  split
  · rename_i hnil
    exact absurd (List.dropWhile_eq_nil_iff.mp hnil ' ' h) (by simp)
  · exact ⟨_, rfl⟩

theorem Presents.unique {bearer other : String} (h : Presents p bearer text)
    (h' : Presents p bearer other) : other = text := by
  obtain ⟨_, rest, hrest, htext⟩ := h
  obtain ⟨_, rest', hrest', htext'⟩ := h'
  rw [hrest, Option.some.injEq] at hrest'
  subst hrest'
  exact htext'.symm.trans htext

theorem verifyBearer_presents {bearer : String} (h : Presents p bearer text) :
    verifyBearer p current bearer = current >>= fun secret => compareDigest text secret := by
  obtain ⟨hpre, rest, hrest, htext⟩ := h
  rw [verifyBearer, if_pos hpre, hrest, demand_some, ok_bind, htext]

theorem verifyBearer_absent (hp : p.Faithful) {bearer : String}
    (h : ∀ text, ¬ Presents p bearer text) : verifyBearer p current bearer = .ok false := by
  rw [verifyBearer, if_neg]
  intro hpre
  have hblank : ' ' ∈ (p.lower bearer).toList := hpre.subset (by decide)
  obtain ⟨rest, hrest⟩ := afterBlank_isSome (hp.lower_blank bearer hblank)
  exact h _ ⟨hpre, rest, hrest, rfl⟩

/-- A bearer is accepted when it is the token. -/
theorem verifyBearer_true (hp : p.Faithful) {bearer : String} :
    verifyBearer p current bearer = .ok true ↔
      ∃ text, Presents p bearer text ∧ current = .ok text ∧ isAscii text = true := by
  by_cases hpresents : ∃ text, Presents p bearer text
  · obtain ⟨text, h⟩ := hpresents
    rw [verifyBearer_presents h, bind_ok]
    constructor
    · rintro ⟨secret, hsecret, hcompare⟩
      obtain ⟨⟨hascii, _⟩, hequal⟩ := compareDigest_ok.mp hcompare
      exact ⟨text, h, (of_decide_eq_true hequal) ▸ hsecret, hascii⟩
    · rintro ⟨other, hother, hcurrent, hascii⟩
      have hsame := h.unique hother
      subst hsame
      exact ⟨other, hcurrent, compareDigest_ok.mpr ⟨⟨hascii, hascii⟩, decide_eq_true rfl⟩⟩
  · rw [verifyBearer_absent hp fun text h => hpresents ⟨text, h⟩]
    constructor
    · nofun
    · rintro ⟨text, h, _⟩
      exact absurd ⟨text, h⟩ hpresents

theorem verifyBearer_total (hp : p.Faithful) {bearer : String} :
    (∃ known, verifyBearer p current bearer = .ok known) ↔
      ∀ text, Presents p bearer text →
        isAscii text = true ∧ ∃ secret, current = .ok secret ∧ isAscii secret = true := by
  by_cases hpresents : ∃ text, Presents p bearer text
  · obtain ⟨text, h⟩ := hpresents
    rw [verifyBearer_presents h]
    constructor
    · intro hall other hother
      obtain ⟨known, hknown⟩ := hall
      have hsame := h.unique hother
      subst hsame
      obtain ⟨secret, hsecret, hcompare⟩ := bind_ok.mp hknown
      obtain ⟨htext, hascii⟩ := (compareDigest_ok.mp hcompare).1
      exact ⟨htext, secret, hsecret, hascii⟩
    · intro hall
      obtain ⟨htext, secret, hsecret, hascii⟩ := hall text h
      exact ⟨_, bind_ok.mpr ⟨secret, hsecret, compareDigest_ok.mpr ⟨⟨htext, hascii⟩, rfl⟩⟩⟩
  · constructor
    · intro _ text h
      exact absurd ⟨text, h⟩ hpresents
    · intro _
      exact ⟨false, verifyBearer_absent hp fun text h => hpresents ⟨text, h⟩⟩

/-! ### The decision -/

def Request.assertion (p : Platform) (request : Request) : String :=
  header p request.headers "cf-access-jwt-assertion"

def Request.bearer (p : Platform) (request : Request) : String :=
  header p request.headers "authorization"

/-- A cookie that is signed under the current token is a session that the node issued. -/
def Unforged (p : Platform) (sessions : List Session) (current : Except String String)
    (cookie : String) : Prop :=
  ∀ token now, current = .ok token → SignedUnder p token cookie now →
    ∃ s ∈ sessions, s.token = token ∧ cookie = s.text p

/-- An assertion in time, that names the audience. -/
def Proper (p : Platform) (perimeter : Perimeter published) (now : Rat) (assertion : Assertion) :
    Prop :=
  assertion.header.get? "alg" = some (.str "RS256") ∧
    (∃ time, assertion.expiry p = some time ∧ (Number.finite now).le time = true) ∧
    (assertion.payload.get? "aud" = some (.str perimeter.accessAudience) ∨
      ∃ items, assertion.payload.get? "aud" = some (.arr items) ∧
        .str perimeter.accessAudience ∈ items)

/-- The current token is presented. -/
def BearsToken (p : Platform) (env : Env published) (request : Request) : Prop :=
  ∃ text, env.bearer = .ok text ∧ Presents p (request.bearer p) text

/-- A request that is to be let in. -/
inductive Legit (p : Platform) (sessions : List Session) (perimeter : Perimeter published)
    (env : Env published) (request : Request) (now : Rat) : Prop
  | loopback (h : Local p request)
  | session (s : Session) (h : s ∈ sessions) (current : env.session = .ok s.token)
      (text : request.cookie = s.text p) (time : now ≤ s.expires)
  | perimeter (assertion : Assertion)
      (h : Considered p perimeter (request.assertion p) assertion)
      (proper : Proper p perimeter now assertion) (key : Jwk) (known : published key)
      (signed : p.rs256Verify assertion.signed assertion.signature key = true)
  | bearer (h : BearsToken p env request)

/-- What is claimed of a request: it is decided, let in only if it is legitimate, and not as a
local one if it was forwarded. -/
def Meets (p : Platform) (sessions : List Session) (perimeter : Perimeter published)
    (env : Env published) (request : Request) (now : Rat) : Prop :=
  ∃ decision, (authorize p perimeter env request now).1 = .ok decision ∧
    (decision.allowed = true → Legit p sessions perimeter env request now) ∧
    (isForwarded p request.headers = true → decision.via ≠ "local")

/-- A cookie that is signed under the current token. -/
def ShowsSession (p : Platform) (env : Env published) (request : Request) (now : Rat) : Prop :=
  ∃ secret, env.session = .ok secret ∧ SignedUnder p secret request.cookie now

/-- No value that is reached makes a check raise, and no signed assertion is let in for a time
that is not a number or an audience that is not a text, unless the token is presented as well. -/
structure Harmless (p : Platform) (perimeter : Perimeter published) (env : Env published)
    (request : Request) (now : Rat) : Prop where
  session : ∀ issued expires provided, Judged p request.cookie now issued expires provided →
    (∃ secret, env.session = .ok secret) ∧ isAscii provided = true
  assertion : ¬ ShowsSession p env request now →
    ∀ assertion, Considered p perimeter (request.assertion p) assertion →
      assertion.header.isObj = true ∧
        (assertion.header.get? "alg" = some (.str "RS256") →
          assertion.payload.isObj = true ∧ ∃ time, assertion.expiry p = some time)
  proper : ¬ ShowsSession p env request now →
    ∀ assertion, Accepted p perimeter (request.assertion p) now env.fetched assertion →
      Proper p perimeter now assertion ∨ BearsToken p env request
  bearer : ¬ ShowsSession p env request now →
    (∀ assertion, ¬ Accepted p perimeter (request.assertion p) now env.fetched assertion) →
    ∀ text, Presents p (request.bearer p) text →
      isAscii text = true ∧ ∃ secret, env.bearer = .ok secret ∧ isAscii secret = true

section Decision

variable {sessions : List Session} {perimeter : Perimeter published} {env : Env published}
  {request : Request} {now : Rat}

theorem verifySession_blank : verifySession p current "" now = .ok false := by
  have hparts : parts "" = [""] := by decide
  rw [verifySession, hparts]

theorem authorize_local (h : Local p request) :
    (authorize p perimeter env request now).1 = .ok ⟨true, "loopback", "local"⟩ := by
  rw [authorize, if_pos h]

/-- What `authorize` answers to a request that is not local. -/
theorem authorize_remote (h : ¬ Local p request) :
    (authorize p perimeter env request now).1 =
      (do
        if ← verifySession p env.session request.cookie now then
          return ⟨true, "session", "session"⟩
        else if ← (verifyAccessJwt p perimeter (request.assertion p) now env.fetched).1 then
          return ⟨true, "cloudflare_access", "perimeter"⟩
        else if ← verifyBearer p env.bearer (request.bearer p) then
          return ⟨true, "bearer_token", "session"⟩
        else return ⟨false, "unauthenticated", ""⟩) := by
  have hcookie : (if request.cookie ≠ "" then verifySession p env.session request.cookie now
      else .ok false) = verifySession p env.session request.cookie now := by
    split
    · rfl
    · rename_i hblank
      rw [not_not.mp hblank, verifySession_blank]
  rw [authorize, if_neg h, hcookie]
  cases verifySession p env.session request.cookie now with
  | error e => rfl
  | ok known =>
    cases known with
    | true => rfl
    | false =>
      simp only [ok_bind, Bool.false_eq_true, if_false, Request.assertion, Request.bearer]
      cases hjwt : verifyAccessJwt p perimeter (header p request.headers
          "cf-access-jwt-assertion") now env.fetched with
      | mk answer rest =>
        cases answer with
        | error e => rfl
        | ok accepted =>
          cases accepted with
          | true => rfl
          | false =>
            cases verifyBearer p env.bearer (header p request.headers
                "authorization") with
            | error e => rfl
            | ok bears => cases bears <;> rfl

theorem Legit.remote (hp : p.Faithful) (hlocal : ¬ Local p request)
    (hsession : ¬ ShowsSession p env request now)
    (h : Legit p sessions perimeter env request now) :
    (∃ assertion, Considered p perimeter (request.assertion p) assertion ∧
      Proper p perimeter now assertion) ∨ BearsToken p env request := by
  cases h with
  | loopback h => exact absurd h hlocal
  | session s _ hcurrent htext htime =>
    refine absurd ⟨s.token, hcurrent, ?_⟩ hsession
    rw [htext]
    exact (s.signedUnder hp).mpr ⟨rfl, htime⟩
  | perimeter assertion h hproper key _ _ => exact Or.inl ⟨assertion, h, hproper⟩
  | bearer h => exact Or.inr h

theorem Accepted.legit {assertion : Assertion}
    (h : Accepted p perimeter (request.assertion p) now env.fetched assertion)
    (hproper : Proper p perimeter now assertion) :
    Legit p sessions perimeter env request now := by
  obtain ⟨hconsidered, -, key, hkey, hverify⟩ := h
  exact .perimeter assertion hconsidered hproper key (keyFor_published hkey) hverify

theorem meets_of_session (hp : p.Faithful)
    (hunforged : Unforged p sessions env.session request.cookie) (hlocal : ¬ Local p request)
    (hsession : ShowsSession p env request now) :
    Meets p sessions perimeter env request now ∧ Harmless p perimeter env request now := by
  have htrue : verifySession p env.session request.cookie now = .ok true :=
    (verifySession_true hp).mpr hsession
  constructor
  · refine ⟨⟨true, "session", "session"⟩, ?_, fun _ => ?_, fun _ => by decide⟩
    · rw [authorize_remote hlocal, htrue]
      rfl
    · obtain ⟨secret, hcurrent, hsigned⟩ := hsession
      obtain ⟨s, hs, htoken, htext⟩ := hunforged secret now hcurrent hsigned
      rw [htext] at hsigned
      exact .session s hs (htoken ▸ hcurrent) htext ((s.signedUnder hp).mp hsigned).2
  · exact ⟨(verifySession_total hp).mp ⟨true, htrue⟩, fun h => absurd hsession h,
      fun h => absurd hsession h, fun h => absurd hsession h⟩

theorem meets_of_accepted (hp : p.Faithful) (hlocal : ¬ Local p request)
    (hfalse : verifySession p env.session request.cookie now = .ok false)
    (hsession : ¬ ShowsSession p env request now) {assertion : Assertion}
    (h : Accepted p perimeter (request.assertion p) now env.fetched assertion) :
    Meets p sessions perimeter env request now ↔ Harmless p perimeter env request now := by
  have htrue := verifyAccessJwt_true.mpr ⟨assertion, h⟩
  have hanswer : (authorize p perimeter env request now).1 =
      .ok ⟨true, "cloudflare_access", "perimeter"⟩ := by
    rw [authorize_remote hlocal, hfalse, ok_bind, if_neg (by simp), htrue]
    rfl
  constructor
  · rintro ⟨decision, hdecision, hlegit, _⟩
    rw [hanswer, Except.ok.injEq] at hdecision
    subst hdecision
    refine ⟨(verifySession_total hp).mp ⟨false, hfalse⟩,
      fun _ => verifyAccessJwt_total.mp ⟨true, htrue⟩, ?_, fun _ hno => absurd h (hno assertion)⟩
    intro _ other hother
    obtain ⟨found, hfound, hproper⟩ | hbears := (hlegit rfl).remote hp hlocal hsession
    · have hsame := hfound.unique hother.1
      subst hsame
      exact Or.inl hproper
    · exact Or.inr hbears
  · intro hharmless
    refine ⟨_, hanswer, fun _ => ?_, fun _ => by decide⟩
    obtain hproper | hbears := hharmless.proper hsession assertion h
    · exact h.legit hproper
    · exact .bearer hbears

theorem meets_of_rejected (hp : p.Faithful) (hlocal : ¬ Local p request)
    (hfalse : verifySession p env.session request.cookie now = .ok false)
    (hsession : ¬ ShowsSession p env request now)
    (hjwt : (verifyAccessJwt p perimeter (request.assertion p) now env.fetched).1 = .ok false) :
    Meets p sessions perimeter env request now ↔ Harmless p perimeter env request now := by
  have hnone : ∀ assertion,
      ¬ Accepted p perimeter (request.assertion p) now env.fetched assertion := by
    intro assertion h
    have htrue := verifyAccessJwt_true.mpr ⟨assertion, h⟩
    rw [hjwt] at htrue
    cases htrue
  have hanswer : (authorize p perimeter env request now).1 =
      (do
        if ← verifyBearer p env.bearer (request.bearer p) then
          return ⟨true, "bearer_token", "session"⟩
        else return ⟨false, "unauthenticated", ""⟩) := by
    rw [authorize_remote hlocal, hfalse, ok_bind, if_neg (by simp), hjwt, ok_bind, if_neg (by simp)]
  constructor
  · rintro ⟨decision, hdecision, _⟩
    rw [hanswer, bind_ok] at hdecision
    obtain ⟨known, hknown, _⟩ := hdecision
    exact ⟨(verifySession_total hp).mp ⟨false, hfalse⟩,
      fun _ => verifyAccessJwt_total.mp ⟨false, hjwt⟩, fun _ other h => absurd h (hnone other),
      fun _ _ => (verifyBearer_total hp).mp ⟨known, hknown⟩⟩
  · intro hharmless
    obtain ⟨known, hknown⟩ := (verifyBearer_total hp).mpr (hharmless.bearer hsession hnone)
    rw [hknown] at hanswer
    cases known with
    | true =>
      obtain ⟨text, hpresents, hcurrent, _⟩ := (verifyBearer_true hp).mp hknown
      exact ⟨_, hanswer, fun _ => .bearer ⟨text, hcurrent, hpresents⟩, fun _ => by decide⟩
    | false => exact ⟨_, hanswer, fun h => (by cases h), fun _ => by decide⟩

/-- Every request is decided as it should, when no value that is reached makes a check raise. -/
theorem meets_iff (hp : p.Faithful) (hunforged : Unforged p sessions env.session request.cookie) :
    Meets p sessions perimeter env request now ↔
      Local p request ∨ Harmless p perimeter env request now := by
  by_cases hlocal : Local p request
  · refine ⟨fun _ => Or.inl hlocal, fun _ => ?_⟩
    refine ⟨_, authorize_local hlocal, fun _ => .loopback hlocal, fun hforwarded => ?_⟩
    rw [hlocal.1] at hforwarded
    cases hforwarded
  have hremote : (Local p request ∨ Harmless p perimeter env request now) ↔
      Harmless p perimeter env request now := or_iff_right hlocal
  rw [hremote]
  by_cases hsession : ShowsSession p env request now
  · obtain ⟨hmeets, hharmless⟩ := meets_of_session hp hunforged hlocal hsession
    exact ⟨fun _ => hharmless, fun _ => hmeets⟩
  cases hanswer : verifySession p env.session request.cookie now with
  | error e =>
    constructor
    · rintro ⟨decision, hdecision, _⟩
      rw [authorize_remote hlocal, hanswer] at hdecision
      cases hdecision
    · intro hharmless
      obtain ⟨known, hknown⟩ := (verifySession_total hp).mpr hharmless.session
      rw [hanswer] at hknown
      cases hknown
  | ok known =>
    cases known with
    | true => exact absurd ((verifySession_true hp).mp hanswer) hsession
    | false =>
      cases hjwt : (verifyAccessJwt p perimeter (request.assertion p) now env.fetched).1 with
      | error e =>
        constructor
        · rintro ⟨decision, hdecision, _⟩
          rw [authorize_remote hlocal, hanswer, ok_bind, if_neg (by simp), hjwt] at hdecision
          cases hdecision
        · intro hharmless
          have htotal : ∃ known, (verifyAccessJwt p perimeter (request.assertion p) now
              env.fetched).1 = .ok known :=
            verifyAccessJwt_total.mpr (hharmless.assertion hsession)
          rw [hjwt] at htotal
          obtain ⟨_, hknown⟩ := htotal
          cases hknown
      | ok accepted =>
        cases accepted with
        | true =>
          obtain ⟨assertion, h⟩ := verifyAccessJwt_true.mp hjwt
          exact meets_of_accepted hp hlocal hanswer hsession h
        | false => exact meets_of_rejected hp hlocal hanswer hsession hjwt

end Decision

/-! ### Rotating the token -/

/-- What is drawn in a call, and what is left of it, is no old token. -/
structure Drawn (p : Platform) (old : String → Prop) (attempt : Attempt) : Prop where
  clean : p.strip attempt.created = attempt.created
  created : ¬ old attempt.created
  written : ∀ content, attempt.failure = some (.written content) → p.strip content ≠ "" →
    ¬ old (p.strip content)

/-- The token that is written in a file is no old one. -/
def NotOld (p : Platform) (old : String → Prop) (file : TokenFile) : Prop :=
  ∀ content, file = .text content → p.strip content ≠ "" → ¬ old (p.strip content)

/-- What later calls make of the token file. -/
inductive Later (p : Platform) (old : String → Prop) (file : TokenFile) : TokenFile → Prop
  | refl : Later p old file file
  | token {other : TokenFile} (attempt : Attempt) (drawn : Drawn p old attempt)
      (h : Later p old file other) : Later p old file (NodeAuth.token p other attempt).2
  | rotate {other : TokenFile} (stuck : Bool) (attempt : Attempt) (drawn : Drawn p old attempt)
      (h : Later p old file other) : Later p old file (rotateToken p other stuck attempt).2

/-- An answer of `token` at a later moment. -/
def Answered (p : Platform) (old : String → Prop) (file : TokenFile)
    (answer : Except String String) : Prop :=
  ∃ other attempt, Later p old file other ∧ Drawn p old attempt ∧
    answer = (NodeAuth.token p other attempt).1

variable {old : String → Prop} {file : TokenFile} {attempt : Attempt}

theorem held_notOld (h : NotOld p old file) (hheld : held p file attempt = some text) :
    ¬ old text := by
  cases file with
  | missing | garbled => cases hheld
  | text content =>
    simp only [held] at hheld
    split at hheld
    · cases hheld
    · rename_i hgo
      rw [Option.some.injEq] at hheld
      subst hheld
      exact h content rfl fun hblank => hgo (Or.inr hblank)

/-- A call of `token` over a file without an old token returns none, and leaves none. -/
theorem token_notOld (hdrawn : Drawn p old attempt) (h : NotOld p old file) :
    NotOld p old (token p file attempt).2 ∧
      ∀ text, (token p file attempt).1 = .ok text → ¬ old text := by
  unfold token
  split
  · rename_i existing hheld
    refine ⟨h, fun text htext => ?_⟩
    rw [Except.ok.injEq] at htext
    subst htext
    exact held_notOld h hheld
  · split
    · exact ⟨h, fun text htext => (by cases htext)⟩
    · rename_i content hfailure
      refine ⟨fun other hother => ?_, fun text htext => (by cases htext)⟩
      rw [TokenFile.text.injEq] at hother
      subst hother
      exact hdrawn.written content hfailure
    · constructor
      · intro content hcontent _
        rw [TokenFile.text.injEq] at hcontent
        subst hcontent
        rw [hdrawn.clean]
        exact hdrawn.created
      · intro text htext
        rw [Except.ok.injEq] at htext
        subst htext
        exact hdrawn.created

theorem notOld_missing : NotOld p old .missing := nofun

theorem NotOld.later {other : TokenFile} (h : NotOld p old file) (hlater : Later p old file other) :
    NotOld p old other := by
  induction hlater with
  | refl => exact h
  | token attempt hdrawn _ ih => exact (token_notOld hdrawn ih).1
  | rotate stuck attempt hdrawn _ ih =>
    refine (token_notOld hdrawn ?_).1
    cases stuck with
    | true => exact ih
    | false => exact notOld_missing

theorem Answered.notOld {answer : Except String String} (hanswered : Answered p old file answer)
    (h : NotOld p old file) (htext : answer = .ok text) : ¬ old text := by
  obtain ⟨other, attempt, hlater, hdrawn, rfl⟩ := hanswered
  exact (token_notOld hdrawn (h.later hlater)).2 text htext

/-- No session and no bearer of an old token is accepted at any later moment. -/
def Retired (p : Platform) (published : Jwk → Prop) (old : String → Prop) (file : TokenFile) :
    Prop :=
  ∀ (perimeter : Perimeter published) (env : Env published) (request : Request) (now : Rat),
    Answered p old file env.session → Answered p old file env.bearer →
    ∀ decision, (authorize p perimeter env request now).1 = .ok decision →
      (decision.reason = "session" → ∀ s : Session, old s.token → request.cookie ≠ s.text p) ∧
      (decision.reason = "bearer_token" → ∀ text, old text → ¬ Presents p (request.bearer p) text)

/-- A reason is given only for what was shown. -/
theorem authorize_reason (hp : p.Faithful) {env : Env published} {request : Request}
    {decision : AuthDecision} (h : (authorize p perimeter env request now).1 = .ok decision) :
    (decision.reason = "session" → ShowsSession p env request now) ∧
      (decision.reason = "bearer_token" → BearsToken p env request) := by
  by_cases hlocal : Local p request
  · rw [authorize_local hlocal, Except.ok.injEq] at h
    subst h
    exact ⟨fun h => absurd h (by decide), fun h => absurd h (by decide)⟩
  rw [authorize_remote hlocal, bind_ok] at h
  obtain ⟨known, hknown, h⟩ := h
  cases known with
  | true =>
    rw [if_pos rfl, pure_ok] at h
    subst h
    exact ⟨fun _ => (verifySession_true hp).mp hknown, fun h => absurd h (by decide)⟩
  | false =>
    rw [if_neg (by simp), bind_ok] at h
    obtain ⟨accepted, _, h⟩ := h
    cases accepted with
    | true =>
      rw [if_pos rfl, pure_ok] at h
      subst h
      exact ⟨fun h => absurd h (by decide), fun h => absurd h (by decide)⟩
    | false =>
      rw [if_neg (by simp), bind_ok] at h
      obtain ⟨bears, hbears, h⟩ := h
      cases bears with
      | true =>
        rw [if_pos rfl, pure_ok] at h
        subst h
        obtain ⟨text, hpresents, hcurrent, _⟩ := (verifyBearer_true hp).mp hbears
        exact ⟨fun h => absurd h (by decide), fun _ => ⟨text, hcurrent, hpresents⟩⟩
      | false =>
        rw [if_neg (by simp), pure_ok] at h
        subst h
        exact ⟨fun h => absurd h (by decide), fun h => absurd h (by decide)⟩

/-- Without an old token its sessions and bearers are worth nothing. -/
theorem NotOld.retired (hp : p.Faithful) (h : NotOld p old file) :
    Retired p published old file := by
  intro perimeter env request now hsession hbearer decision hdecision
  obtain ⟨hshows, hbears⟩ := authorize_reason hp hdecision
  constructor
  · intro hreason s hs hcookie
    obtain ⟨secret, hcurrent, hsigned⟩ := hshows hreason
    rw [hcookie] at hsigned
    have htoken := ((s.signedUnder hp).mp hsigned).1
    exact hsession.notOld h hcurrent (htoken ▸ hs)
  · intro hreason text htext hpresents
    obtain ⟨other, hcurrent, hother⟩ := hbears hreason
    have hsame := hpresents.unique hother
    exact hbearer.notOld h hcurrent (hsame ▸ htext)

theorem truncate_zero : truncate 0 = 0 := by
  simp [truncate]

/-- A session of a token, made at the start of time. -/
def firstSession (token : String) : Session where
  token
  issued := 0
  ttl := 0
  whole := by
    simp only [add_zero, truncate_zero, and_self]
    decide +kernel

theorem firstSession_expires (token : String) : (firstSession token).expires = 0 := by
  rw [Session.expires, firstSession, add_zero, truncate_zero]

theorem not_retired (hp : p.Faithful) (hdrawn : Drawn p old attempt)
    (hheld : held p file attempt = some text) (hold : old text) (perimeter : Perimeter published) :
    ¬ Retired p published old file := by
  intro hretired
  have htoken : (token p file attempt).1 = .ok text := by
    rw [token, hheld]
  have hanswered : Answered p old file (.ok text) := ⟨file, attempt, .refl, hdrawn, htoken.symm⟩
  have hlocal : ¬ Local p ⟨"", [], (firstSession text).text p⟩ := by
    intro h
    have hloopback := h.2.1
    rw [isLoopbackAddr, hp.strip_empty, hp.lower_empty] at hloopback
    exact absurd hloopback (by decide)
  have htrue : verifySession p (.ok text) ((firstSession text).text p) 0 = .ok true := by
    refine (verifySession_true hp).mpr ⟨text, rfl, ?_⟩
    refine ((firstSession text).signedUnder hp).mpr ⟨rfl, ?_⟩
    rw [firstSession_expires, Int.cast_zero]
  have hallowed : (authorize p perimeter ⟨.ok text, .ok text, none, none⟩
      ⟨"", [], (firstSession text).text p⟩ 0).1 = .ok ⟨true, "session", "session"⟩ := by
    rw [authorize_remote hlocal]
    simp only [htrue]
    rfl
  exact (hretired perimeter _ _ 0 hanswered hanswered _ hallowed).1 rfl (firstSession text) hold rfl

/-- After a rotation nothing of the old tokens is accepted, unless the file could be read but not
removed. -/
theorem rotateToken_retired_iff (hp : p.Faithful) (perimeter : Perimeter published)
    (hdrawn : Drawn p old attempt)
    (hold : ∀ content, file = .text content → p.strip content ≠ "" → old (p.strip content))
    {stuck : Bool} {after : TokenFile} (h : rotateToken p file stuck attempt = (.ok text, after)) :
    Retired p published old after ↔ stuck = false ∨ held p file attempt = none := by
  by_cases hkept : stuck = true ∧ ∃ existing, held p file attempt = some existing
  · obtain ⟨rfl, existing, hheld⟩ := hkept
    simp only [rotateToken, if_true, token, hheld, Prod.mk.injEq, Except.ok.injEq] at h
    obtain ⟨-, rfl⟩ := h
    have hexisting : old existing := by
      cases file with
      | missing | garbled => cases hheld
      | text content =>
        simp only [held] at hheld
        split at hheld
        · cases hheld
        · rename_i hgo
          rw [Option.some.injEq] at hheld
          exact hheld ▸ hold content rfl fun hblank => hgo (Or.inr hblank)
    constructor
    · intro hretired
      exact absurd hretired (not_retired hp hdrawn hheld hexisting perimeter)
    · intro hno
      simp [hheld] at hno
  · have hnone : held p (if stuck then file else .missing) attempt = none := by
      cases stuck with
      | false => rfl
      | true =>
        refine Option.eq_none_iff_forall_ne_some.mpr fun existing hheld => ?_
        exact hkept ⟨rfl, existing, hheld⟩
    have hafter : NotOld p old after := by
      simp only [rotateToken, token, hnone] at h
      split at h
      · cases h
      · cases h
      · rw [Prod.mk.injEq] at h
        obtain ⟨-, rfl⟩ := h
        intro content hcontent _
        rw [TokenFile.text.injEq] at hcontent
        subst hcontent
        rw [hdrawn.clean]
        exact hdrawn.created
    refine ⟨fun _ => ?_, fun _ => hafter.retired hp⟩
    cases stuck with
    | false => exact Or.inl rfl
    | true => exact Or.inr hnone

/-- **The control surface lets in whom it should.**  Every request, whatever the state of the keys
and the token, is decided, and let in only if it is legitimate, exactly when it is local or no
value that is reached makes a check raise or passes for a time or an audience; and once a rotation
returned, nothing of an old token is accepted, exactly when the file was removed or could not be
read. -/
theorem authorize_meets_iff (hp : p.Faithful) (perimeter : Perimeter published) :
    (∀ sessions env request now, Unforged p sessions env.session request.cookie →
      (Meets p sessions perimeter env request now ↔
        Local p request ∨ Harmless p perimeter env request now)) ∧
    ∀ old file stuck attempt text after, Drawn p old attempt →
      (∀ content, file = .text content → p.strip content ≠ "" → old (p.strip content)) →
      rotateToken p file stuck attempt = (.ok text, after) →
      (Retired p published old after ↔ stuck = false ∨ held p file attempt = none) :=
  ⟨fun _ _ _ _ hunforged => meets_iff hp hunforged,
    fun _ _ _ _ _ _ hdrawn hold h => rotateToken_retired_iff hp perimeter hdrawn hold h⟩

/-! A node with one session. -/

/-- A text in two digits, so that texts can be told apart. -/
def hidden (text : String) : List Char := Json.listCode (fun c => Json.unary c.toNat) text.toList

def readDigits (digits : List Char) : Option Int :=
  if digits.all Char.isDigit then some (Nat.ofDigitChars 10 digits 0 : Nat) else none

/-- A decimal number. -/
def readInt (text : String) : Option Int :=
  match text.toList with
  | '-' :: digits => (readDigits digits).map fun n => -n
  | digits => readDigits digits

theorem readDigits_repr (n : Nat) : readDigits n.repr.toList = some (n : Int) := by
  have hdigits : n.repr.toList.all Char.isDigit = true := by
    rw [Nat.toList_repr, List.all_eq_true]
    exact fun c hc => Nat.isDigit_of_mem_toDigits (by decide) (by decide) hc
  rw [readDigits, if_pos hdigits, Nat.toList_repr, Nat.ofDigitChars_toDigits (by decide)
    (by decide)]

theorem readInt_repr (n : Int) : readInt n.repr = some n := by
  cases n with
  | ofNat m =>
    have hread := readDigits_repr m
    unfold readInt
    split
    · rename_i digits htext
      have hminus : '-' ∈ m.repr.toList := by
        rw [show m.repr.toList = '-' :: digits from htext]
        exact (.head _)
      rw [Nat.toList_repr] at hminus
      exact absurd (Nat.isDigit_of_mem_toDigits (by decide) (by decide) hminus) (by decide)
    · exact hread
  | negSucc m =>
    have htext : (Int.negSucc m).repr.toList = '-' :: (m + 1).repr.toList := by
      simp [Int.repr]
    rw [readInt, htext]
    simp only [readDigits_repr, Option.map_some, Int.negSucc_eq, Nat.cast_add, Nat.cast_one]

def samplePlatform : Platform where
  strip := id
  lower text := text.map Char.toLower
  float text := (readInt text).map fun n => .finite n
  int := readInt
  str value := (value.asStr?).getD ""
  b64decode _ := none
  loads _ := none
  sign token payload := String.ofList (hidden token ++ hidden payload)
  rs256Verify _ _ _ := false

theorem mem_hidden {c : Char} (h : c ∈ hidden text) : c = '0' ∨ c = '1' := by
  have hlist : ∀ l : List Char, c ∈ Json.listCode (fun d => Json.unary d.toNat) l →
      c = '0' ∨ c = '1' := by
    intro l
    induction l with
    | nil =>
      intro h
      exact Or.inl (List.mem_singleton.mp h)
    | cons d rest ih =>
      intro h
      simp only [Json.listCode, List.cons_append, List.mem_cons, List.mem_append] at h
      obtain h | h | h := h
      · exact Or.inr h
      · simp only [Json.unary, List.mem_append, List.mem_replicate, List.mem_singleton] at h
        grind
      · exact ih h
  exact hlist _ h

theorem mem_sign {token payload : String} {c : Char}
    (h : c ∈ (samplePlatform.sign token payload).toList) : c = '0' ∨ c = '1' := by
  have h' : c ∈ hidden token ++ hidden payload := by
    simpa [samplePlatform] using h
  exact (List.mem_append.mp h').elim mem_hidden mem_hidden

theorem sample_float {n : Int} (h : readInt text = some n) :
    samplePlatform.float text = some (.finite n) := by
  simp [samplePlatform, h]

theorem samplePlatform_faithful : samplePlatform.Faithful where
  strip_empty := rfl
  lower_empty := by decide +kernel
  lower_blank := by
    intro text h
    have hmem : ' ' ∈ (text.map Char.toLower).toList := h
    rw [String.toList_map, List.mem_map] at hmem
    obtain ⟨c, hc, hlower⟩ := hmem
    have hblank : c = ' ' := by
      unfold Char.toLower at hlower
      split at hlower
      · rename_i hupper
        have hval : c.val + ('a'.val - 'A'.val) = ' '.val := congrArg Char.val hlower
        have hsum := congrArg UInt32.toNat hval
        have hlow := UInt32.le_iff_toNat_le.mp hupper.1
        have hhigh := UInt32.le_iff_toNat_le.mp hupper.2
        simp at hsum hlow hhigh
        omega
      · exact hlower
    exact hblank ▸ hc
  float_repr := by
    intro n _
    exact sample_float (readInt_repr n)
  int_repr := by
    intro n _
    exact readInt_repr n
  sign_ascii := by
    intro token payload
    refine List.all_eq_true.mpr fun c hc => ?_
    obtain rfl | rfl := mem_sign hc <;> decide
  sign_dotless := by
    intro token payload hdot
    obtain h | h := mem_sign hdot <;> exact absurd h (by decide)
  sign_injective := by
    intro token other payload h
    have hchar : Json.PrefixFree fun c : Char => Json.unary c.toNat := by
      intro c d x y hcd
      obtain ⟨hn, hxy⟩ := Json.prefixFree_unary _ _ x y hcd
      exact ⟨Char.toNat_inj.mp hn, hxy⟩
    have hlists : hidden token ++ hidden payload = hidden other ++ hidden payload :=
      String.ofList_inj.mp h
    exact String.toList_inj.mp (Json.prefixFree_listCode hchar _ _ _ _ hlists).1

def samplePerimeter : Perimeter fun _ => False :=
  ⟨"", "", ⟨true, [], fun _ => rfl, fun _ h => (by cases h)⟩, 0, 0⟩

def sampleEnv : Env fun _ => False := ⟨.ok "secret", .ok "secret", none, none⟩

/-- A request over a tunnel. -/
def sampleRequest (cookie : String) : Request :=
  ⟨"127.0.0.1", [("CF-Connecting-IP", "203.0.113.9")], cookie⟩

theorem sampleRequest_remote (cookie : String) : ¬ Local samplePlatform (sampleRequest cookie) := by
  intro h
  have hforwarded : isForwarded samplePlatform [("CF-Connecting-IP", "203.0.113.9")] = true := by
    decide +kernel
  rw [sampleRequest, Local, hforwarded] at h
  cases h.1

/-- A cookie whose last part is not ASCII makes the comparison raise. -/
theorem foreign_signature_raises :
    Unforged samplePlatform [] sampleEnv.session "1.1.é" ∧
      ¬ Meets samplePlatform [] samplePerimeter sampleEnv (sampleRequest "1.1.é") 0 := by
  have hparts : parts "1.1.é" = ["1", "1", "é"] := by decide +kernel
  have hread : readInt "1" = some 1 := by decide +kernel
  have hjudged : Judged samplePlatform "1.1.é" 0 "1" "1" "é" := by
    refine ⟨hparts, ⟨.finite (1 : Int), ?_, by simp [Number.lt]⟩, ?_⟩
    · exact sample_float hread
    · show readInt "1" ≠ none
      rw [hread]
      simp
  have hunforged : Unforged samplePlatform [] sampleEnv.session "1.1.é" := by
    rintro token now _ ⟨issued, expires, hsplit, _⟩
    rw [hparts] at hsplit
    simp only [List.cons.injEq, and_true] at hsplit
    have hascii := samplePlatform_faithful.sign_ascii token (issued ++ "." ++ expires)
    rw [← hsplit.2.2] at hascii
    exact absurd hascii (by decide +kernel)
  refine ⟨hunforged, ?_⟩
  rw [meets_iff samplePlatform_faithful hunforged]
  intro hcondition
  obtain hlocal | hharmless := hcondition
  · exact sampleRequest_remote _ hlocal
  · exact absurd (hharmless.session _ _ _ hjudged).2 (by decide +kernel)

/-- A session lets its holder in, and nobody any more after a rotation. -/
theorem authorize_meets_iff_sample :
    Meets samplePlatform [firstSession "secret"] samplePerimeter sampleEnv
        (sampleRequest ((firstSession "secret").text samplePlatform)) 0 ∧
      Retired samplePlatform (fun _ => False) (· = "secret") (.text "fresh") := by
  have hsigned : SignedUnder samplePlatform "secret"
      ((firstSession "secret").text samplePlatform) 0 := by
    refine ((firstSession "secret").signedUnder samplePlatform_faithful).mpr ⟨rfl, ?_⟩
    rw [firstSession_expires, Int.cast_zero]
  have hshows : ShowsSession samplePlatform sampleEnv
      (sampleRequest ((firstSession "secret").text samplePlatform)) 0 := ⟨"secret", rfl, hsigned⟩
  obtain ⟨hdecided, hrotated⟩ := authorize_meets_iff samplePlatform_faithful samplePerimeter
  constructor
  · refine (hdecided [firstSession "secret"] sampleEnv _ 0 ?_).mpr (Or.inr ?_)
    · intro token now _ hforged
      have htoken := (((firstSession "secret").signedUnder samplePlatform_faithful).mp hforged).1
      exact ⟨_, List.mem_singleton_self _, htoken.symm, rfl⟩
    · refine ⟨(verifySession_total samplePlatform_faithful).mp ⟨true, ?_⟩,
        fun h => absurd hshows h, fun h => absurd hshows h, fun h => absurd hshows h⟩
      exact (verifySession_true samplePlatform_faithful).mpr hshows
  · refine (hrotated (· = "secret") (.text "secret") false ⟨false, none, "fresh"⟩ "fresh"
      (.text "fresh") ?_ ?_ ?_).mpr (Or.inl rfl)
    · exact ⟨rfl, by decide, fun content h => (by cases h)⟩
    · intro content hcontent _
      cases hcontent
      rfl
    · rfl

end NodeAuth
