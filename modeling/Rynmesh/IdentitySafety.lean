import Rynmesh.IdentityTiers
import Mathlib.Algebra.Order.Ring.Rat

/-!
# What an assessment depends on

A loop of `assessIdentity` takes a value from each claim on its own (`collect_ok`), so an
assessment is a function of these values (`Summary`): the issuers of vouches are a set, the
stakes and the proofs are sums.  From this follow, for lists on which it returns, the
independence of the order and of claims that do not count, and that more evidence never
lowers the tier.

Each further copy of a stake or a proof counts again (`repeated_stake_promotes`), a claim
without a field raises (`incomplete_vouch_raises`), and where a policy has no positive
validity the age of a vouch is not looked at.
-/

namespace Identity

open Checked Documents
open Credits (IdentityTier)

variable {p : Platform} {times : Times} {q : Question}

/-! ### Loops -/

/-- What a claim adds, none where it raises. -/
def got {β : Type} (f : SignedPayload → Except Fault (Option β)) (signed : SignedPayload) :
    Option β :=
  (f signed).toOption.join

/-- All claims of a list return. -/
def AllReturn {β : Type} (f : SignedPayload → Except Fault (Option β))
    (claims : List SignedPayload) : Prop :=
  ∀ signed ∈ claims, ∃ found, f signed = .ok found

/-- **A loop** takes what each claim adds. -/
theorem collect_ok {α β : Type} {f : SignedPayload → Except Fault (Option β)}
    {add : α → Option β → α} (claims : List SignedPayload) : ∀ {start result : α},
    collect f add start claims = .ok result ↔
      AllReturn f claims ∧ result = (claims.map (got f)).foldl add start := by
  induction claims with
  | nil =>
    intro start result
    simp [collect, AllReturn, pure, Except.pure, eq_comm]
  | cons signed rest ih =>
    intro start result
    unfold collect at ih ⊢
    rw [List.foldlM_cons]
    cases hfound : f signed with
    | error fault =>
      refine iff_of_false (by simp) fun h => ?_
      obtain ⟨found, hok⟩ := h.1 signed (.head _)
      rw [hfound] at hok
      cases hok
    | ok found =>
      have hgot : got f signed = found := by simp [got, hfound, Except.toOption]
      simp only [ok_bind, pure_bind, ih, List.map_cons, List.foldl_cons, hgot, AllReturn,
        List.forall_mem_cons, hfound, Except.ok.injEq, exists_eq', true_and]

/-! ### Vouches -/

theorem addVouch_some (issuers : List String) (issuer : String) : addVouch issuers (some issuer) =
    if issuer ∈ issuers then issuers else issuers ++ [issuer] := rfl

theorem mem_addVouches {found : List (Option String)} {issuer : String} :
    ∀ {issuers : List String}, issuer ∈ found.foldl addVouch issuers ↔
      issuer ∈ issuers ∨ some issuer ∈ found := by
  induction found with
  | nil => simp
  | cons head rest ih =>
    intro issuers
    rw [List.foldl_cons, ih, List.mem_cons]
    cases head with
    | none => simp [addVouch]
    | some other =>
      rw [addVouch_some]
      split
      · next hmem =>
        constructor
        · intro h
          rcases h with h | h
          · exact Or.inl h
          · exact Or.inr (Or.inr h)
        · intro h
          rcases h with h | h | h
          · exact Or.inl h
          · exact Or.inl (Option.some.inj h ▸ hmem)
          · exact Or.inr h
      · rw [List.mem_append, List.mem_singleton, Option.some.injEq, or_assoc]

theorem nodup_addVouches (found : List (Option String)) :
    ∀ {issuers : List String}, issuers.Nodup → (found.foldl addVouch issuers).Nodup := by
  induction found with
  | nil => exact fun h => h
  | cons head rest ih =>
    intro issuers h
    refine ih ?_
    cases head with
    | none => exact h
    | some other =>
      rw [addVouch_some]
      split
      · exact h
      · next hnot =>
        refine List.nodup_append.mpr ⟨h, List.nodup_singleton other, ?_⟩
        intro a ha b hb
        rw [List.mem_singleton.mp hb]
        exact fun heq => hnot (heq ▸ ha)

theorem length_addVouches_le {found more : List (Option String)} (h : ∀ issuer : String,
    some issuer ∈ found → some issuer ∈ more) :
    (found.foldl addVouch []).length ≤ (more.foldl addVouch []).length := by
  refine (List.subperm_of_subset (nodup_addVouches found List.nodup_nil) ?_).length_le
  intro issuer hmem
  rcases mem_addVouches.mp hmem with hnil | hfound
  · exact (List.not_mem_nil hnil).elim
  · exact mem_addVouches.mpr (Or.inr (h issuer hfound))

/-! ### Sums -/

theorem foldl_addStake (found : List (Option Rat)) : ∀ total,
    found.foldl addStake total = total + (found.map (·.getD 0)).sum := by
  induction found with
  | nil => simp
  | cons head rest ih =>
    intro total
    rw [List.foldl_cons, ih, addStake, List.map_cons, List.sum_cons, add_assoc]

/-- What a proof adds to a metric. -/
def share (name : String) : Option (String × Rat) → Rat
  | none => 0
  | some (other, value) => if other = name then value else 0

theorem metric_addProof (name : String) (totals : Dict String Rat) (found : Option (String × Rat)) :
    metric (addProof totals found) name = metric totals name + share name found := by
  cases found with
  | none => simp [addProof, share]
  | some entry =>
    obtain ⟨other, value⟩ := entry
    unfold metric addProof share
    by_cases hname : name = other
    · simp [hname]
    · simp [hname, Ne.symm hname]

theorem metric_addProofs (name : String) (found : List (Option (String × Rat))) : ∀ totals,
    metric (found.foldl addProof totals) name =
      metric totals name + (found.map (share name)).sum := by
  induction found with
  | nil => simp
  | cons head rest ih =>
    intro totals
    rw [List.foldl_cons, ih, metric_addProof, List.map_cons, List.sum_cons, add_assoc]

theorem mem_keys_addProofs (name : String) (found : List (Option (String × Rat))) :
    ∀ totals : Dict String Rat, name ∈ (found.foldl addProof totals).keys ↔
      name ∈ totals.keys ∨ ∃ value, some (name, value) ∈ found := by
  induction found with
  | nil => simp
  | cons head rest ih =>
    intro totals
    rw [List.foldl_cons, ih]
    cases head with
    | none => simp [addProof]
    | some entry =>
      unfold addProof
      rw [Dict.mem_keys_set]
      grind

theorem get?_eq_metric (totals : Dict String Rat) (name : String) :
    totals.get? name = if name ∈ totals.keys then some (metric totals name) else none := by
  unfold metric
  by_cases hmem : name ∈ totals.keys
  · obtain ⟨value, hvalue⟩ := Dict.mem_keys_iff.mp hmem
    rw [if_pos hmem, hvalue]
    rfl
  · rw [if_neg hmem]
    exact Dict.get?_eq_none_iff.mpr hmem

/-! ### The tier -/

/-- The tier that is decided. -/
def tierOf (policy : IdentityPolicy) (vouches : Nat) (total full uptime : Rat) : IdentityTier :=
  if policy.minVouchesForAttested ≤ vouches then
    if policy.provenMinFullServed ≤ full ∧ policy.provenMinUptimeHours ≤ uptime then .proven
    else if policy.stakeMinAmount ≤ total then .staked
    else .attested
  else .unverified

theorem decideTier_fst (policy : IdentityPolicy) (vouches : Nat) (total : Rat)
    (totals : Dict String Rat) : (decideTier times policy vouches total totals).1 =
      tierOf policy vouches total (metric totals "full_served") (metric totals "uptime_hours") := by
  unfold decideTier tierOf proofTier stakeTier vouchTier
  by_cases hvouches : policy.minVouchesForAttested ≤ vouches
  · by_cases hstake : policy.stakeMinAmount ≤ total
    · simp only [hvouches, hstake, if_true, reduceCtorEq, if_false, ne_eq, not_false_iff, and_true]
      split <;> rfl
    · simp only [hvouches, hstake, if_true, reduceCtorEq, if_false, ne_eq, not_false_iff, and_true]
      split <;> rfl
  · by_cases hstake : policy.stakeMinAmount ≤ total
    · simp only [hvouches, hstake, if_true, if_false, ne_eq, not_true, and_false]
    · simp only [hvouches, hstake, if_false, ne_eq, not_true, and_false]

/-- **More evidence never lowers the tier.** -/
theorem tierOf_mono (policy : IdentityPolicy) {vouches vouches' : Nat}
    {total total' full full' uptime uptime' : Rat} (hvouches : vouches ≤ vouches')
    (htotal : total ≤ total') (hfull : full ≤ full') (huptime : uptime ≤ uptime') :
    (tierOf policy vouches total full uptime).rank ≤
      (tierOf policy vouches' total' full' uptime').rank := by
  unfold tierOf
  by_cases hmin : policy.minVouchesForAttested ≤ vouches
  · have hmin' : policy.minVouchesForAttested ≤ vouches' :=
      hmin.trans (Int.ofNat_le.mpr hvouches)
    rw [if_pos hmin, if_pos hmin']
    by_cases hproven : policy.provenMinFullServed ≤ full ∧ policy.provenMinUptimeHours ≤ uptime
    · rw [if_pos hproven, if_pos ⟨hproven.1.trans hfull, hproven.2.trans huptime⟩]
    rw [if_neg hproven]
    by_cases hstake : policy.stakeMinAmount ≤ total
    · rw [if_pos hstake, if_pos (hstake.trans htotal)]
      split <;> decide
    · rw [if_neg hstake]
      split
      · decide
      · split <;> decide
  · rw [if_neg hmin]
    exact Nat.zero_le _

/-! ### Assessments -/

/-- The values that an assessment is made of. -/
structure Summary where
  issuers : List String
  total : Rat
  totals : Dict String Rat

/-- What the loops take from the claims. -/
def summary (p : Platform) (times : Times) (q : Question) (e : Evidence) : Summary :=
  { issuers := (e.vouches.map (got (vouchOf p times q))).foldl addVouch []
    total := (e.stakes.map (got (stakeOf p times q))).foldl addStake 0
    totals := (e.proofs.map (got (proofOf p q))).foldl addProof .empty }

def Summary.assessment (times : Times) (q : Question) (s : Summary) : IdentityAssessment :=
  { peerId := q.peerId
    tier := (decideTier times q.policy s.issuers.length s.total s.totals).1
    vouchCount := s.issuers.length
    stakeAmount := s.total
    proofMetrics := s.totals
    reasons := (decideTier times q.policy s.issuers.length s.total s.totals).2 }

/-- No claim of the lists raises. -/
structure Evidence.Returns (p : Platform) (times : Times) (q : Question) (e : Evidence) : Prop where
  vouches : AllReturn (vouchOf p times q) e.vouches
  stakes : AllReturn (stakeOf p times q) e.stakes
  proofs : AllReturn (proofOf p q) e.proofs

variable {e : Evidence} {a : IdentityAssessment}

/-- **An assessment** is that of what the claims add. -/
theorem assessIdentity_ok :
    assessIdentity p times q e = .ok a ↔
      e.Returns p times q ∧ a = (summary p times q e).assessment times q := by
  unfold assessIdentity
  simp only [bind_ok, pure_ok, collect_ok]
  constructor
  · rintro ⟨issuers, ⟨hvouches, rfl⟩, total, ⟨hstakes, rfl⟩, totals, ⟨hproofs, rfl⟩, rfl⟩
    exact ⟨⟨hvouches, hstakes, hproofs⟩, rfl⟩
  · rintro ⟨⟨hvouches, hstakes, hproofs⟩, rfl⟩
    exact ⟨_, ⟨hvouches, rfl⟩, _, ⟨hstakes, rfl⟩, _, ⟨hproofs, rfl⟩, rfl⟩

/-- The same tier and the same totals. -/
structure IdentityAssessment.Same (a b : IdentityAssessment) : Prop where
  tier : a.tier = b.tier
  vouches : a.vouchCount = b.vouchCount
  stake : a.stakeAmount = b.stakeAmount
  metrics : ∀ name, a.proofMetrics.get? name = b.proofMetrics.get? name

theorem same_of_summary {s t : Summary} (hissuers : s.issuers.length = t.issuers.length)
    (htotal : s.total = t.total) (htotals : ∀ name, s.totals.get? name = t.totals.get? name) :
    (s.assessment times q).Same (t.assessment times q) := by
  have hmetric : ∀ name, metric s.totals name = metric t.totals name := by
    intro name
    unfold metric
    rw [htotals]
  refine ⟨?_, hissuers, htotal, htotals⟩
  unfold Summary.assessment
  rw [decideTier_fst, decideTier_fst, hissuers, htotal, hmetric, hmetric]

/-- Lists with the same members have as many issuers, and lists that are permutations of each
other have the same totals. -/
structure Evidence.Alike (e e' : Evidence) : Prop where
  vouches : ∀ signed, signed ∈ e.vouches ↔ signed ∈ e'.vouches
  stakes : e.stakes.Perm e'.stakes
  proofs : e.proofs.Perm e'.proofs

theorem Evidence.Alike.returns {e' : Evidence} (h : e.Alike e') (hreturns : e.Returns p times q) :
    e'.Returns p times q :=
  ⟨fun signed hmem => hreturns.vouches signed ((h.vouches signed).mpr hmem),
    fun signed hmem => hreturns.stakes signed (h.stakes.mem_iff.mpr hmem),
    fun signed hmem => hreturns.proofs signed (h.proofs.mem_iff.mpr hmem)⟩

theorem totals_perm {found found' : List (Option (String × Rat))} (h : found.Perm found')
    (name : String) : (found.foldl addProof .empty).get? name =
      (found'.foldl addProof .empty).get? name := by
  rw [get?_eq_metric, get?_eq_metric, metric_addProofs, metric_addProofs,
    (h.map (share name)).sum_eq]
  refine if_congr ?_ rfl rfl
  rw [mem_keys_addProofs, mem_keys_addProofs]
  exact or_congr Iff.rfl (exists_congr fun value => h.mem_iff)

/-- **The order of the claims and the copies of a vouch** do not matter. -/
theorem assess_alike {e' : Evidence} (h : e.Alike e')
    (hassess : assessIdentity p times q e = .ok a) :
    ∃ b, assessIdentity p times q e' = .ok b ∧ a.Same b := by
  obtain ⟨hreturns, rfl⟩ := assessIdentity_ok.mp hassess
  refine ⟨_, assessIdentity_ok.mpr ⟨h.returns hreturns, rfl⟩, same_of_summary ?_ ?_ ?_⟩
  · refine le_antisymm (length_addVouches_le ?_) (length_addVouches_le ?_)
    · intro issuer hmem
      obtain ⟨signed, hsigned, hgot⟩ := List.mem_map.mp hmem
      exact List.mem_map.mpr ⟨signed, (h.vouches signed).mp hsigned, hgot⟩
    · intro issuer hmem
      obtain ⟨signed, hsigned, hgot⟩ := List.mem_map.mp hmem
      exact List.mem_map.mpr ⟨signed, (h.vouches signed).mpr hsigned, hgot⟩
  · unfold summary
    rw [foldl_addStake, foldl_addStake, ((h.stakes.map _).map _).sum_eq]
  · exact totals_perm (h.proofs.map _)

/-! ### What counts -/

variable {signed : SignedPayload}

theorem got_eq_some {β : Type} {f : SignedPayload → Except Fault (Option β)} {b : β} :
    got f signed = some b ↔ f signed = .ok (some b) := by
  unfold got
  cases hfound : f signed with
  | error fault | ok found => simp [Except.toOption]

theorem skipInvalid_some {α : Type} {x : Except Fault α} {claim : α} :
    skipInvalid x = .ok (some claim) ↔ x = .ok claim := by
  cases x with
  | ok other => simp [skipInvalid]
  | error fault => cases fault <;> simp [skipInvalid]

/-- A trusted issuer vouches for the peer, not too long ago where the policy asks. -/
structure Vouches (p : Platform) (times : Times) (q : Question) (signed : SignedPayload)
    (issuer : String) (vouch : PeerVouch) (issued : Int) : Prop where
  verified : verifyPeerVouch p signed = .ok vouch
  subject : vouch.subjectPeerId = q.peerId
  signer : vouch.issuerPeerId = issuer
  trusted : q.Trusts issuer
  time : parseIso times vouch.issuedAt = .ok (some issued)
  age : 0 < q.policy.vouchValidityDays →
    ((q.now - issued : Int) : Rat) ≤ q.policy.vouchValidityDays * dayMicros

theorem expired_false {policy : IdentityPolicy} {now issued : Int}
    (h : expired policy now issued = .ok false) (hpositive : 0 < policy.vouchValidityDays) :
    ((now - issued : Int) : Rat) ≤ policy.vouchValidityDays * dayMicros := by
  unfold expired at h
  rw [if_pos hpositive] at h
  obtain ⟨validity, hvalidity, heq⟩ := bind_ok.mp h
  obtain ⟨_, _, hdays⟩ := bind_ok.mp hvalidity
  have hage := of_decide_eq_false (pure_ok.mp heq)
  rw [← pure_ok.mp hdays] at hage
  exact not_lt.mp hage

/-- **A vouch that counts.** -/
theorem vouchOf_some {issuer : String} (h : vouchOf p times q signed = .ok (some issuer)) :
    ∃ vouch issued, Vouches p times q signed issuer vouch issued := by
  obtain ⟨claim, hclaim, h⟩ := bind_ok.mp h
  cases claim with
  | none => cases h
  | some vouch =>
    have hverified := skipInvalid_some.mp hclaim
    simp only [countedVouch] at h
    by_cases hsubject : vouch.subjectPeerId = q.peerId
    · rw [if_neg (not_not.mpr hsubject)] at h
      by_cases hself : vouch.issuerPeerId = q.peerId
      · rw [if_pos hself] at h
        cases h
      rw [if_neg hself] at h
      obtain ⟨time, htime, h⟩ := bind_ok.mp h
      cases time with
      | none => cases h
      | some issued =>
        obtain ⟨tooOld, hold, h⟩ := bind_ok.mp h
        have h := pure_ok.mp h
        cases tooOld with
        | true => cases h
        | false =>
          by_cases htrusts : q.Trusts vouch.issuerPeerId
          · rw [if_neg (by decide), if_pos htrusts] at h
            have hissuer := Option.some.inj h
            exact ⟨vouch, issued, hverified, hsubject, hissuer, hissuer ▸ htrusts, htime,
              expired_false hold⟩
          · rw [if_neg (by decide), if_neg htrusts] at h
            cases h
    · rw [if_pos hsubject] at h
      cases h

theorem stakeOf_some {amount : Rat} (h : stakeOf p times q signed = .ok (some amount)) :
    0 < amount ∧
      ∃ stake, verifyStakeCommitment p signed = .ok stake ∧ stake.subjectPeerId = q.peerId := by
  obtain ⟨claim, hclaim, h⟩ := bind_ok.mp h
  cases claim with
  | none => cases h
  | some stake =>
    have hverified := skipInvalid_some.mp hclaim
    simp only [countedStake] at h
    by_cases hsubject : stake.subjectPeerId = q.peerId
    · rw [if_neg (not_not.mpr hsubject)] at h
      obtain ⟨locked, _, h⟩ := bind_ok.mp h
      have h := pure_ok.mp h
      refine ⟨?_, stake, hverified, hsubject⟩
      unfold verifyStakeCommitment at hverified
      simp only [bind_ok, require_ok, pure_ok] at hverified
      obtain ⟨_, _, same, _, _, _, _, ⟨value, hvalue, hpositive⟩, rfl⟩ := hverified
      by_cases hlocked : locked.any (· ≤ q.now) = true
      · rw [if_pos hlocked] at h
        cases h
      · rw [if_neg hlocked, hvalue] at h
        rw [← Option.some.inj h]
        exact hpositive
    · rw [if_pos hsubject] at h
      cases h

theorem proofOf_some {name : String} {value : Rat}
    (h : proofOf p q signed = .ok (some (name, value))) : 0 ≤ value ∧
      ∃ proof, verifyProofOfResource p signed = .ok proof ∧ proof.subjectPeerId = q.peerId ∧
        q.Trusts proof.issuerPeerId := by
  obtain ⟨claim, hclaim, h⟩ := bind_ok.mp h
  have h := pure_ok.mp h
  cases claim with
  | none => cases h
  | some proof =>
    have hverified := skipInvalid_some.mp hclaim
    have h : countedProof q proof = some (name, value) := h
    unfold countedProof at h
    by_cases hsubject : proof.subjectPeerId = q.peerId
    · rw [if_neg (not_not.mpr hsubject)] at h
      by_cases htrusts : q.Trusts proof.issuerPeerId
      · rw [if_pos htrusts] at h
        refine ⟨?_, proof, hverified, hsubject, htrusts⟩
        obtain ⟨measured, hmeasured, heq⟩ := Option.map_eq_some_iff.mp h
        unfold verifyProofOfResource at hverified
        simp only [bind_ok, require_ok, pure_ok] at hverified
        obtain ⟨_, _, same, _, _, _, _, _, _, ⟨positive, hpositive, hle⟩, rfl⟩ := hverified
        rw [hpositive] at hmeasured
        have hvalue : measured = value := congrArg Prod.snd heq
        rw [← hvalue, ← Option.some.inj hmeasured]
        exact hle
      · rw [if_neg htrusts] at h
        cases h
    · rw [if_pos hsubject] at h
      cases h

/-! ### More claims -/

def Evidence.append (e more : Evidence) : Evidence :=
  ⟨e.vouches ++ more.vouches, e.stakes ++ more.stakes, e.proofs ++ more.proofs⟩

theorem Evidence.Returns.of_append {more : Evidence} (h : (e.append more).Returns p times q) :
    e.Returns p times q :=
  ⟨fun signed hmem => h.vouches signed (List.mem_append_left _ hmem),
    fun signed hmem => h.stakes signed (List.mem_append_left _ hmem),
    fun signed hmem => h.proofs signed (List.mem_append_left _ hmem)⟩

/-- Claims that an assessment ignores: they fail verification, are about another peer, or
their issuer is not trusted. -/
structure Evidence.Ignored (p : Platform) (q : Question) (e : Evidence) : Prop where
  vouches : ∀ signed ∈ e.vouches, ∀ vouch, verifyPeerVouch p signed = .ok vouch →
    vouch.issuerPeerId ∉ q.trusted ∨ vouch.subjectPeerId ≠ q.peerId
  stakes : ∀ signed ∈ e.stakes, ∀ stake, verifyStakeCommitment p signed = .ok stake →
    stake.subjectPeerId ≠ q.peerId
  proofs : ∀ signed ∈ e.proofs, ∀ proof, verifyProofOfResource p signed = .ok proof →
    proof.issuerPeerId ∉ q.trusted ∨ proof.subjectPeerId ≠ q.peerId

theorem Question.Trusts.mem {issuer : String} (h : q.Trusts issuer) (htrusted : q.trusted ≠ []) :
    issuer ∈ q.trusted :=
  h.resolve_left htrusted

theorem foldl_none {α β : Type} {add : α → Option β → α} (hadd : ∀ acc, add acc none = acc)
    {found : List (Option β)} (h : ∀ b, some b ∉ found) :
    ∀ start, found.foldl add start = start := by
  induction found with
  | nil => exact fun _ => rfl
  | cons head rest ih =>
    intro start
    have hhead : head = none := by
      cases head with
      | none => rfl
      | some b => exact absurd (.head _) (h b)
    rw [List.foldl_cons, hhead, hadd]
    exact ih (fun b hb => h b (.tail _ hb)) start

theorem summary_append_ignored (htrusted : q.trusted ≠ []) {extra : Evidence}
    (h : extra.Ignored p q) : summary p times q (e.append extra) = summary p times q e := by
  have hvouches : ∀ issuer, some issuer ∉ extra.vouches.map (got (vouchOf p times q)) := by
    intro issuer hmem
    obtain ⟨signed, hsigned, hgot⟩ := List.mem_map.mp hmem
    obtain ⟨vouch, issued, hvouch⟩ := vouchOf_some (got_eq_some.mp hgot)
    rcases h.vouches signed hsigned vouch hvouch.verified with hissuer | hsubject
    · rw [hvouch.signer] at hissuer
      exact hissuer (hvouch.trusted.mem htrusted)
    · exact hsubject hvouch.subject
  have hstakes : ∀ amount, some amount ∉ extra.stakes.map (got (stakeOf p times q)) := by
    intro amount hmem
    obtain ⟨signed, hsigned, hgot⟩ := List.mem_map.mp hmem
    obtain ⟨_, stake, hverified, hsubject⟩ := stakeOf_some (got_eq_some.mp hgot)
    exact h.stakes signed hsigned stake hverified hsubject
  have hproofs : ∀ entry, some entry ∉ extra.proofs.map (got (proofOf p q)) := by
    intro entry hmem
    obtain ⟨signed, hsigned, hgot⟩ := List.mem_map.mp hmem
    obtain ⟨_, proof, hverified, hsubject, htrusts⟩ := proofOf_some (got_eq_some.mp hgot)
    rcases h.proofs signed hsigned proof hverified with hissuer | hother
    · exact hissuer (htrusts.mem htrusted)
    · exact hother hsubject
  unfold summary Evidence.append
  rw [List.map_append, List.map_append, List.map_append, List.foldl_append, List.foldl_append,
    List.foldl_append, foldl_none (fun _ => rfl) hvouches, foldl_none (fun _ => add_zero _) hstakes,
    foldl_none (fun _ => rfl) hproofs]

/-- **Untrusted and failing claims** change nothing. -/
theorem assess_ignored (htrusted : q.trusted ≠ []) {extra : Evidence} {b : IdentityAssessment}
    (h : extra.Ignored p q) (hassess : assessIdentity p times q (e.append extra) = .ok b) :
    assessIdentity p times q e = .ok b := by
  obtain ⟨hreturns, rfl⟩ := assessIdentity_ok.mp hassess
  rw [summary_append_ignored htrusted h]
  exact assessIdentity_ok.mpr ⟨hreturns.of_append, rfl⟩

theorem sum_nonneg_of_some {β : Type} {weight : Option β → Rat} (hnone : weight none = 0)
    {found : List (Option β)} (h : ∀ b, some b ∈ found → 0 ≤ weight (some b)) :
    0 ≤ (found.map weight).sum := by
  refine List.sum_nonneg fun value hvalue => ?_
  obtain ⟨entry, hentry, rfl⟩ := List.mem_map.mp hvalue
  cases entry with
  | none => exact hnone.ge
  | some b => exact h b hentry

/-- **More claims never lower the tier.** -/
theorem assess_mono {more : Evidence} {b : IdentityAssessment}
    (ha : assessIdentity p times q e = .ok a)
    (hb : assessIdentity p times q (e.append more) = .ok b) : a.tier.rank ≤ b.tier.rank := by
  obtain ⟨_, rfl⟩ := assessIdentity_ok.mp ha
  obtain ⟨_, rfl⟩ := assessIdentity_ok.mp hb
  have hmetric : ∀ name, metric (summary p times q e).totals name ≤
      metric (summary p times q (e.append more)).totals name := by
    intro name
    unfold summary Evidence.append
    dsimp only
    rw [List.map_append, List.foldl_append, metric_addProofs name (more.proofs.map _)]
    refine le_add_of_nonneg_right (sum_nonneg_of_some rfl ?_)
    intro entry hentry
    obtain ⟨signed, _, hgot⟩ := List.mem_map.mp hentry
    have hvalue := (proofOf_some (got_eq_some.mp hgot)).1
    unfold share
    dsimp only
    split
    · exact hvalue
    · exact le_refl _
  unfold Summary.assessment
  rw [decideTier_fst, decideTier_fst]
  refine tierOf_mono q.policy ?_ ?_ (hmetric _) (hmetric _)
  · refine length_addVouches_le fun issuer hmem => ?_
    rw [Evidence.append, List.map_append]
    exact List.mem_append_left _ hmem
  · unfold summary Evidence.append
    dsimp only
    rw [List.map_append, List.foldl_append, foldl_addStake (more.stakes.map _)]
    refine le_add_of_nonneg_right (sum_nonneg_of_some rfl ?_)
    intro amount hmem
    obtain ⟨signed, _, hgot⟩ := List.mem_map.mp hmem
    exact (stakeOf_some (got_eq_some.mp hgot)).1.le

/-- **A tier needs vouches** of enough trusted issuers. -/
theorem assess_vouched (htrusted : q.trusted ≠ []) (h : assessIdentity p times q e = .ok a)
    (htier : a.tier ≠ .unverified) :
    ∃ issuers : List String, issuers.Nodup ∧
      q.policy.minVouchesForAttested ≤ issuers.length ∧ ∀ issuer ∈ issuers, issuer ∈ q.trusted ∧
        ∃ signed ∈ e.vouches, ∃ vouch issued, Vouches p times q signed issuer vouch issued := by
  obtain ⟨_, rfl⟩ := assessIdentity_ok.mp h
  refine ⟨(summary p times q e).issuers, nodup_addVouches _ List.nodup_nil, ?_, ?_⟩
  · unfold Summary.assessment at htier
    rw [decideTier_fst, tierOf] at htier
    by_contra hfew
    rw [if_neg hfew] at htier
    exact htier rfl
  · intro issuer hissuer
    rcases mem_addVouches.mp hissuer with hnil | hfound
    · exact (List.not_mem_nil hnil).elim
    · obtain ⟨signed, hsigned, hgot⟩ := List.mem_map.mp hfound
      obtain ⟨vouch, issued, hvouch⟩ := vouchOf_some (got_eq_some.mp hgot)
      exact ⟨hvouch.trusted.mem htrusted, signed, hsigned, vouch, issued, hvouch⟩

/-- **Tiers rest on trusted evidence**, on lists for which `assess_identity` returns. -/
theorem assessment_rests_on_trusted (p : Platform) (times : Times) (q : Question)
    (htrusted : q.trusted ≠ []) :
    (∀ e e' a, Evidence.Alike e e' → assessIdentity p times q e = .ok a →
      ∃ b, assessIdentity p times q e' = .ok b ∧ a.Same b) ∧
    (∀ e extra b, Evidence.Ignored p q extra →
      assessIdentity p times q (e.append extra) = .ok b → assessIdentity p times q e = .ok b) ∧
    (∀ e more a b, assessIdentity p times q e = .ok a →
      assessIdentity p times q (Evidence.append e more) = .ok b → a.tier.rank ≤ b.tier.rank) ∧
    ∀ e a, assessIdentity p times q e = .ok a → a.tier ≠ .unverified →
      ∃ issuers : List String, issuers.Nodup ∧
        q.policy.minVouchesForAttested ≤ issuers.length ∧ ∀ issuer ∈ issuers, issuer ∈ q.trusted ∧
          ∃ signed ∈ e.vouches, ∃ vouch issued, Vouches p times q signed issuer vouch issued :=
  ⟨fun _ _ _ halike ha => assess_alike halike ha,
    fun _ _ _ hignored hb => assess_ignored htrusted hignored hb,
    fun _ _ _ _ ha hb => assess_mono ha hb,
    fun _ _ ha htier => assess_vouched htrusted ha htier⟩

/-! ### Samples -/

/-- A platform on which every signature verifies. -/
def sample : Platform where
  repr _ := "other"
  parseInt _ := none
  parseFloat _ := none
  text _ := ""
  sha256 := id
  isKey _ := true
  isBase64 _ := true
  publicKey := id
  signature _ _ := ""
  verifies _ _ _ := true

/-- The start of 2026, in microseconds. -/
def sampleTimes : Times where
  fromisoformat text := if text = "2026-01-01" then some ⟨739251 * dayMicros, none⟩ else none
  fixed _ := "1.00"

/-- A question on the fourth hundredth day after it, with a validity in days. -/
def sampleQuestion (validity : Rat) : Question :=
  ⟨"peer", ["issuer"], ⟨1, 1, 50, 168, validity⟩, 739651 * dayMicros⟩

def sampleVouch : SignedPayload :=
  ⟨.ofObject (.object [("claim_type", .str "peer_vouch"), ("issued_at", .str "2026-01-01"),
    ("subject_peer_id", .str "peer"), ("issuer_peer_id", .str "issuer")]), "", "issuer",
    signatureAlg⟩

def sampleStake : SignedPayload :=
  ⟨.ofObject (.object [("claim_type", .str "stake_commitment"), ("issued_at", .str "2026-01-01"),
    ("subject_peer_id", .str "peer"), ("stake_kind", .str "deposit"),
    ("stake_amount", .float (some (1 / 2)) "0.5")]), "", "peer", signatureAlg⟩

def incompleteVouch : SignedPayload :=
  ⟨.ofObject (.object [("claim_type", .str "peer_vouch"), ("subject_peer_id", .str "peer"),
    ("issuer_peer_id", .str "issuer")]), "", "issuer", signatureAlg⟩

/-- The evidence of one vouch, with some stakes. -/
def sampleEvidence (stakes : List SignedPayload) : Evidence := ⟨[sampleVouch], stakes, []⟩

theorem sample_attested : ∃ a,
    assessIdentity sample sampleTimes (sampleQuestion 500) (sampleEvidence []) = .ok a ∧
      decide (a.tier = .attested) = true :=
  toOption_any (by decide +kernel)

/-- **A repeated stake** is counted twice. -/
theorem repeated_stake_promotes :
    (∃ a, assessIdentity sample sampleTimes (sampleQuestion 500)
      (sampleEvidence [sampleStake]) = .ok a ∧ decide (a.tier = .attested) = true) ∧
    ∃ b, assessIdentity sample sampleTimes (sampleQuestion 500)
      (sampleEvidence [sampleStake, sampleStake]) = .ok b ∧ decide (b.tier = .staked) = true :=
  ⟨toOption_any (by decide +kernel), toOption_any (by decide +kernel)⟩

/-- **A vouch without a field** raises. -/
theorem incomplete_vouch_raises :
    (assessIdentity sample sampleTimes (sampleQuestion 500)
      ⟨[incompleteVouch], [], []⟩).toOption.isNone = true := by
  decide +kernel

/-- **A vouch of any age counts** where the policy's validity is no positive number of days; a
claim may raise, and a repeated one is counted again. -/
theorem old_vouch_counts :
    (∃ a, assessIdentity sample sampleTimes (sampleQuestion 0) (sampleEvidence []) = .ok a ∧
      decide (a.tier = .attested) = true) ∧
    (∃ vouch, verifyPeerVouch sample sampleVouch = .ok vouch ∧
      decide ((parseIso sampleTimes vouch.issuedAt).toOption =
        some (some (739251 * dayMicros))) = true) ∧
    ¬ (sampleQuestion 0).now - 739251 * dayMicros ≤ 0 ∧
    (assessIdentity sample sampleTimes (sampleQuestion 500)
      ⟨[incompleteVouch], [], []⟩).toOption.isNone = true ∧
    (∃ a, assessIdentity sample sampleTimes (sampleQuestion 500)
      (sampleEvidence [sampleStake]) = .ok a ∧ decide (a.tier = .attested) = true) ∧
    ∃ b, assessIdentity sample sampleTimes (sampleQuestion 500)
      (sampleEvidence [sampleStake, sampleStake]) = .ok b ∧ decide (b.tier = .staked) = true :=
  ⟨toOption_any (by decide +kernel), toOption_any (by decide +kernel), by decide +kernel,
    incomplete_vouch_raises, repeated_stake_promotes.1, repeated_stake_promotes.2⟩

theorem assessment_rests_on_trusted_sample : ∃ a,
    assessIdentity sample sampleTimes (sampleQuestion 500) (sampleEvidence []) = .ok a ∧
      (∃ b, assessIdentity sample sampleTimes (sampleQuestion 500)
        ⟨[sampleVouch, sampleVouch], [], []⟩ = .ok b ∧ a.Same b) ∧
      ∃ issuers : List String, issuers.Nodup ∧ 1 ≤ issuers.length ∧
        ∀ issuer ∈ issuers, issuer ∈ ["issuer"] := by
  obtain ⟨a, ha, htier⟩ := sample_attested
  have htier := of_decide_eq_true htier
  have hall := assessment_rests_on_trusted sample sampleTimes (sampleQuestion 500) (by decide)
  have halike : (sampleEvidence []).Alike ⟨[sampleVouch, sampleVouch], [], []⟩ :=
    ⟨fun signed => by simp [sampleEvidence], .refl _, .refl _⟩
  obtain ⟨issuers, hnodup, hmin, hmem⟩ := hall.2.2.2 _ a ha (by rw [htier]; decide)
  exact ⟨a, ha, hall.1 _ _ _ halike ha, issuers, hnodup, Int.ofNat_le.mp hmin,
    fun issuer hissuer => (hmem issuer hissuer).1⟩

end Identity
