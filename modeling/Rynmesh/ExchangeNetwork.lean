import Rynmesh.ExchangeProcess
import Rynmesh.QuorumIntersection

/-!
# Ledgers over an asynchronous network

The ledgers of the correct keys take their steps in any order.  What reaches
them is up to the adversary, who speaks for every other key, and who loses,
repeats, reorders and invents messages; only a signature of a correct key
cannot be made up.

* `System.Sound` is the invariant: an approval a correct key signed is locked
  in its tables, and every stored block is backed by a quorum;
* `SystemStep.sound` keeps it, and `Reaches.sound` carries it along runs.
-/

namespace Exchange

open Checked

/-! ### Systems -/

/-- The ledgers of all keys, the payloads correct keys have signed and the
first votes they have cast. -/
structure System where
  process : String → Process
  signed : List (String × Json)
  casts : List Cast

/-- **Signatures are unforgeable.**  Where a part of a message verifies under a
correct key, that key has signed it. -/
def Authentic (C : Codec) (correct : String → Prop) (signed : List (String × Json))
    (message : Json) : Prop :=
  ∀ wire key sig payload, Json.Within wire message → correct key →
    wire.get? "public_key" = some (.str key) → wire.get? "signature" = some sig →
    (wire.get? "payload").bind Json.dict? = some payload →
    C.verifies key sig payload = true → (key, payload) ∈ signed

/-- What a step is handed is authentic. -/
def Label.Authentic (C : Codec) (correct : String → Prop) (signed : List (String × Json)) :
    Label → Prop
  | .deliver message => Exchange.Authentic C correct signed message
  | _ => True

/-- The system after a step of one key. -/
def System.advance (C : Codec) (s : System) (key : String) (label : Label) (q : Process) :
    System where
  process := Function.update s.process key q
  signed := s.signed ++ label.signs C key
  casts := s.casts ++ label.casts key

/-- One ledger of a correct key takes a step. -/
inductive SystemStep (C : Codec) (correct : String → Prop) : System → System → Prop
  | step {s : System} {key : String} {label : Label} {q : Process} (known : correct key)
      (authentic : label.Authentic C correct s.signed)
      (next : ProcessStep C key (s.process key) label q) :
      SystemStep C correct s (s.advance C key label q)

/-- Nothing has happened yet: every ledger is closed and has stored no block
and no vote. -/
structure System.Initial (s : System) : Prop where
  tables : ∀ key, ∃ db : Database, s.process key = .stopped db ∧ db.Fresh ∧ db.votes.entries = []
  signed : s.signed = []
  casts : s.casts = []

/-- Any interleaving of steps leads from one system to the other. -/
def Reaches (C : Codec) (correct : String → Prop) : System → System → Prop :=
  Relation.ReflTransGen (SystemStep C correct)

variable {C : Codec}

@[simp] theorem System.advance_self (s : System) (key : String) (label : Label) (q : Process) :
    (s.advance C key label q).process key = q :=
  Function.update_self ..

theorem System.advance_of_ne (s : System) {key k : String} (label : Label) (q : Process)
    (h : k ≠ key) : (s.advance C key label q).process k = s.process k :=
  Function.update_of_ne h ..

/-! ### Certificates -/

/-- The signers a certificate's votes name: distinct validators, each with a
vote that carries the expected payload. -/
structure Signers (C : Codec) (config : Config) (expected : Json) (votes : List Json)
    (signers : List String) : Prop where
  nodup : signers.Nodup
  signed : ∀ key ∈ signers, key ∈ config.validatorKeys ∧
    ∃ wire ∈ votes, ∃ payload, signature C wire = .ok ⟨payload, key⟩ ∧
      payload.pyEq expected = true

theorem Signers.vote {config : Config} {expected wire : Json} {votes : List Json}
    {signers signers' : List String} (h : Signers C config expected votes signers)
    (hvote : checkVote C config expected signers wire = .ok signers') :
    Signers C config expected (votes ++ [wire]) signers' := by
  simp only [checkVote, bind_ok, require_ok, pure_ok] at hvote
  obtain ⟨⟨payload, key⟩, hsigned, -, ⟨hvalidator, hpayload⟩, -, hnew, rfl⟩ := hvote
  refine ⟨List.nodup_append.mpr ⟨h.nodup, by simp, ?_⟩, fun k hk => ?_⟩
  · rintro a ha b hb rfl
    exact hnew (List.mem_singleton.mp hb ▸ ha)
  · rcases List.mem_append.mp hk with hk | hk
    · obtain ⟨hk, wire', hwire', hrest⟩ := h.signed k hk
      exact ⟨hk, wire', by simp [hwire'], hrest⟩
    · obtain rfl := List.mem_singleton.mp hk
      exact ⟨hvalidator, wire, by simp, payload, hsigned, hpayload⟩

theorem Certified.signers {chain : Chain} {certificate proposal : Json} {next : RulesState}
    (h : Certified C chain certificate proposal next) :
    ∃ votes signers, certificate.get? "votes" = some (.arr votes) ∧
      quorum chain.config ≤ signers.length ∧
      Signers C chain.config (approval chain.config.version chain.network (chain.height + 1)
        (C.sha256 proposal)) votes signers := by
  obtain ⟨votes, signers, hvotes, hfold, hquorum⟩ := h.approved
  have hempty : Signers C chain.config (approval chain.config.version chain.network
      (chain.height + 1) (C.sha256 proposal)) [] [] := ⟨.nil, by simp⟩
  exact ⟨votes, signers, hvotes, hquorum,
    foldlM_ok_induction (Signers C chain.config _) (fun _ _ _ _ hs hvote => hs.vote hvote)
      votes [] [] signers hempty hfold⟩

/-! ### The invariant -/

/-- A first vote for a block at a height of a network. -/
structure Cast.For (C : Codec) (cast : Cast) (network : String) (height : Nat)
    (hash : String) : Prop where
  network : cast.chain.network = network
  height : cast.chain.height + 1 = height
  hash : C.sha256 cast.proposal = hash

theorem castFor_of_pyEq {cast : Cast} {version network : String} {height : Nat} {hash : String}
    (h : (cast.approval C).pyEq (approval version network height hash) = true) :
    cast.For C network height hash := by
  have hfield : ∀ field text, (cast.approval C).get? field = some (.str text) →
      (approval version network height hash).get? field = some (.str text) := by
    intro field text hget
    obtain ⟨w, hw, heq⟩ := Json.pyEq_get? h hget
    rwa [Json.pyEq_str_left heq] at hw
  have hheight : (cast.approval C).get? "height" = some (.int (cast.chain.height + 1)) := by
    simp [Cast.approval, approval]
  obtain ⟨w, hw, heq⟩ := Json.pyEq_get? h hheight
  obtain rfl : (.int height) = w := by
    simpa [approval] using hw
  have hsame : (cast.chain.height : ℚ) + 1 = height := by
    simpa [Json.pyEq, Json.number?] using heq
  have hnet := hfield "network" cast.chain.network (by simp [Cast.approval, approval])
  have hdigest := hfield "hash" (C.sha256 cast.proposal) (by simp [Cast.approval, approval])
  simp only [approval, Json.get?_object_cons] at hnet hdigest
  exact ⟨by simpa using hnet.symm, by exact_mod_cast hsame, by simpa using hdigest.symm⟩

/-- A quorum of validators stands behind a block, and the correct ones among
them have cast their vote for it. -/
def Backed (C : Codec) (correct : String → Prop) (casts : List Cast) (config : Config)
    (height : Nat) (hash : String) : Prop :=
  ∃ signers : Finset String, signers ⊆ config.validatorKeys.toFinset ∧
    quorum config ≤ signers.card ∧
    ∀ key ∈ signers, correct key →
      ∃ cast ∈ casts, cast.voter = key ∧ cast.For C (network C config) height hash

theorem Backed.mono {correct : String → Prop} {casts casts' : List Cast} {config : Config}
    {height : Nat} {hash : String} (h : Backed C correct casts config height hash)
    (hsub : casts ⊆ casts') : Backed C correct casts' config height hash := by
  obtain ⟨signers, hsigners, hquorum, hcasts⟩ := h
  refine ⟨signers, hsigners, hquorum, fun key hkey hcorrect => ?_⟩
  obtain ⟨cast, hcast, hrest⟩ := hcasts key hkey hcorrect
  exact ⟨cast, hsub hcast, hrest⟩

/-- **The invariant of a system.**  Every ledger is recoverable, every approval
comes from a first vote that its voter's tables lock and that was cast within
the rules, and every stored block is backed. -/
structure System.Sound (C : Codec) (correct : String → Prop) (s : System) : Prop where
  recovers : ∀ key, correct key → (s.process key).Recovers C
  approvals : ∀ key payload, (key, payload) ∈ s.signed →
    ∀ version network height hash, payload.pyEq (approval version network height hash) = true →
      ∃ cast ∈ s.casts, cast.voter = key ∧ payload = cast.approval C
  locked : ∀ cast ∈ s.casts, ∃ row, row.hash = C.sha256 cast.proposal ∧
    (s.process cast.voter).db.votes.get? (cast.chain.height + 1) = some row
  admitted : ∀ cast ∈ s.casts, correct cast.voter ∧ cast.Admitted C
  backed : ∀ key, correct key → ∀ chain, Follows C (s.process key).db chain →
    ∀ height block, (s.process key).db.blocks.get? height = some block →
      Backed C correct s.casts chain.config height block.hash

theorem System.Initial.sound {correct : String → Prop} {s : System} (h : s.Initial) :
    s.Sound C correct where
  recovers key _ := by
    obtain ⟨db, hprocess, hfresh, -⟩ := h.tables key
    rw [hprocess]
    exact hfresh.recovers
  approvals key payload hmem := by
    rw [h.signed] at hmem
    cases hmem
  locked cast hmem := by
    rw [h.casts] at hmem
    cases hmem
  admitted cast hmem := by
    rw [h.casts] at hmem
    cases hmem
  backed key _ chain _ height block hget := by
    obtain ⟨db, hprocess, hfresh, -⟩ := h.tables key
    have hmem := Dict.get?_eq_some_iff.mp hget
    rw [hprocess] at hmem
    simp only [Process.db, hfresh.blocks] at hmem
    cases hmem

/-- **A verified certificate is backed.**  The votes of correct keys are
authentic, so each was cast. -/
theorem System.Sound.certified {correct : String → Prop} {s : System} (h : s.Sound C correct)
    {chain : Chain} {certificate proposal : Json} {next : RulesState} {height : Nat}
    {hash : String} (hnetwork : chain.network = network C chain.config)
    (hcertified : Certified C chain certificate proposal next)
    (hauthentic : Authentic C correct s.signed certificate)
    (hheight : chain.height + 1 = height) (hhash : C.sha256 proposal = hash) :
    Backed C correct s.casts chain.config height hash := by
  obtain ⟨votes, signers, hvotes, hquorum, hsigners⟩ := hcertified.signers
  refine ⟨signers.toFinset, ?_, ?_, fun key hkey hcorrect => ?_⟩
  · intro key hkey
    exact List.mem_toFinset.mpr (hsigners.signed key (List.mem_toFinset.mp hkey)).1
  · rw [List.toFinset_card_of_nodup hsigners.nodup]
    exact hquorum
  · obtain ⟨-, wire, hwire, payload, hsigned, hpayload⟩ :=
      hsigners.signed key (List.mem_toFinset.mp hkey)
    obtain ⟨hdict, hkey', sig, hsig, hverifies⟩ := signature_ok hsigned
    have hwithin : Json.Within wire certificate := Json.within_get? hvotes (.item hwire .here)
    have hmem := hauthentic wire key sig payload hwithin hcorrect hkey' hsig hdict hverifies
    obtain ⟨cast, hcast, hvoter, rfl⟩ := h.approvals key payload hmem _ _ _ _ hpayload
    have hfor := castFor_of_pyEq hpayload
    exact ⟨cast, hcast, hvoter, hfor.network.trans hnetwork, hfor.height.trans hheight,
      hfor.hash.trans hhash⟩

/-! ### Steps keep the invariant -/

section Step

variable {correct : String → Prop} {s : System} {key : String} {label : Label} {q : Process}

theorem Effected.locks (h : Effected C key (s.process key) label q) {height : Nat}
    {row : VoteRow} (hget : (s.process key).db.votes.get? height = some row) :
    q.db.votes.get? height = some row := by
  cases h with
  | quiet blocks manifest votes => rw [votes, hget]
  | appended tables follows staged => rw [staged.others.2.2.1, tables, hget]
  | voted blocks manifest first votes =>
    rw [votes, Dict.get?_set_ne, hget]
    rintro rfl
    rw [first] at hget
    cases hget

theorem Effected.backed (h : Effected C key (s.process key) label q) (hs : s.Sound C correct)
    (hcorrect : correct key) (hauthentic : label.Authentic C correct s.signed) {chain : Chain}
    (hfollows : Follows C q.db chain) {height : Nat} {block : Block}
    (hget : q.db.blocks.get? height = some block) :
    Backed C correct s.casts chain.config height block.hash := by
  cases h with
  | quiet blocks manifest votes =>
    rcases manifest with manifest | ⟨-, empty⟩
    · exact hs.backed key hcorrect chain (hfollows.congr manifest.symm blocks.symm) height block
        (blocks ▸ hget)
    · have hmem := Dict.get?_eq_some_iff.mp hget
      rw [blocks, empty] at hmem
      cases hmem
  | voted blocks manifest first votes =>
    exact hs.backed key hcorrect chain (hfollows.congr manifest.symm blocks.symm) height block
      (blocks ▸ hget)
  | @appended _ ledger certificate proposal before chain' tables follows staged published =>
    have hconfig : chain.config = before.config :=
      follows.config_unique hfollows (staged.others.1.trans (congrArg _ tables))
    rw [staged.stored, Dict.get?_set] at hget
    by_cases hheight : height = before.height + 1
    · rw [if_pos hheight] at hget
      obtain rfl := Option.some.inj hget
      rw [hconfig]
      exact hs.certified follows.history.config_eq.2 staged.certified hauthentic hheight.symm rfl
    · rw [if_neg hheight, tables] at hget
      rw [hconfig]
      exact hs.backed key hcorrect before follows height block hget

theorem Effected.approvals (h : Effected C key (s.process key) label q) (hs : s.Sound C correct)
    {k : String} {payload : Json} (hmem : (k, payload) ∈ (s.advance C key label q).signed)
    {version network : String} {height : Nat} {hash : String}
    (hpayload : payload.pyEq (approval version network height hash) = true) :
    ∃ cast ∈ (s.advance C key label q).casts, cast.voter = k ∧ payload = cast.approval C := by
  rcases List.mem_append.mp hmem with hold | hnew
  · obtain ⟨cast, hcast, hrest⟩ := hs.approvals k payload hold version network height hash hpayload
    exact ⟨cast, List.mem_append_left _ hcast, hrest⟩
  · cases h with
    | quiet blocks manifest votes uncast intents unsigned =>
      have hno := unsigned _ hnew version network height hash
      rw [hpayload] at hno
      cases hno
    | appended => cases hnew
    | @voted _ chain proposal now =>
      obtain ⟨rfl, rfl⟩ := Prod.mk.inj (List.mem_singleton.mp hnew)
      exact ⟨{ voter := k, chain, proposal, now }, List.mem_append_right _ (by simp [Label.casts]),
        rfl, rfl⟩

theorem Effected.cast (h : Effected C key (s.process key) label q) {cast : Cast}
    (hmem : cast ∈ label.casts key) :
    cast.voter = key ∧ cast.Admitted C ∧ ∃ row, row.hash = C.sha256 cast.proposal ∧
      q.db.votes.get? (cast.chain.height + 1) = some row := by
  cases h with
  | quiet blocks manifest votes uncast => simp [uncast] at hmem
  | appended => cases hmem
  | voted blocks manifest first votes hash admitted =>
    obtain rfl := List.mem_singleton.mp hmem
    exact ⟨rfl, admitted, _, hash, by simp [votes]⟩

theorem Effected.locked (h : Effected C key (s.process key) label q) (hs : s.Sound C correct)
    {cast : Cast} (hmem : cast ∈ (s.advance C key label q).casts) :
    ∃ row, row.hash = C.sha256 cast.proposal ∧
      ((s.advance C key label q).process cast.voter).db.votes.get? (cast.chain.height + 1) =
        some row := by
  rcases List.mem_append.mp hmem with hold | hnew
  · obtain ⟨row, hrow, hget⟩ := hs.locked cast hold
    refine ⟨row, hrow, ?_⟩
    by_cases hkey : cast.voter = key
    · rw [hkey] at hget ⊢
      rw [System.advance_self]
      exact h.locks hget
    · rw [System.advance_of_ne s label q hkey, hget]
  · obtain ⟨hvoter, -, row, hrow, hget⟩ := h.cast hnew
    exact ⟨row, hrow, by rw [hvoter, System.advance_self, hget]⟩

end Step

/-- **A step keeps the invariant.** -/
theorem SystemStep.sound (hinj : Function.Injective C.sha256) {correct : String → Prop}
    {s s' : System} (hs : s.Sound C correct) (hstep : SystemStep C correct s s') :
    s'.Sound C correct := by
  cases hstep with
  | @step key label q known authentic next =>
    have heffect := next.effect hinj (hs.recovers key known)
    refine ⟨fun k hk => ?_, fun k payload hmem version network height hash hpayload => ?_,
      fun cast hmem => ?_, fun cast hmem => ?_, fun k hk chain hfollows height block hget => ?_⟩
    · by_cases hkey : k = key
      · subst hkey
        rw [System.advance_self]
        exact next.recovers hinj (hs.recovers k known)
      · rw [System.advance_of_ne s label q hkey]
        exact hs.recovers k hk
    · exact heffect.approvals hs hmem hpayload
    · exact heffect.locked hs hmem
    · rcases List.mem_append.mp hmem with hold | hnew
      · exact hs.admitted cast hold
      · obtain ⟨hvoter, hadmitted, -⟩ := heffect.cast hnew
        exact ⟨hvoter ▸ known, hadmitted⟩
    · have hsub : s.casts ⊆ (s.advance C key label q).casts := List.subset_append_left _ _
      refine Backed.mono ?_ hsub
      by_cases hkey : k = key
      · subst hkey
        rw [System.advance_self] at hfollows hget
        exact heffect.backed hs known authentic hfollows hget
      · rw [System.advance_of_ne s label q hkey] at hfollows hget
        exact hs.backed k hk chain hfollows height block hget

theorem Reaches.sound (hinj : Function.Injective C.sha256) {correct : String → Prop}
    {s s' : System} (hs : s.Sound C correct) (h : Reaches C correct s s') : s'.Sound C correct := by
  induction h with
  | refl => exact hs
  | tail _ hstep ih => exact hstep.sound hinj ih

/-- First votes are never taken back. -/
theorem Reaches.casts_subset {correct : String → Prop} {s s' : System}
    (h : Reaches C correct s s') : s.casts ⊆ s'.casts := by
  induction h with
  | refl => exact fun _ h => h
  | tail _ hstep ih =>
    cases hstep with
    | step => exact fun cast hcast => List.mem_append_left _ (ih hcast)

end Exchange
