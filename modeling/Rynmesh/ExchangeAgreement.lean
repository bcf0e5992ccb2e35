import Rynmesh.ExchangeNetwork

/-!
# Correct ledgers agree

* `History.unique` — histories of one network with the same hashes are the same
  chain, state included;
* `Backed.unique` — two quorums share a correct validator, whose tables lock
  one proposal a height;
* `ledgers_agree` — no two correct ledgers ever hold different blocks at one
  height.
-/

namespace Exchange

open Checked

variable {C : Codec}

/-! ### Histories with the same hashes -/

variable {chain : Chain}

theorem Certified.unique {certificate certificate' proposal : Json} {next next' : RulesState}
    (h : Certified C chain certificate proposal next)
    (h' : Certified C chain certificate' proposal next') : next = next' :=
  Except.ok.inj (h.checked.symm.trans h'.checked)

theorem replayBlock_unique (hinj : Function.Injective C.sha256) {next next' : Chain}
    {row row' : Nat × Block} (h : replayBlock C chain row = .ok next)
    (h' : replayBlock C chain row' = .ok next') (hhash : row.2.hash = row'.2.hash) :
    next = next' := by
  obtain ⟨state, proposal, hverify, hproposal, hheight, hdigest, rfl⟩ := replayBlock_ok.mp h
  obtain ⟨state', proposal', hverify', hproposal', hheight', hdigest', rfl⟩ :=
    replayBlock_ok.mp h'
  have hsame : proposal = proposal' := hinj (hdigest.symm.trans (hhash.trans hdigest'))
  obtain ⟨p, hcertified⟩ := verify_ok hverify
  obtain rfl : proposal = p := Option.mem_unique hproposal hcertified.carries
  obtain ⟨p', hcertified'⟩ := verify_ok hverify'
  obtain rfl : proposal' = p' := Option.mem_unique hproposal' hcertified'.carries
  subst hsame
  rw [hcertified.unique hcertified', hheight, hheight', hhash]

/-- **Histories with the same hashes are the same chain.** -/
theorem History.unique (hinj : Function.Injective C.sha256) {config : Config}
    {rows : List (Nat × Block)} (h : History C config rows chain) :
    ∀ {rows' chain'}, History C config rows' chain' →
      rows.map (·.2.hash) = rows'.map (·.2.hash) → chain = chain' := by
  induction h with
  | start =>
    intro rows' chain' h' hhash
    cases h' with
    | start => rfl
    | block before replayed => simp at hhash
  | block before replayed ih =>
    intro rows' chain' h' hhash
    cases h' with
    | start => simp at hhash
    | block before' replayed' =>
      simp only [List.map_append, List.map_cons, List.map_nil] at hhash
      obtain ⟨hrows, hrow⟩ := List.append_inj' hhash rfl
      obtain rfl := ih before' hrows
      exact replayBlock_unique hinj replayed replayed' (List.singleton_inj.mp hrow)

/-! ### Few faulty validators -/

/-- At most a third of the validators, less one, are not correct. -/
def FewFaulty (correct : String → Prop) [DecidablePred correct] (config : Config) : Prop :=
  (config.validatorKeys.toFinset.filter fun key => ¬ correct key).card ≤
    (config.validators.length - 1) / 3

theorem Config.card_validatorKeys (config : Config) :
    config.validatorKeys.toFinset.card = config.validators.length := by
  rw [Config.validatorKeys, List.toFinset_card_of_nodup config.validators_nodup, List.length_map]

theorem FewFaulty.overlapping {correct : String → Prop} [DecidablePred correct] {config : Config}
    (h : FewFaulty correct config) :
    Quorum.Overlapping config.validatorKeys.toFinset (fun key => ¬ correct key)
      (quorum config) := by
  have hsize := config.validators_size
  have hcard := config.card_validatorKeys
  have hquorum : Quorum.Overlapping config.validatorKeys.toFinset (fun key => ¬ correct key)
      (config.validatorKeys.toFinset.card * 2 / 3 + 1) :=
    Quorum.overlapping_two_thirds (by omega) (by rw [hcard]; exact h)
  rwa [hcard] at hquorum

section Locks

variable {correct : String → Prop} {s : System}

theorem System.Sound.vote_unique (h : s.Sound C correct) {cast cast' : Cast}
    (hcast : cast ∈ s.casts) (hcast' : cast' ∈ s.casts) (hvoter : cast.voter = cast'.voter)
    (hheight : cast.chain.height = cast'.chain.height) :
    C.sha256 cast.proposal = C.sha256 cast'.proposal := by
  obtain ⟨row, hrow, hget⟩ := h.locked cast hcast
  obtain ⟨row', hrow', hget'⟩ := h.locked cast' hcast'
  rw [hvoter, hheight, hget'] at hget
  rw [← hrow, ← hrow', Option.some.inj hget]

/-- **One block a height is backed.** -/
theorem Backed.unique [DecidablePred correct] (h : s.Sound C correct) {config : Config}
    (hfew : FewFaulty correct config) {height : Nat} {hash hash' : String}
    (hbacked : Backed C correct s.casts config height hash)
    (hbacked' : Backed C correct s.casts config height hash') : hash = hash' := by
  obtain ⟨signers, hsub, hquorum, hcasts⟩ := hbacked
  obtain ⟨signers', hsub', hquorum', hcasts'⟩ := hbacked'
  obtain ⟨key, hkey, hkey', hcorrect⟩ := hfew.overlapping.common hsub hsub' hquorum hquorum'
  obtain ⟨cast, hcast, rfl, hfor⟩ := hcasts key hkey (not_not.mp hcorrect)
  obtain ⟨cast', hcast', hvoter, hfor'⟩ := hcasts' cast.voter hkey' (not_not.mp hcorrect)
  have hheight : cast.chain.height = cast'.chain.height := by
    have := hfor.height
    have := hfor'.height
    omega
  calc hash = C.sha256 cast.proposal := hfor.hash.symm
    _ = C.sha256 cast'.proposal := h.vote_unique hcast hcast' hvoter.symm hheight
    _ = hash' := hfor'.hash

end Locks

/-- **A correct key never signs two blocks of a height**, over restarts and whatever the others do.
Each approval it signs is its first vote for a proposal that is admitted. -/
theorem never_equivocates (C : Codec) (hinj : Function.Injective C.sha256)
    (correct : String → Prop) {start s : System} (hstart : start.Initial)
    (hs : Reaches C correct start s) {key : String} {payload payload' : Json}
    (hsigned : (key, payload) ∈ s.signed) (hsigned' : (key, payload') ∈ s.signed)
    {version version' network network' hash hash' : String} {height : Nat}
    (h : payload.pyEq (approval version network height hash) = true)
    (h' : payload'.pyEq (approval version' network' height hash') = true) :
    hash = hash' ∧
      ∃ cast ∈ s.casts, cast.voter = key ∧ cast.For C network height hash ∧ cast.Admitted C := by
  have hsound : s.Sound C correct := hs.sound hinj hstart.sound
  obtain ⟨cast, hcast, hvoter, rfl⟩ := hsound.approvals key payload hsigned _ _ _ _ h
  obtain ⟨cast', hcast', hvoter', rfl⟩ := hsound.approvals key payload' hsigned' _ _ _ _ h'
  have hfor := castFor_of_pyEq h
  have hfor' := castFor_of_pyEq h'
  have hheight : cast.chain.height = cast'.chain.height :=
    Nat.succ.inj (hfor.height.trans hfor'.height.symm)
  have hhash := hsound.vote_unique hcast hcast' (hvoter.trans hvoter'.symm) hheight
  exact ⟨hfor.hash.symm.trans (hhash.trans hfor'.hash), cast, hcast, hvoter, hfor,
    (hsound.admitted cast hcast).2⟩

/-! ### Agreement -/

/-- The hashes of the stored blocks, in height order. -/
def Database.hashes (db : Database) : List String := db.ordered.map (·.2.hash)

theorem Follows.hashes_eq {db : Database} (h : Follows C db chain) :
    db.hashes = db.blocks.entries.map (·.2.hash) := by
  have hordered : db.ordered = db.blocks.entries := h.history.sorted
  rw [Database.hashes, hordered]

theorem Follows.hash_at {db : Database} (h : Follows C db chain) {i : Nat} {hash : String}
    (hget : db.hashes[i]? = some hash) :
    ∃ block, db.blocks.get? (i + 1) = some block ∧ block.hash = hash := by
  rw [h.hashes_eq, List.getElem?_map, Option.map_eq_some_iff] at hget
  obtain ⟨⟨height, block⟩, hrow, rfl⟩ := hget
  have hheight : (db.blocks.entries.map Prod.fst)[i]? = some height := by
    rw [List.getElem?_map, hrow]
    rfl
  obtain rfl : i + 1 = height := by
    rw [h.history.heights, List.getElem?_eq_some_iff] at hheight
    obtain ⟨_, hvalue⟩ := hheight
    rw [List.getElem_range'] at hvalue
    omega
  exact ⟨block, Dict.get?_eq_some_iff.mpr (List.mem_of_getElem? hrow), rfl⟩

theorem Follows.hashes_length {db : Database} (h : Follows C db chain) :
    db.hashes.length = chain.height := by
  rw [h.hashes_eq, List.length_map, h.history.length_eq]

/-- Lists that agree wherever both are defined extend one another. -/
theorem prefix_or_prefix {α : Type*} {l l' : List α}
    (h : ∀ (i : Nat) (x y : α), l[i]? = some x → l'[i]? = some y → x = y) :
    l <+: l' ∨ l' <+: l := by
  have hle : ∀ {a b : List α}, (∀ (i : Nat) (x y : α), a[i]? = some x → b[i]? = some y → x = y) →
      a.length ≤ b.length → a <+: b := by
    intro a b hab hlen
    rw [List.prefix_iff_eq_take]
    refine List.ext_getElem (by simp [hlen]) fun i hi hi' => ?_
    have hib : i < b.length := lt_of_lt_of_le hi hlen
    rw [List.getElem_take]
    exact hab i _ _ (List.getElem?_eq_getElem hi) (List.getElem?_eq_getElem hib)
  rcases le_total l.length l'.length with hlen | hlen
  · exact .inl (hle h hlen)
  · exact .inr (hle (fun i x y hx hy => (h i y x hy hx).symm) hlen)

/-- **Correct ledgers agree.**  Take any run of the correct ledgers against an
adversary who holds at most a third of the validators, less one.  The ledgers
of two correct keys on one network, each at any moment of the run,

* hold the same block wherever both hold one;
* are prefixes of one another;
* have the same chain, state included, at the same height. -/
theorem ledgers_agree (C : Codec) (hinj : Function.Injective C.sha256) (correct : String → Prop)
    [DecidablePred correct] {start s s' : System} (hstart : start.Initial)
    (hs : Reaches C correct start s) (hs' : Reaches C correct s s') {key key' : String}
    (hkey : correct key) (hkey' : correct key') {chain chain' : Chain}
    (hchain : (s.process key).chain? C = some chain)
    (hchain' : (s'.process key').chain? C = some chain')
    (hnetwork : chain.network = chain'.network) (hfew : FewFaulty correct chain.config) :
    (∀ height block block', (s.process key).db.blocks.get? height = some block →
      (s'.process key').db.blocks.get? height = some block' → block.hash = block'.hash) ∧
    ((s.process key).db.hashes <+: (s'.process key').db.hashes ∨
      (s'.process key').db.hashes <+: (s.process key).db.hashes) ∧
    (chain.height = chain'.height → chain = chain') := by
  have hsound : s.Sound C correct := hs.sound hinj hstart.sound
  have hsound' : s'.Sound C correct := hs'.sound hinj hsound
  have hfollows := (hsound.recovers key hkey).follows hchain
  have hfollows' := (hsound'.recovers key' hkey').follows hchain'
  have hconfig : chain.config = chain'.config := by
    refine hfollows.accepted.eq_of_network hinj hfollows'.accepted ?_
    rw [← hfollows.history.config_eq.2, ← hfollows'.history.config_eq.2, hnetwork]
  have hblocks : ∀ height block block', (s.process key).db.blocks.get? height = some block →
      (s'.process key').db.blocks.get? height = some block' → block.hash = block'.hash := by
    intro height block block' hget hget'
    have hbacked := (hsound.backed key hkey chain hfollows height block hget).mono
      hs'.casts_subset
    have hbacked' := hsound'.backed key' hkey' chain' hfollows' height block' hget'
    rw [← hconfig] at hbacked'
    exact hbacked.unique hsound' hfew hbacked'
  have hfront : (s.process key).db.hashes <+: (s'.process key').db.hashes ∨
      (s'.process key').db.hashes <+: (s.process key).db.hashes := by
    refine prefix_or_prefix fun i hash hash' hget hget' => ?_
    obtain ⟨block, hblock, rfl⟩ := hfollows.hash_at hget
    obtain ⟨block', hblock', rfl⟩ := hfollows'.hash_at hget'
    exact hblocks (i + 1) block block' hblock hblock'
  refine ⟨hblocks, hfront, fun hheight => ?_⟩
  have hlength : (s.process key).db.hashes.length = (s'.process key').db.hashes.length := by
    rw [hfollows.hashes_length, hfollows'.hashes_length, hheight]
  have hsame : (s.process key).db.hashes = (s'.process key').db.hashes := by
    rcases hfront with h | h
    · exact h.eq_of_length hlength
    · exact (h.eq_of_length hlength.symm).symm
  rw [hfollows.hashes_eq, hfollows'.hashes_eq] at hsame
  exact hfollows.history.unique hinj (hconfig ▸ hfollows'.history) hsame

/-! ### A system for examples -/

/-- The keys that run a ledger in the sample system: three of the validators
and an onlooker.  The leader of the first height is not among them. -/
def sampleCorrect (key : String) : Prop := key ∈ ['E', 'I', 'M', 'Y'].map sampleKey

instance : DecidablePred sampleCorrect := fun key =>
  inferInstanceAs (Decidable (key ∈ ['E', 'I', 'M', 'Y'].map sampleKey))

theorem sample_fewFaulty : FewFaulty sampleCorrect sampleConfig := by
  have hlength : sampleConfig.validators.length = 4 := by
    rw [← List.length_map (f := (·.peerId))]
    exact congrArg List.length sampleConfig_validatorKeys
  unfold FewFaulty
  rw [sampleConfig_validatorKeys, hlength]
  decide +kernel

section Sample

variable {correct : String → Prop}

theorem Reaches.configured {configured : Ledger} {manifest : Json}
    (h : configure C ⟨.new, none⟩ manifest = .ok configured) (keys : List String) :
    ∀ s : System, keys.Nodup → (∀ key ∈ keys, correct key ∧ s.process key = .stopped .new) →
      ∃ s', Reaches C correct s s' ∧ ∀ key ∈ keys, s'.process key = .running configured := by
  suffices hall : ∀ s : System, keys.Nodup →
      (∀ key ∈ keys, correct key ∧ s.process key = .stopped .new) →
      ∃ s', Reaches C correct s s' ∧ (∀ key ∈ keys, s'.process key = .running configured) ∧
        ∀ key ∉ keys, s'.process key = s.process key by
    intro s hnodup hkeys
    obtain ⟨s', hs', hrunning, -⟩ := hall s hnodup hkeys
    exact ⟨s', hs', hrunning⟩
  induction keys with
  | nil =>
    intro s _ _
    exact ⟨s, .refl, by simp, fun _ _ => rfl⟩
  | cons key rest ih =>
    intro s hnodup hkeys
    obtain ⟨hkey, hrest⟩ := List.nodup_cons.mp hnodup
    obtain ⟨known, hnew⟩ := hkeys key (by simp)
    have hopen : ProcessStep C key (s.process key) .silent (.running ⟨.new, none⟩) := by
      rw [hnew]
      exact .reopen rfl
    let opened := s.advance C key .silent (.running ⟨.new, none⟩)
    have hconfigure : ProcessStep C key (opened.process key) .silent (.running configured) := by
      rw [System.advance_self]
      exact .configure h
    let next := opened.advance C key .silent (.running configured)
    have hnext : ∀ k ≠ key, next.process k = s.process k := by
      intro k hk
      rw [System.advance_of_ne _ _ _ hk, System.advance_of_ne _ _ _ hk]
    obtain ⟨s', hs', hrunning, hother⟩ := ih next hrest fun k hk => by
      rw [hnext k (by rintro rfl; exact hkey hk)]
      exact hkeys k (.tail _ hk)
    refine ⟨s', .trans (.tail (.single (.step known (by exact trivial) hopen))
      (.step known (by exact trivial) hconfigure)) hs', ?_, ?_⟩
    · intro k hk
      rcases List.mem_cons.mp hk with rfl | hk
      · rw [hother k hkey, System.advance_self]
      · exact hrunning k hk
    · intro k hk
      rw [hother k fun hmem => hk (.tail _ hmem),
        hnext k (by rintro rfl; exact hk (by simp))]

theorem Reaches.voted {ledger : Ledger} {proposal : Json} {now size : Int}
    (hchain : ledger.chain = some chain) (hfirst : ledger.db.votes.get? (chain.height + 1) = none)
    (keys : List String) :
    ∀ s : System, keys.Nodup → (∀ key ∈ keys, correct key ∧ s.process key = .running ledger ∧
        ∃ db wire, vote C key now size ledger proposal = .ok (db, wire)) →
      ∃ s', Reaches C correct s s' ∧ s.signed ⊆ s'.signed ∧
        (∀ key ∈ keys, (key, approval VERSION chain.network (chain.height + 1)
          (C.sha256 proposal)) ∈ s'.signed) ∧
        ∀ key ∉ keys, s'.process key = s.process key := by
  induction keys with
  | nil =>
    intro s _ _
    exact ⟨s, .refl, fun _ h => h, by simp, fun _ _ => rfl⟩
  | cons key rest ih =>
    intro s hnodup hkeys
    obtain ⟨hkey, hrest⟩ := List.nodup_cons.mp hnodup
    obtain ⟨known, hrunning, db, wire, hvote⟩ := hkeys key (by simp)
    have hstep : ProcessStep C key (s.process key) (.cast chain proposal now)
        (.running { ledger with db }) := by
      rw [hrunning]
      exact .vote hchain hfirst hvote
    let next := s.advance C key (.cast chain proposal now) (.running { ledger with db })
    have hnext : ∀ k ≠ key, next.process k = s.process k :=
      fun k hk => System.advance_of_ne _ _ _ hk
    obtain ⟨s', hs', hsub, hsigned, hother⟩ := ih next hrest fun k hk => by
      rw [hnext k (by rintro rfl; exact hkey hk)]
      exact hkeys k (.tail _ hk)
    refine ⟨s', .head (.step known (by exact trivial) hstep) hs',
      List.Subset.trans (List.subset_append_left _ _) hsub, ?_, ?_⟩
    · intro k hk
      rcases List.mem_cons.mp hk with rfl | hk
      · exact hsub (List.mem_append_right _ (List.mem_singleton.mpr rfl))
      · exact hsigned k hk
    · intro k hk
      rw [hother k fun hmem => hk (.tail _ hmem),
        hnext k (by rintro rfl; exact hk (by simp))]

theorem Reaches.committed {ledger ledger' : Ledger} {certificate : Json}
    (h : commit C ledger certificate = .ok ledger') (keys : List String) :
    ∀ s : System, keys.Nodup → (∀ key ∈ keys, correct key ∧ s.process key = .running ledger) →
      Authentic C correct s.signed certificate →
      ∃ s', Reaches C correct s s' ∧ (∀ key ∈ keys, s'.process key = .running ledger') ∧
        ∀ key ∉ keys, s'.process key = s.process key := by
  induction keys with
  | nil =>
    intro s _ _ _
    exact ⟨s, .refl, by simp, fun _ _ => rfl⟩
  | cons key rest ih =>
    intro s hnodup hkeys hauthentic
    obtain ⟨hkey, hrest⟩ := List.nodup_cons.mp hnodup
    obtain ⟨known, hrunning⟩ := hkeys key (by simp)
    have hstep : ProcessStep C key (s.process key) (.deliver certificate)
        (.running ledger') := by
      rw [hrunning]
      exact .commit h
    let next := s.advance C key (.deliver certificate) (.running ledger')
    have hnext : ∀ k ≠ key, next.process k = s.process k :=
      fun k hk => System.advance_of_ne _ _ _ hk
    have hsigned : next.signed = s.signed := by simp [next, System.advance, Label.signs]
    obtain ⟨s', hs', hdone, hother⟩ := ih next hrest (fun k hk => by
        rw [hnext k (by rintro rfl; exact hkey hk)]
        exact hkeys k (.tail _ hk))
      (hsigned ▸ hauthentic)
    refine ⟨s', .head (.step known (by exact hauthentic) hstep) hs', ?_, ?_⟩
    · intro k hk
      rcases List.mem_cons.mp hk with rfl | hk
      · rw [hother k hkey, System.advance_self]
      · exact hdone k hk
    · intro k hk
      rw [hother k fun hmem => hk (.tail _ hmem),
        hnext k (by rintro rfl; exact hk (by simp))]

end Sample

theorem sampleCertificate_authentic {signed : List (String × Json)}
    (h : ∀ voter ∈ ['E', 'I'], (sampleKey voter, approval VERSION (network .sample sampleConfig) 1
      (Codec.sample.sha256 (sampleProposal .sample (sampleProfile .sample 'Q')))) ∈ signed) :
    Authentic .sample sampleCorrect signed (sampleCertificate 'Q' ['A', 'E', 'I']) := by
  intro wire key sig payload hwithin hcorrect hkey hsig hpayload hverifies
  obtain ⟨voter, hvoter, rfl⟩ := List.mem_map.mp hcorrect
  obtain ⟨-, -, -, -, -, -, hsigners, -⟩ := sample_evaluates
  have hvote := List.all_eq_true.mp (List.all_eq_true.mp hsigners wire hwithin.mem_parts) voter
    hvoter
  obtain ⟨hvoted, hget⟩ := (of_decide_eq_true hvote).resolve_left (not_not.mpr hkey)
  rw [hget, Option.bind_some, approval, Json.object, Json.dict?] at hpayload
  exact Option.some.inj hpayload ▸ h voter hvoted

theorem vote_of {key : String} {now size : Int} {ledger : Ledger} {proposal : Json}
    {next : RulesState} (hrunning : ledger.chain = some chain)
    (hversion : chain.config.version = VERSION) (hvalidator : key ∈ chain.config.validatorKeys)
    (hchecked : checkProposal C chain proposal = .ok next)
    (hfirst : ledger.db.votes.get? (chain.height + 1) = none)
    (hadmitted : admitVote now size chain proposal = .ok ()) :
    ∃ db wire, vote C key now size ledger proposal = .ok (db, wire) := by
  simp [vote, writable, ready, demand, require, require_of hversion, require_of hvalidator,
    hrunning,
    hchecked, hfirst, hadmitted]

theorem sample_firstBlock : ∃ committed block chain,
    commit .sample sampleConfigured (sampleCertificate 'Q' ['A', 'E', 'I']) = .ok committed ∧
    committed.db.blocks.get? 1 = some block ∧ committed.chain = some chain ∧
    chain.config = sampleConfig ∧ ∃ next, checkProposal .sample (.start .sample sampleConfig)
      (sampleProposal .sample (sampleProfile .sample 'Q')) = .ok next := by
  obtain ⟨committed, block, hcommit, hblock, -⟩ := sampleLedgers_ok
  have hstaged := hcommit
  simp only [commit, bind_ok] at hstaged
  obtain ⟨staged, hstage, hdone⟩ := hstaged
  cases staged with
  | none =>
    obtain rfl := pure_ok.mp hdone
    cases hblock
  | some next =>
    obtain ⟨proposal, before, hstaged, -⟩ := stageCommit_ok hstage
    obtain rfl := Option.some.inj hstaged.running
    have hcarries := hstaged.certified.carries
    simp only [sampleCertificate, Json.get?_object_cons, if_true, Option.some.injEq] at hcarries
    obtain rfl := pure_ok.mp hdone
    refine ⟨_, block, next.2, hcommit, hblock, rfl, ?_, _, hcarries ▸ hstaged.certified.checked⟩
    rw [hstaged.published, Chain.start_config]

theorem sampleCorrect_of {letter : Char} (h : letter ∈ ['E', 'I', 'M', 'Y']) :
    sampleCorrect (sampleKey letter) :=
  List.mem_map_of_mem h

/-- A run of the sample system in which two correct validators vote for the
first block. -/
theorem sample_voted : ∃ start s, System.Initial start ∧ Reaches .sample sampleCorrect start s ∧
    (∀ letter ∈ ['M', 'Y'], s.process (sampleKey letter) = .running sampleConfigured) ∧
    ∀ letter ∈ ['E', 'I'], (sampleKey letter, approval VERSION (network .sample sampleConfig) 1
      (Codec.sample.sha256 (sampleProposal .sample (sampleProfile .sample 'Q')))) ∈ s.signed := by
  obtain ⟨-, -, -, -, -, -, -, next, hchecked⟩ := sample_firstBlock
  have hvote : ∀ letter ∈ ['E', 'I'], ∃ db wire, vote .sample (sampleKey letter) 1000 0
      sampleConfigured (sampleProposal .sample (sampleProfile .sample 'Q')) = .ok (db, wire) := by
    intro letter hletter
    have hvalidator : sampleKey letter ∈ sampleConfig.validatorKeys := by
      rw [sampleConfig_validatorKeys]
      exact List.mem_map_of_mem (by rcases List.mem_pair.mp hletter with rfl | rfl <;> simp)
    exact vote_of rfl (by rw [Chain.start_config]; exact sampleConfig_current)
      (by rw [Chain.start_config]; exact hvalidator) hchecked rfl sample_evaluates.2.2.2.1
  let start : System := ⟨fun _ => .stopped .new, [], []⟩
  have hstart : start.Initial := ⟨fun _ => ⟨.new, rfl, ⟨rfl, .inl rfl⟩, rfl⟩, rfl, rfl⟩
  obtain ⟨s, hs, hrunning⟩ := Reaches.configured configure_sample
    (['E', 'I', 'M', 'Y'].map sampleKey) start (by decide) fun key hkey => ⟨hkey, rfl⟩
  obtain ⟨t, ht, -, hsigned, hother⟩ := Reaches.voted rfl rfl (['E', 'I'].map sampleKey) s
    (by decide) fun key hkey => by
      obtain ⟨letter, hletter, rfl⟩ := List.mem_map.mp hkey
      have hmem : letter ∈ ['E', 'I', 'M', 'Y'] := by
        rcases List.mem_pair.mp hletter with rfl | rfl <;> simp
      exact ⟨sampleCorrect_of hmem, hrunning _ (List.mem_map_of_mem hmem), hvote letter hletter⟩
  refine ⟨start, t, hstart, hs.trans ht, fun letter hletter => ?_, fun letter hletter => ?_⟩
  · have hmem : letter ∈ ['E', 'I', 'M', 'Y'] ∧ sampleKey letter ∉ ['E', 'I'].map sampleKey := by
      rcases List.mem_pair.mp hletter with rfl | rfl <;> decide
    rw [hother _ hmem.2]
    exact hrunning _ (List.mem_map_of_mem hmem.1)
  · have hmem := hsigned _ (List.mem_map_of_mem hletter)
    simp only [Chain.start, zero_add] at hmem
    exact hmem

/-- What a correct validator of the sample system signs for the first height. -/
theorem never_equivocates_sample : ∃ s : System, ∃ hash,
    (sampleKey 'E', approval VERSION (network .sample sampleConfig) 1 hash) ∈ s.signed ∧
    ∀ hash', (sampleKey 'E', approval VERSION (network .sample sampleConfig) 1 hash') ∈ s.signed →
      hash' = hash := by
  obtain ⟨start, s, hstart, hs, -, hsigned⟩ := sample_voted
  have hmem := hsigned 'E' (by simp)
  have hself : ∀ hash, (approval VERSION (network .sample sampleConfig) 1 hash).pyEq
      (approval VERSION (network .sample sampleConfig) 1 hash) = true := fun hash => by
    simp only [approval, Json.object, Json.setField, Json.pyEq, Json.pyEqFields, Json.pyEqField,
      Json.number?, Dict.lookup, List.foldr, String.reduceLT, String.reduceEq, if_true, if_false]
    simp
  exact ⟨s, _, hmem, fun hash' hmem' => (never_equivocates .sample Codec.sample_injective
    sampleCorrect hstart hs hmem' hmem (hself hash') (hself _)).1⟩

/-- A run of the sample system in which a validator and an onlooker commit the
first block, which two correct validators voted for. -/
theorem sample_system : ∃ start s committed block chain, System.Initial start ∧
    Reaches .sample sampleCorrect start s ∧
    (∀ letter ∈ ['M', 'Y'], s.process (sampleKey letter) = .running committed) ∧
    committed.db.blocks.get? 1 = some block ∧ committed.chain = some chain ∧
    chain.config = sampleConfig := by
  obtain ⟨committed, block, chain, hcommit, hblock, hchain, hconfig, -⟩ := sample_firstBlock
  obtain ⟨start, t, hstart, ht, hrunning, hsigned⟩ := sample_voted
  obtain ⟨u, hu, hdone, -⟩ := Reaches.committed hcommit (['M', 'Y'].map sampleKey) t (by decide)
    (fun key hkey => by
      obtain ⟨letter, hletter, rfl⟩ := List.mem_map.mp hkey
      have hmem : letter ∈ ['E', 'I', 'M', 'Y'] := by
        rcases List.mem_pair.mp hletter with rfl | rfl <;> simp
      exact ⟨sampleCorrect_of hmem, hrunning letter hletter⟩)
    (sampleCertificate_authentic hsigned)
  exact ⟨start, u, committed, block, chain, hstart, ht.trans hu,
    fun letter hletter => hdone _ (List.mem_map_of_mem hletter), hblock, hchain, hconfig⟩

/-- Two ledgers of the sample system hold the same first block. -/
theorem ledgers_agree_sample : ∃ s : System, ∃ block,
    (s.process (sampleKey 'M')).db.blocks.get? 1 = some block ∧
    ∀ block', (s.process (sampleKey 'Y')).db.blocks.get? 1 = some block' →
      block.hash = block'.hash := by
  obtain ⟨start, s, committed, block, chain, hstart, hs, hdone, hblock, hchain, hconfig⟩ :=
    sample_system
  have hM := hdone 'M' (by simp)
  have hY := hdone 'Y' (by simp)
  have hcorrect : ∀ letter ∈ ['E', 'I', 'M', 'Y'], sampleCorrect (sampleKey letter) :=
    fun letter hletter => List.mem_map_of_mem hletter
  obtain ⟨hblocks, -, -⟩ := ledgers_agree .sample Codec.sample_injective sampleCorrect hstart
    hs .refl (hcorrect 'M' (by simp)) (hcorrect 'Y' (by simp)) (by rw [hM]; exact hchain)
    (by rw [hY]; exact hchain) rfl (hconfig ▸ sample_fewFaulty)
  have hget : (s.process (sampleKey 'M')).db.blocks.get? 1 = some block := by
    rw [hM]
    exact hblock
  exact ⟨s, block, hget, fun block' => hblocks 1 block block' hget⟩

end Exchange
