import Rynmesh.ManifestTotality

/-!
# Validation is sound

`InOrder` says what a manifest is that propagates, and `propagates_iff` that
`validateManifest` lets exactly these propagate: the loop over the receipts adds no error
exactly when the receipts are clean (`tally_clean`), and the checks of the chain add none
exactly when it backs the receipts (`chainErrors_eq_nil`).

`validation_sound` compares this with what propagation is meant to promise (`Sound`): an
empty clip id makes the chain's content id unchecked.
-/

namespace Manifests

open Checked Documents Provenance

variable {p : Platform} {now now' : String} {policy : SafetyPolicy} {clipId : String}

/-! ### Receipts -/

/-- A receipt that is counted without an error, when its scanner was not seen. -/
structure Fits (policy : SafetyPolicy) (clipId : String) (receipt : SafetyReceipt) : Prop where
  subject : receipt.subjectClipId = clipId
  trusted : policy.receiptTrusted receipt
  warning : receipt.outcome = .warn → policy.allowWarnings = true

/-- A receipt with its signature. -/
abbrev Read := SignedPayload × SafetyReceipt

/-- The receipts are counted without an error. -/
structure Clean (policy : SafetyPolicy) (clipId : String) (seen : List String)
    (reads : List Read) : Prop where
  fits : ∀ read ∈ reads, Fits policy clipId read.2
  distinct : (reads.map fun read => scannerKey read.1 read.2).Nodup
  fresh : ∀ read ∈ reads, scannerKey read.1 read.2 ∉ seen

theorem clean_cons {seen : List String} {read : Read} {rest : List Read} :
    Clean policy clipId seen (read :: rest) ↔
      (Fits policy clipId read.2 ∧ scannerKey read.1 read.2 ∉ seen) ∧
        Clean policy clipId (seen ++ [scannerKey read.1 read.2]) rest := by
  constructor
  · intro h
    have hdistinct := h.distinct
    rw [List.map_cons, List.nodup_cons] at hdistinct
    refine ⟨⟨h.fits read (.head _), h.fresh read (.head _)⟩,
      fun other hother => h.fits other (.tail _ hother), hdistinct.2,
      fun other hother hseen => ?_⟩
    rcases List.mem_append.mp hseen with hseen | hseen
    · exact h.fresh other (.tail _ hother) hseen
    · exact hdistinct.1 (List.mem_map.mpr ⟨other, hother, List.mem_singleton.mp hseen⟩)
  · rintro ⟨⟨hfits, hfresh⟩, hrest⟩
    refine ⟨?_, ?_, ?_⟩
    · intro other hother
      rcases List.mem_cons.mp hother with rfl | hother
      · exact hfits
      · exact hrest.fits other hother
    · rw [List.map_cons, List.nodup_cons]
      refine ⟨fun hmem => ?_, hrest.distinct⟩
      obtain ⟨other, hother, hsame⟩ := List.mem_map.mp hmem
      exact hrest.fresh other hother (List.mem_append_right _ (List.mem_singleton.mpr hsame))
    · intro other hother hseen
      rcases List.mem_cons.mp hother with rfl | hother
      · exact hfresh hseen
      · exact hrest.fresh other hother (List.mem_append_left _ hseen)

/-- How many receipts have an outcome. -/
def outcomes (outcome : SafetyOutcome) (reads : List Read) : Nat :=
  reads.countP fun read => read.2.outcome = outcome

/-- What a receipt that is counted changes. -/
structure Tally.Counts (tally next : Tally) (read : Read) : Prop where
  seen : next.seenScanners = tally.seenScanners ++ [scannerKey read.1 read.2]
  pass : next.passReceipts = tally.passReceipts + outcomes .pass [read]
  block : next.blockReceipts = tally.blockReceipts + outcomes .block [read]

theorem accept_errors (tally : Tally) (signed : SignedPayload) (receipt : SafetyReceipt) :
    (tally.accept policy clipId signed receipt).errors = [] ↔
      tally.errors = [] ∧ Fits policy clipId receipt ∧
        scannerKey signed receipt ∉ tally.seenScanners := by
  unfold Tally.accept
  by_cases hsubject : receipt.subjectClipId = clipId
  · rw [if_neg (not_not.mpr hsubject)]
    by_cases htrusted : policy.receiptTrusted receipt
    · rw [if_neg (not_not.mpr htrusted)]
      by_cases hseen : scannerKey signed receipt ∈ tally.seenScanners
      · simp [hseen, Tally.fail]
      rw [if_neg hseen]
      have hfits : (receipt.outcome = .warn → policy.allowWarnings = true) →
          Fits policy clipId receipt := fun hwarning => ⟨hsubject, htrusted, hwarning⟩
      cases houtcome : receipt.outcome with
      | warn =>
        by_cases hallow : policy.allowWarnings = true
        · simp [Tally.counted, hallow, hfits (fun _ => hallow), hseen]
        · have hnot : ¬ Fits policy clipId receipt := fun h => hallow (h.warning houtcome)
          simp [Tally.counted, hallow, hnot, Tally.fail]
      | pass | block => simp [Tally.counted, hfits (by simp [houtcome]), hseen]
    · rw [if_pos htrusted]
      have hnot : ¬ Fits policy clipId receipt := fun h => htrusted h.trusted
      simp [Tally.fail, hnot]
  · rw [if_pos hsubject]
    have hnot : ¬ Fits policy clipId receipt := fun h => hsubject h.subject
    simp [Tally.fail, hnot]

variable {signed : SignedPayload}

variable {tally : Tally}

theorem accept_counts {receipt : SafetyReceipt}
    (h : (tally.accept policy clipId signed receipt).errors = []) :
    tally.Counts (tally.accept policy clipId signed receipt) (signed, receipt) := by
  obtain ⟨_, hfits, hfresh⟩ := (accept_errors tally signed receipt).mp h
  unfold Tally.accept
  rw [if_neg (not_not.mpr hfits.subject), if_neg (not_not.mpr hfits.trusted), if_neg hfresh]
  cases houtcome : receipt.outcome with
  | warn =>
    have hallow := hfits.warning houtcome
    constructor <;> simp [Tally.counted, hallow, outcomes, houtcome]
  | pass | block => constructor <;> simp [Tally.counted, outcomes, houtcome]

theorem fail_errors (tally : Tally) (error : String) : (tally.fail error).errors ≠ [] := by
  simp [Tally.fail]

variable {raw : Mapping}

/-- A turn adds a receipt that is read, or an error. -/
theorem turn_cases {next : Tally} (h : tally.turn p now policy clipId raw = .ok next) :
    (∃ read, readReceipt p now raw = .ok read ∧
      next = tally.accept policy clipId read.1 read.2) ∨
    ∃ fault error, readReceipt p now raw = .error fault ∧ next = tally.fail error := by
  unfold Tally.turn at h
  cases hread : readReceipt p now raw with
  | ok read =>
    rw [hread] at h
    exact Or.inl ⟨read, rfl, (Except.ok.inj h).symm⟩
  | error fault =>
    rw [hread] at h
    by_cases hoverflow : fault.isOverflow = true
    · simp [hoverflow] at h
    · simp only [hoverflow, if_false, Bool.false_eq_true, Except.ok.injEq] at h
      exact Or.inr ⟨fault, _, rfl, h.symm⟩

theorem turn_errors {next : Tally} (h : tally.turn p now policy clipId raw = .ok next) :
    next.errors = [] ↔ tally.errors = [] ∧ ∃ read, readReceipt p now raw = .ok read ∧
      Fits policy clipId read.2 ∧ scannerKey read.1 read.2 ∉ tally.seenScanners := by
  rcases turn_cases h with ⟨read, hread, rfl⟩ | ⟨fault, error, hread, rfl⟩
  · rw [accept_errors]
    simp [hread]
  · simp [fail_errors, hread]

theorem turn_counts {next : Tally} {read : Read} (h : tally.turn p now policy clipId raw = .ok next)
    (hread : readReceipt p now raw = .ok read) (hclean : next.errors = []) :
    tally.Counts next read := by
  unfold Tally.turn at h
  rw [hread] at h
  have heq := Except.ok.inj h
  rw [← heq] at hclean ⊢
  exact accept_counts hclean

/-- **The loop over the receipts** adds no error exactly when they are clean. -/
theorem tally_clean (raws : List Mapping) : ∀ {tally final : Tally},
    raws.foldlM (Tally.turn p now policy clipId) tally = .ok final →
      (final.errors = [] ↔ tally.errors = [] ∧ ∃ reads, raws.mapM (readReceipt p now) = .ok reads ∧
        Clean policy clipId tally.seenScanners reads) := by
  induction raws with
  | nil =>
    intro tally final h
    rw [← Except.ok.inj h]
    have hclean : Clean policy clipId tally.seenScanners [] :=
      ⟨fun _ h => (List.not_mem_nil h).elim, List.nodup_nil,
        fun _ h => (List.not_mem_nil h).elim⟩
    simp [hclean, pure, Except.pure]
  | cons raw rest ih =>
    intro tally final h
    rw [List.foldlM_cons, bind_ok] at h
    obtain ⟨next, hnext, hrest⟩ := h
    rw [ih hrest, turn_errors hnext]
    constructor
    · rintro ⟨⟨herrors, read, hread, hfits, hfresh⟩, reads, hreads, hclean⟩
      have hcounts := turn_counts hnext hread
        ((turn_errors hnext).mpr ⟨herrors, read, hread, hfits, hfresh⟩)
      rw [hcounts.seen] at hclean
      refine ⟨herrors, read :: reads, ?_, clean_cons.mpr ⟨⟨hfits, hfresh⟩, hclean⟩⟩
      rw [List.mapM_cons, hread, hreads]
      rfl
    · rintro ⟨herrors, reads, hreads, hclean⟩
      rw [List.mapM_cons, bind_ok] at hreads
      obtain ⟨read, hread, hreads⟩ := hreads
      obtain ⟨others, hothers, heq⟩ := bind_ok.mp hreads
      rw [← pure_ok.mp heq] at hclean
      obtain ⟨hfirst, hclean⟩ := clean_cons.mp hclean
      have hcounts := turn_counts hnext hread
        ((turn_errors hnext).mpr ⟨herrors, read, hread, hfirst⟩)
      rw [← hcounts.seen] at hclean
      exact ⟨⟨herrors, read, hread, hfirst⟩, others, hothers, hclean⟩

theorem tally_counts (raws : List Mapping) : ∀ {tally final : Tally} {reads : List Read},
    raws.foldlM (Tally.turn p now policy clipId) tally = .ok final →
    raws.mapM (readReceipt p now) = .ok reads → final.errors = [] →
      final.passReceipts = tally.passReceipts + outcomes .pass reads ∧
        final.blockReceipts = tally.blockReceipts + outcomes .block reads := by
  induction raws with
  | nil =>
    intro tally final reads h hreads _
    rw [← Except.ok.inj h, ← Except.ok.inj hreads]
    exact ⟨rfl, rfl⟩
  | cons raw rest ih =>
    intro tally final reads h hreads hclean
    rw [List.foldlM_cons, bind_ok] at h
    obtain ⟨next, hnext, hrest⟩ := h
    rw [List.mapM_cons, bind_ok] at hreads
    obtain ⟨read, hread, hreads⟩ := hreads
    obtain ⟨others, hothers, heq⟩ := bind_ok.mp hreads
    have hnextClean := ((tally_clean rest hrest).mp hclean).1
    have hcounts := turn_counts hnext hread hnextClean
    have hfinal := ih hrest hothers hclean
    have hsum : ∀ outcome, outcomes outcome ([read] ++ others) =
        outcomes outcome [read] + outcomes outcome others := fun _ => List.countP_append
    rw [← pure_ok.mp heq, ← List.singleton_append, hsum, hsum, hfinal.1, hfinal.2, hcounts.pass,
      hcounts.block]
    omega

theorem counted_block (tally : Tally) (outcome : SafetyOutcome) :
    (tally.counted policy outcome).blockReceipts = tally.blockReceipts ∨ outcome = .block := by
  cases outcome with
  | pass => exact Or.inl rfl
  | warn =>
    left
    unfold Tally.counted
    dsimp only
    split <;> rfl
  | block => exact Or.inr rfl

theorem accept_block (tally : Tally) (signed : SignedPayload) (receipt : SafetyReceipt) :
    (tally.accept policy clipId signed receipt).blockReceipts = tally.blockReceipts ∨
      receipt.outcome = .block := by
  unfold Tally.accept
  split_ifs
  all_goals first
    | exact Or.inl rfl
    | exact counted_block _ receipt.outcome

theorem turn_block {next : Tally} (h : tally.turn p now policy clipId raw = .ok next) :
    next.blockReceipts = tally.blockReceipts ∨
      ∃ read, readReceipt p now raw = .ok read ∧ read.2.outcome = .block := by
  rcases turn_cases h with ⟨read, hread, rfl⟩ | ⟨fault, error, hread, rfl⟩
  · rcases accept_block tally read.1 read.2 with hsame | hblock
    · exact Or.inl hsame
    · exact Or.inr ⟨read, hread, hblock⟩
  · exact Or.inl rfl

theorem tally_block (raws : List Mapping) : ∀ {tally final : Tally},
    raws.foldlM (Tally.turn p now policy clipId) tally = .ok final →
      final.blockReceipts = tally.blockReceipts ∨
        ∃ raw ∈ raws, ∃ read, readReceipt p now raw = .ok read ∧ read.2.outcome = .block := by
  induction raws with
  | nil =>
    intro tally final h
    rw [← Except.ok.inj h]
    exact Or.inl rfl
  | cons raw rest ih =>
    intro tally final h
    rw [List.foldlM_cons, bind_ok] at h
    obtain ⟨next, hnext, hrest⟩ := h
    rcases turn_block hnext with hsame | hblock
    · rcases ih hrest with hsame' | hblock
      · exact Or.inl (hsame'.trans hsame)
      · obtain ⟨other, hother, hread⟩ := hblock
        exact Or.inr ⟨other, .tail _ hother, hread⟩
    · exact Or.inr ⟨raw, (.head _), hblock⟩

theorem readReceipt_now {read : Read} (now' : String) (h : readReceipt p now raw = .ok read) :
    ∃ receipt,
      readReceipt p now' raw = .ok (read.1, receipt) ∧ receipt.outcome = read.2.outcome := by
  unfold readReceipt SafetyReceipt.fromDict at h ⊢
  simp only [bind_ok, pure_ok] at h ⊢
  obtain ⟨signed, hsigned, u, hverified, receipt,
    ⟨subject, hsubject, scanner, hscanner, text, htext,
    outcome, houtcome, checks, hchecks, evidence, hevidence, rfl⟩, rfl⟩ := h
  exact ⟨_, ⟨signed, hsigned, u, hverified, _, ⟨subject, hsubject, scanner, hscanner, text, htext,
    outcome, houtcome, checks, hchecks, evidence, hevidence, rfl⟩, rfl⟩, rfl⟩

/-! ### The chain -/

variable {verification : ProvenanceVerification}

theorem scanKeys_iff {key : String} :
    key ∈ scanKeys verification ↔
      (key, linkSafetyScan) ∈ verification.issuers.zip verification.linkTypes := by
  unfold scanKeys
  simp [List.mem_map, List.mem_filter]

theorem receiptKeyErrors_eq_nil {keys : List String} (raws : List Mapping) :
    receiptKeyErrors p keys raws = [] ↔ ∀ raw ∈ raws, textField p raw "public_key" "" ≠ "" ∧
      (keys ≠ [] → textField p raw "public_key" "" ∈ keys) := by
  induction raws with
  | nil => simp [receiptKeyErrors]
  | cons raw rest ih =>
    unfold receiptKeyErrors
    by_cases hkey : textField p raw "public_key" "" = ""
    · simp [hkey]
    rw [if_neg hkey, List.forall_mem_cons]
    by_cases hmissing : keys ≠ [] ∧ textField p raw "public_key" "" ∉ keys
    · simp [hmissing]
    · rw [if_neg hmissing, ih]
      have hmem : keys ≠ [] → textField p raw "public_key" "" ∈ keys :=
        fun hsome => not_not.mp fun hnot => hmissing ⟨hsome, hnot⟩
      simp only [hkey, ne_eq, not_false_iff, true_and]
      exact ⟨fun h => ⟨hmem, h⟩, fun h => h.2⟩

/-- A chain that backs the receipts of a manifest. -/
structure Backs (p : Platform) (manifest : ClipManifest) (verification : ProvenanceVerification) :
    Prop where
  genesis : verification.linkTypes.head? = some linkGenesis
  publisher : verification.issuers.head? = some manifest.publisher
  receipts : ∀ raw ∈ manifest.safetyReceipts, textField p raw "public_key" "" ≠ "" ∧
    (textField p raw "public_key" "", linkSafetyScan) ∈
      verification.issuers.zip verification.linkTypes

variable {manifest : ClipManifest}

theorem chainErrors_eq_nil :
    chainErrors p manifest verification = [] ↔ Backs p manifest verification := by
  unfold chainErrors
  rw [List.append_eq_nil_iff, List.append_eq_nil_iff, List.append_eq_nil_iff,
    receiptKeyErrors_eq_nil]
  simp only [ite_eq_left_iff, List.cons_ne_nil, imp_false, not_not, ite_eq_right_iff]
  constructor
  · rintro ⟨⟨⟨hgenesis, hpublisher⟩, hsome⟩, hkeys⟩
    refine ⟨hgenesis, hpublisher, fun raw hraw => ⟨(hkeys raw hraw).1, ?_⟩⟩
    refine scanKeys_iff.mp ((hkeys raw hraw).2 fun hnone => hsome ⟨?_, hnone⟩)
    exact List.ne_nil_of_mem hraw
  · intro h
    refine ⟨⟨⟨h.genesis, h.publisher⟩, fun hnone => ?_⟩, fun raw hraw =>
      ⟨(h.receipts raw hraw).1, fun _ => scanKeys_iff.mpr (h.receipts raw hraw).2⟩⟩
    obtain ⟨raw, hraw⟩ := List.exists_mem_of_ne_nil _ hnone.1
    have hmem := scanKeys_iff.mpr (h.receipts raw hraw).2
    rw [hnone.2] at hmem
    exact List.not_mem_nil hmem

theorem walk_expected {expected : Option String} {chain : List SignedPayload} :
    ∀ {walked : Walk}, walk p now expected chain = .ok walked → chain ≠ [] →
      walked.contentId ≠ "" ∧
        ∀ contentId ∈ expected, contentId = "" ∨ walked.contentId = contentId := by
  induction chain using List.reverseRecOn with
  | nil => exact fun _ hne => absurd rfl hne
  | append_singleton front last ih =>
    intro walked h _
    obtain ⟨before, hbefore, hlink⟩ := walk_concat.mp h
    obtain ⟨_, link, _, hfollows, _, _, rfl⟩ := verifyLink_ok.mp hlink
    by_cases hfirst : front.length = 0
    · obtain ⟨_, hsome, _, hexpected⟩ := hfollows.genesis hfirst
      simp only [hfirst, if_true]
      exact ⟨hsome, hexpected⟩
    · simp only [hfirst, if_false]
      exact ih hbefore fun hnil => hfirst (by rw [hnil]; rfl)

theorem verifyChain_expected (h : manifest.verifyChain p now = .ok verification) :
    verification.contentId ≠ "" ∧
      (manifest.asset.clipId ≠ "" → verification.contentId = manifest.asset.clipId) ∧
        (manifest.provenanceHeadHash ≠ "" →
          verification.headHash = manifest.provenanceHeadHash) := by
  obtain ⟨chain, walked, h⟩ := verifyChain_ok.mp h
  have hexpected := walk_expected h.walk h.some
  rw [h.contentId, h.headHash]
  exact ⟨hexpected.1, fun hne => (hexpected.2 _ rfl).resolve_left hne,
    fun hne => (h.head _ rfl).resolve_left hne⟩

/-! ### Propagation -/

/-- A manifest that propagates. -/
structure InOrder (p : Platform) (now : String) (policy : SafetyPolicy) (signed : SignedPayload)
    (manifest : ClipManifest) : Prop where
  publisher : manifest.publisher = signed.publicKey
  clip : manifest.asset.clipId = manifest.asset.mediaHash
  runId : manifest.runReceipt.runId ≠ ""
  workId : manifest.runReceipt.workId ≠ ""
  envelope : manifest.runReceipt.envelopeHash.startsWith "sha256:" = true
  receipts : ∃ reads, manifest.safetyReceipts.mapM (readReceipt p now) = .ok reads ∧
    Clean policy manifest.asset.clipId [] reads ∧ outcomes .block reads = 0 ∧
      policy.minPassReceipts ≤ outcomes .pass reads ∧ 0 < outcomes .pass reads
  chain : manifest.HasChain → ∃ verification, manifest.verifyChain p now = .ok verification ∧
    Backs p manifest verification

theorem headErrors_eq_nil :
    headErrors signed manifest = [] ↔ manifest.publisher = signed.publicKey ∧
      manifest.asset.clipId = manifest.asset.mediaHash ∧ manifest.runReceipt.runId ≠ "" ∧
      manifest.runReceipt.workId ≠ "" ∧
      manifest.runReceipt.envelopeHash.startsWith "sha256:" = true := by
  unfold headErrors
  simp only [List.append_eq_nil_iff, ite_eq_left_iff, ite_eq_right_iff, List.cons_ne_nil, imp_false,
    not_not, and_assoc, ne_eq]

theorem countErrors_eq_nil : countErrors policy tally = [] ↔
    policy.minPassReceipts ≤ tally.passReceipts ∧ tally.blockReceipts = 0 := by
  unfold countErrors
  simp only [List.append_eq_nil_iff, ite_eq_left_iff, ite_eq_right_iff, List.cons_ne_nil, imp_false,
    not_not, not_lt]

theorem validateChain_clean {chain : List String × Option ProvenanceVerification}
    (h : validateChain p now manifest = .ok chain) :
    chain.1 = [] ↔ (manifest.HasChain → ∃ verification,
      manifest.verifyChain p now = .ok verification ∧ Backs p manifest verification) := by
  unfold validateChain at h
  by_cases hchain : manifest.HasChain
  · rw [if_pos hchain] at h
    simp only [hchain, true_implies]
    cases hverify : manifest.verifyChain p now with
    | ok verification =>
      rw [hverify] at h
      rw [← Except.ok.inj h]
      simp [chainErrors_eq_nil]
    | error fault =>
      rw [hverify] at h
      cases fault with
      | provenanceError text =>
        rw [← Except.ok.inj h]
        simp
      | _ => cases h
  · rw [if_neg hchain] at h
    rw [← Except.ok.inj h]
    simp [hchain]

variable {validation : ManifestValidation}

/-- **Which manifests propagate.** -/
theorem propagates_iff (h : validateContent p now policy signed manifest = .ok validation) :
    validation.propagates ↔ InOrder p now policy signed manifest := by
  unfold validateContent at h
  simp only [bind_ok, pure_ok] at h
  obtain ⟨tally, htally, chain, hchain, rfl⟩ := h
  have hclean := tally_clean _ htally
  unfold ManifestValidation.propagates
  simp only [List.append_eq_nil_iff, hclean, headErrors_eq_nil, countErrors_eq_nil,
    validateChain_clean hchain]
  constructor
  · intro h
    obtain ⟨⟨⟨⟨⟨hpublisher, hclip, hrun, hwork, henvelope⟩, reads, hreads, hreadsClean⟩, henough,
      _⟩, hbacked⟩, hblock, hpass⟩ := h
    have herrors := hclean.mpr ⟨headErrors_eq_nil.mpr ⟨hpublisher, hclip, hrun, hwork, henvelope⟩,
      reads, hreads, hreadsClean⟩
    obtain ⟨hpassed, hblocked⟩ := tally_counts _ htally hreads herrors
    rw [Nat.zero_add] at hpassed hblocked
    rw [hblocked] at hblock
    rw [hpassed] at henough hpass
    exact ⟨hpublisher, hclip, hrun, hwork, henvelope,
      ⟨reads, hreads, hreadsClean, hblock, henough, hpass⟩, hbacked⟩
  · intro h
    obtain ⟨reads, hreads, hreadsClean, hblock, henough, hpass⟩ := h.receipts
    have herrors := hclean.mpr ⟨headErrors_eq_nil.mpr ⟨h.publisher, h.clip, h.runId, h.workId,
      h.envelope⟩, reads, hreads, hreadsClean⟩
    obtain ⟨hpassed, hblocked⟩ := tally_counts _ htally hreads herrors
    rw [Nat.zero_add] at hpassed hblocked
    rw [hpassed, hblocked]
    exact ⟨⟨⟨⟨⟨h.publisher, h.clip, h.runId, h.workId, h.envelope⟩, reads, hreads, hreadsClean⟩,
      henough, hblock⟩, h.chain⟩, hblock, hpass⟩

theorem not_inOrder_of_block {read : Read} (hraw : raw ∈ manifest.safetyReceipts)
    (hread : readReceipt p now raw = .ok read) (hblock : read.2.outcome = .block) :
    ¬ InOrder p now' policy signed manifest := by
  intro h
  obtain ⟨reads, hreads, _, hnone, _⟩ := h.receipts
  obtain ⟨receipt, hread', houtcome⟩ := readReceipt_now now' hread
  have hmem : (read.1, receipt) ∈ reads := by
    obtain ⟨front, rest, hsplit⟩ := List.append_of_mem hraw
    rw [hsplit, List.mapM_append, bind_ok] at hreads
    obtain ⟨fronts, _, hreads⟩ := hreads
    obtain ⟨others, hothers, heq⟩ := bind_ok.mp hreads
    rw [List.mapM_cons, hread', ok_bind] at hothers
    obtain ⟨rests, _, heq'⟩ := bind_ok.mp hothers
    rw [← pure_ok.mp heq, ← pure_ok.mp heq']
    exact List.mem_append_right _ (.head _)
  have hcount := List.countP_eq_zero.mp hnone _ hmem
  simp [houtcome, hblock] at hcount

/-! ### Soundness -/

/-- What propagation promises of a receipt that was read. -/
structure Read.Valid (p : Platform) (now : String) (policy : SafetyPolicy) (clipId : String)
    (raw : Mapping) (read : Read) : Prop where
  signed : SignedPayload.fromDict p raw = .ok read.1 ∧ verifySignedPayload p read.1 = .ok ⟨⟩
  content : SafetyReceipt.fromDict p now read.1.payload = .ok read.2
  subject : read.2.subjectClipId = clipId
  trusted : policy.receiptTrusted read.2
  noBlock : read.2.outcome ≠ .block
  warning : read.2.outcome = .warn → policy.allowWarnings = true

/-- What propagation promises of the chain. -/
structure Anchored (p : Platform) (now : String) (manifest : ClipManifest)
    (verification : ProvenanceVerification) : Prop where
  verified : manifest.verifyChain p now = .ok verification
  content : verification.contentId = manifest.asset.clipId
  head : manifest.provenanceHeadHash ≠ "" → verification.headHash = manifest.provenanceHeadHash
  genesis : verification.linkTypes.head? = some linkGenesis
  publisher : verification.issuers.head? = some manifest.publisher

/-- What propagation promises of a manifest. -/
structure Sound (p : Platform) (now : String) (policy : SafetyPolicy) (signed : SignedPayload)
    (manifest : ClipManifest) : Prop where
  verified : verifySignedPayload p signed = .ok ⟨⟩
  content : ClipManifest.fromPayload p now signed.payload = .ok manifest
  publisher : manifest.publisher = signed.publicKey
  clip : manifest.asset.clipId = manifest.asset.mediaHash
  receipts : ∃ reads : List Read,
    List.Forall₂ (Read.Valid p now policy manifest.asset.clipId) manifest.safetyReceipts reads ∧
    (reads.map fun read => (read.2.scannerId, read.1.publicKey)).Nodup ∧
    policy.minPassReceipts ≤ outcomes .pass reads ∧
    (manifest.HasChain → ∃ verification, Anchored p now manifest verification ∧
      ∀ read ∈ reads, (read.1.publicKey, linkSafetyScan) ∈
        verification.issuers.zip verification.linkTypes)

theorem readReceipt_ok {read : Read} (h : readReceipt p now raw = .ok read) :
    SignedPayload.fromDict p raw = .ok read.1 ∧ verifySignedPayload p read.1 = .ok ⟨⟩ ∧
      SafetyReceipt.fromDict p now read.1.payload = .ok read.2 := by
  unfold readReceipt at h
  simp only [bind_ok, pure_ok] at h
  obtain ⟨signed, hsigned, u, hverified, receipt, hreceipt, rfl⟩ := h
  exact ⟨hsigned, hverified, hreceipt⟩

theorem publicKey_of_fromDict (h : SignedPayload.fromDict p raw = .ok signed) :
    textField p raw "public_key" "" = signed.publicKey := by
  unfold SignedPayload.fromDict at h
  simp only [bind_ok, pure_ok, textItem, Mapping.item, demand_ok] at h
  obtain ⟨_, _, _, _, _, _, _, ⟨value, hvalue, rfl⟩, rfl⟩ := h
  simp [textField, hvalue]

/-- **A manifest in order is sound**, when its clip has a name or it has no chain. -/
theorem sound_of_inOrder (hverified : verifySignedPayload p signed = .ok ⟨⟩)
    (hread : ClipManifest.fromPayload p now signed.payload = .ok manifest)
    (h : InOrder p now policy signed manifest)
    (hclip : manifest.HasChain → manifest.asset.clipId ≠ "") :
    Sound p now policy signed manifest := by
  obtain ⟨reads, hreads, hclean, hblock, henough, _⟩ := h.receipts
  have hall := mapM_forall₂ hreads
  refine ⟨hverified, hread, h.publisher, h.clip, reads, ?_, ?_, henough, fun hchain => ?_⟩
  · refine List.forall₂_iff_get.mpr ⟨hall.length_eq, fun i hi hi' => ?_⟩
    have hread := (List.forall₂_iff_get.mp hall).2 i hi hi'
    have hmem : reads.get ⟨i, hi'⟩ ∈ reads := List.get_mem _ _
    have hfits := hclean.fits _ hmem
    obtain ⟨hsigned, hverified, hcontent⟩ := readReceipt_ok hread
    refine ⟨⟨hsigned, hverified⟩, hcontent, hfits.subject, hfits.trusted, ?_, hfits.warning⟩
    have hcount := List.countP_eq_zero.mp hblock _ hmem
    simpa using hcount
  · refine List.Nodup.of_map (fun pair : String × String => pair.1 ++ ":" ++ pair.2) ?_
    rw [List.map_map]
    exact hclean.distinct
  · obtain ⟨verification, hverify, hbacks⟩ := h.chain hchain
    obtain ⟨_, hcontent, hhead⟩ := verifyChain_expected hverify
    refine ⟨verification, ⟨hverify, hcontent (hclip hchain), hhead, hbacks.genesis,
      hbacks.publisher⟩, fun read hmem => ?_⟩
    obtain ⟨i, hi, rfl⟩ := List.mem_iff_getElem.mp hmem
    have hlen : i < manifest.safetyReceipts.length := by
      rw [hall.length_eq]
      exact hi
    have hread := (List.forall₂_iff_get.mp hall).2 i hlen hi
    have hkey := publicKey_of_fromDict (readReceipt_ok hread).1
    have hlink := (hbacks.receipts _ (List.get_mem _ ⟨i, hlen⟩)).2
    rw [hkey] at hlink
    exact hlink

/-- The receipts of one manifest are among those of another. -/
def Adds (signed other : SignedPayload) : Prop :=
  ∀ mine theirs, dicts signed.payload "safety_receipts" = .ok mine →
    dicts other.payload "safety_receipts" = .ok theirs → mine ⊆ theirs

/-- **The verdict on a manifest**: there is one, it lets only sound manifests propagate, and
after a receipt that blocks nothing that is added lets the manifest propagate. -/
def Meets (p : Platform) (now : String) (policy : SafetyPolicy) (signed : SignedPayload) : Prop :=
  ∃ validation, validateManifest p now policy signed = .ok validation ∧
    (validation.propagates → ∃ manifest, Sound p now policy signed manifest) ∧
    (0 < validation.blockReceipts → ∀ now' other verdict, Adds signed other →
      validateManifest p now' policy other = .ok verdict → ¬ verdict.propagates)

/-- A manifest that the validation handles. -/
structure Handled (p : Platform) (now : String) (policy : SafetyPolicy) (signed : SignedPayload) :
    Prop where
  numbers : AssetConverts p signed.payload
  chain : ∀ manifest, ClipManifest.fromPayload p now signed.payload = .ok manifest →
    ChainWalkable p now manifest
  clip : ∀ manifest, ClipManifest.fromPayload p now signed.payload = .ok manifest →
    manifest.HasChain → manifest.asset.clipId = "" → ¬ InOrder p now policy signed manifest

theorem validateManifest_content (h : validateManifest p now policy signed = .ok validation) :
    (∃ error, validation = .refused error) ∨ verifySignedPayload p signed = .ok ⟨⟩ ∧
      ∃ manifest, ClipManifest.fromPayload p now signed.payload = .ok manifest ∧
        validateContent p now policy signed manifest = .ok validation := by
  unfold validateManifest at h
  cases hverified : verifySignedPayload p signed with
  | error fault =>
    rw [hverified] at h
    cases fault with
    | signatureError text => exact Or.inl ⟨_, (Except.ok.inj h).symm⟩
    | _ => cases h
  | ok u =>
    rw [hverified] at h
    cases hread : ClipManifest.fromPayload p now signed.payload with
    | ok manifest =>
      rw [hread] at h
      exact Or.inr ⟨rfl, manifest, rfl, h⟩
    | error fault =>
      rw [hread] at h
      by_cases hoverflow : fault.isOverflow = true
      · simp [hoverflow] at h
      · simp only [hoverflow, if_false, Bool.false_eq_true, Except.ok.injEq] at h
        exact Or.inl ⟨_, h.symm⟩

theorem receipts_of_fromPayload {payload : Mapping}
    (h : ClipManifest.fromPayload p now payload = .ok manifest) :
    dicts payload "safety_receipts" = .ok manifest.safetyReceipts := by
  unfold ClipManifest.fromPayload at h
  simp only [bind_ok, pure_ok] at h
  obtain ⟨_, _, _, _, _, _, _, _, _, _, _, _, _, _, _, _, receipts, hreceipts, _, _, _, _, rfl⟩ := h
  exact hreceipts

theorem blocked_stays {other : SignedPayload} {verdict : ManifestValidation}
    (h : validateManifest p now policy signed = .ok validation)
    (hblock : 0 < validation.blockReceipts) (hadds : Adds signed other)
    (hother : validateManifest p now' policy other = .ok verdict) : ¬ verdict.propagates := by
  rcases validateManifest_content h with hrefused | hcontent
  · obtain ⟨error, rfl⟩ := hrefused
    exact absurd hblock (Nat.lt_irrefl 0)
  · obtain ⟨_, manifest, hread, hvalid⟩ := hcontent
    unfold validateContent at hvalid
    simp only [bind_ok, pure_ok] at hvalid
    obtain ⟨tally, htally, _, _, rfl⟩ := hvalid
    rcases tally_block _ htally with hsame | hfound
    · rw [hsame] at hblock
      exact absurd hblock (Nat.lt_irrefl 0)
    · obtain ⟨raw, hraw, read, hreceipt, houtcome⟩ := hfound
      rcases validateManifest_content hother with hrefused | hcontent
      · obtain ⟨error, rfl⟩ := hrefused
        intro hpropagates
        exact List.cons_ne_nil _ _ hpropagates.1
      · obtain ⟨_, theirs, hread', hvalid'⟩ := hcontent
        rw [propagates_iff hvalid']
        exact not_inOrder_of_block (hadds _ _ (receipts_of_fromPayload hread)
          (receipts_of_fromPayload hread') hraw) hreceipt houtcome

/-- **Validation is total and sound** exactly on the manifests that it handles. -/
theorem validation_total_and_sound (p : Platform) (now : String) (policy : SafetyPolicy)
    (value : Json) (signature publicKey alg : String) :
    Meets p now policy ⟨.ofObject value, signature, publicKey, alg⟩ ↔
      (verifySignedPayload p ⟨.ofObject value, signature, publicKey, alg⟩ = .ok ⟨⟩ →
        Handled p now policy ⟨.ofObject value, signature, publicKey, alg⟩) := by
  generalize hsigned : SignedPayload.mk _ _ _ _ = signed
  have hobject : signed.payload.Named := by
    rw [← hsigned]
    exact Mapping.named_ofObject value
  constructor
  · intro h hverified
    obtain ⟨validation, hvalid, hsound, _⟩ := h
    obtain ⟨hnumbers, hchain⟩ := (validateManifest_total hobject).mp ⟨validation, hvalid⟩ hverified
    refine ⟨hnumbers, hchain, fun manifest hread hpresent hempty horder => ?_⟩
    rcases validateManifest_content hvalid with hrefused | hcontent
    · obtain ⟨error, rfl⟩ := hrefused
      unfold validateManifest at hvalid
      rw [hverified, hread] at hvalid
      have hcontent : validateContent p now policy signed manifest = .ok (.refused error) := hvalid
      have hpropagates := (propagates_iff hcontent).mpr horder
      exact List.cons_ne_nil _ _ hpropagates.1
    · obtain ⟨_, same, hsame, hcontent⟩ := hcontent
      obtain ⟨other, hother⟩ := hsound ((propagates_iff hcontent).mpr
        (Except.ok.inj (hread.symm.trans hsame) ▸ horder))
      have heq : other = manifest := Except.ok.inj (hother.content.symm.trans hread)
      rw [heq] at hother
      obtain ⟨_, _, _, _, hanchored⟩ := hother.receipts
      obtain ⟨verification, hanchor, _⟩ := hanchored hpresent
      exact (verifyChain_expected hanchor.verified).1 (hanchor.content.trans hempty)
  · intro h
    have hreturns : Returns (validateManifest p now policy signed) :=
      (validateManifest_total hobject).mpr fun hverified =>
        ⟨(h hverified).numbers, (h hverified).chain⟩
    obtain ⟨validation, hvalid⟩ := hreturns
    refine ⟨validation, hvalid, fun hpropagates => ?_, fun hblock now' other verdict hadds hother =>
      blocked_stays hvalid hblock hadds hother⟩
    rcases validateManifest_content hvalid with hrefused | hcontent
    · obtain ⟨error, rfl⟩ := hrefused
      exact absurd hpropagates.1 (List.cons_ne_nil _ _)
    · obtain ⟨hverified, manifest, hread, hcontent⟩ := hcontent
      have horder := (propagates_iff hcontent).mp hpropagates
      exact ⟨manifest, sound_of_inOrder hverified hread horder fun hpresent hempty =>
        (h hverified).clip manifest hread hpresent hempty horder⟩

/-- An asset whose size is infinite, and its manifest. -/
def infiniteAsset : Json :=
  .object [("clip_id", .str "clip"), ("media_hash", .str "clip"),
    ("size_bytes", .float none "Infinity")]

def infiniteManifest : Json :=
  .object [("publisher", .str "key"), ("asset", infiniteAsset)]

/-- **An infinite size raises**: the publisher signs it, and there is no verdict. -/
theorem infinite_size_raises : ∃ signed,
    signPayload sample infiniteManifest "key" = .ok signed ∧
      ¬ Meets sample "now" ⟨1, true, []⟩ signed := by
  refine ⟨_, signPayload_eq _ _, fun h => ?_⟩
  have hverified := verify_signPayload sample_signs (signPayload_eq infiniteManifest "key")
  obtain ⟨validation, hvalid, _⟩ := h
  have hobject : (Mapping.ofObject infiniteManifest).Named := Mapping.named_ofObject _
  have hnumbers := ((validateManifest_total hobject).mp ⟨validation, hvalid⟩ hverified).1
  have hdict : dict infiniteAsset = .ok (.ofObject infiniteAsset) := rfl
  have hconvert := hnumbers "key" [] infiniteAsset (.ofObject infiniteAsset) "clip" "clip"
    (by simp [textItem, Mapping.item, infiniteManifest, pure, Except.pure, str])
    (by simp [items, infiniteManifest, tuple])
    (by simp [Mapping.item, infiniteManifest]) hdict
    (by simp [textItem, Mapping.item, infiniteAsset, pure, Except.pure, str])
    (by simp [textItem, Mapping.item, infiniteAsset, pure, Except.pure, str])
  exact (hconvert (.float none "Infinity") (by simp [infiniteAsset])).1
    ⟨"Infinity", rfl, by decide⟩

end Manifests
