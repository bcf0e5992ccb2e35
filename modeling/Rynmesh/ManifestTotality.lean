import Rynmesh.Manifest
import Rynmesh.ProvenanceChains

/-!
# What the validation of a manifest raises

`validateManifest` lets two kinds of exceptions pass: an overflow while the numbers of the
asset are read, and what `verifyChain` raises that is no `ProvenanceError`.  The latter
comes from a link with an infinite sequence number, or from one whose payload was given
keys that cannot be sorted (`Breaks`).

`validateContent_total` and `validateManifest_total` say when there is a verdict.
-/

namespace Manifests

open Checked Documents Provenance

variable {p : Platform} {now : String} {expectedContentId : Option String}

/-! ### Links -/

def IsProvenance (fault : Fault) : Prop := ∃ text, fault = .provenanceError text

@[simp] theorem isProvenance_provenanceError (text : String) :
    IsProvenance (.provenanceError text) :=
  ⟨text, rfl⟩

theorem isProvenance_invalidPayload {fault : Fault} :
    IsProvenance (invalidPayload fault) ↔ fault.Caught := by
  cases fault <;> simp [invalidPayload, IsProvenance, Fault.Caught, Fault.isOverflow]

/-- The signature cannot be looked at, since the payload has no canonical text. -/
def Stuck (p : Platform) (signed : SignedPayload) : Prop :=
  signed.alg = signatureAlg ∧ p.isKey signed.publicKey = true ∧
    p.isBase64 signed.signature = true ∧ ¬ signed.payload.Sortable

/-- A link that makes `verify_chain` raise something else than a `ProvenanceError`. -/
def Breaks (p : Platform) (signed : SignedPayload) : Prop :=
  Stuck p signed ∨ verifySignedPayload p signed = .ok ⟨⟩ ∧
    ∃ value, signed.payload.get? "sequence" = some value ∧ Infinite value

theorem onlyFails_materialize (raw : RawLink) :
    OnlyFails IsProvenance (RawLink.materialize p raw) := by
  cases raw with
  | link signed => exact onlyFails_ok
  | raw data =>
    exact onlyFails_mapError.mpr
      ((caught_fromDict data).mono fun _ => isProvenance_invalidPayload.mpr)

variable {signed : SignedPayload}

theorem onlyFails_verifySignedPayload :
    OnlyFails IsProvenance ((verifySignedPayload p signed).mapError invalidSignature) ↔
      ¬ Stuck p signed := by
  rw [onlyFails_mapError]
  unfold verifySignedPayload Mapping.document Stuck
  simp only [onlyFails_bind, onlyFails_require, onlyFails_pure, require_ok, invalidSignature,
    isProvenance_provenanceError, implies_true, true_and, and_true]
  constructor
  · intro h hstuck
    have hsort := h ⟨⟩ hstuck.1 ⟨⟩ ⟨hstuck.2.1, hstuck.2.2.1⟩
    have hfault := hsort hstuck.2.2.2
    simp [IsProvenance] at hfault
  · intro h _ halg _ hkeys hsort
    exact absurd ⟨halg, hkeys.1, hkeys.2, hsort⟩ h

theorem onlyFails_fromPayload {payload : Mapping} :
    OnlyFails IsProvenance ((fromPayload p now payload).mapError invalidPayload) ↔
      ∀ value, payload.get? "sequence" = some value → ¬ Infinite value := by
  rw [onlyFails_mapError]
  have hcaught : (fun e => IsProvenance (invalidPayload e)) = Fault.Caught :=
    funext fun _ => propext isProvenance_invalidPayload
  rw [hcaught]
  unfold fromPayload
  simp only [onlyFails_bind, onlyFails_pure, caught_int, caught_textItem, caught_dict,
    Mapping.item, demand_ok, implies_true, and_true]
  simp [Fault.Caught, Fault.isOverflow]

theorem onlyFails_verifyCommon (walk : Walk) (index : Nat) (signed : SignedPayload)
    (link : ProvenanceLink Mapping) :
    OnlyFails IsProvenance (verifyCommon p walk index signed link) := by
  simp [verifyCommon]

theorem onlyFails_verifyPlace (contentId : String) (index : Nat) (link : ProvenanceLink Mapping) :
    OnlyFails IsProvenance (verifyPlace p expectedContentId contentId index link) := by
  unfold verifyPlace
  split <;> simp [verifyGenesis, verifyLater]

theorem signedLinkHash_of_verified (h : verifySignedPayload p signed = .ok ⟨⟩) :
    ∃ hash, signedLinkHash p signed = .ok hash := by
  obtain ⟨_, _, _, document, hdocument, _⟩ := verifySignedPayload_ok.mp h
  unfold signedLinkHash SignedPayload.document
  rw [hdocument]
  exact ⟨_, rfl⟩

/-- **What one turn of the loop raises.** -/
theorem onlyFails_verifyLink {walk : Walk} {index : Nat} :
    OnlyFails IsProvenance (verifyLink p now expectedContentId walk (signed, index)) ↔
      ¬ Breaks p signed := by
  unfold verifyLink Breaks
  rw [onlyFails_bind, onlyFails_verifySignedPayload, not_or, not_and]
  refine and_congr Iff.rfl ?_
  constructor
  · intro h hverified
    have hread := onlyFails_fromPayload.mp (onlyFails_bind.mp (h ⟨⟩ (mapError_ok.mpr hverified))).1
    rintro ⟨value, hvalue, hinf⟩
    exact hread value hvalue hinf
  · intro h u hverified
    have hverified := mapError_ok.mp hverified
    obtain ⟨hash, hhash⟩ := signedLinkHash_of_verified hverified
    refine onlyFails_bind.mpr ⟨onlyFails_fromPayload.mpr fun value hvalue hinf =>
      h hverified ⟨value, hvalue, hinf⟩, fun link _ => ?_⟩
    refine onlyFails_bind.mpr ⟨onlyFails_verifyCommon _ _ _ _, fun _ _ => ?_⟩
    refine onlyFails_bind.mpr ⟨onlyFails_verifyPlace _ _ _, fun _ _ => ?_⟩
    rw [hhash]
    exact onlyFails_ok

/-- No link that the loop reaches breaks it. -/
def Walkable (p : Platform) (now : String) (expectedContentId : Option String)
    (chain : List SignedPayload) : Prop :=
  ∀ front signed rest, chain = front ++ signed :: rest →
    (∃ walked, walk p now expectedContentId front = .ok walked) → ¬ Breaks p signed

theorem walkable_concat {chain : List SignedPayload} {last : SignedPayload} :
    Walkable p now expectedContentId (chain ++ [last]) ↔ Walkable p now expectedContentId chain ∧
        ((∃ walked, walk p now expectedContentId chain = .ok walked) → ¬ Breaks p last) := by
  constructor
  · intro h
    refine ⟨fun front signed rest hchain => ?_, h chain last [] rfl⟩
    exact h front signed (rest ++ [last]) (by simp [hchain])
  · intro h front signed rest hchain hwalk
    cases rest using List.reverseRecOn with
    | nil =>
      obtain ⟨hfront, hlast⟩ := List.append_inj' hchain rfl
      rw [← List.singleton_inj.mp hlast]
      exact h.2 (hfront ▸ hwalk)
    | append_singleton rest other =>
      rw [← List.cons_append, ← List.append_assoc] at hchain
      exact h.1 front signed rest (List.append_inj' hchain rfl).1 hwalk

/-- **What the loop raises.** -/
theorem onlyFails_walk (chain : List SignedPayload) :
    OnlyFails IsProvenance (walk p now expectedContentId chain) ↔
      Walkable p now expectedContentId chain := by
  induction chain using List.reverseRecOn with
  | nil =>
    refine iff_of_true onlyFails_ok fun front signed rest hchain => ?_
    simp at hchain
  | append_singleton chain last ih =>
    rw [walk_append, onlyFails_bind, ih, walkable_concat]
    refine and_congr Iff.rfl ?_
    constructor
    · rintro h ⟨walked, hwalk⟩
      exact onlyFails_verifyLink.mp (h walked hwalk)
    · intro h walked hwalk
      exact onlyFails_verifyLink.mpr (h ⟨walked, hwalk⟩)

theorem onlyFails_verifyChain {links : List RawLink} {expectedHeadHash : Option String} :
    OnlyFails IsProvenance (verifyChain p now links expectedContentId expectedHeadHash) ↔
      ∀ chain, links.mapM (RawLink.materialize p) = .ok chain →
        Walkable p now expectedContentId chain := by
  unfold verifyChain
  rw [onlyFails_bind]
  simp only [onlyFails_mapM onlyFails_materialize, true_and]
  refine forall₂_congr fun chain _ => ?_
  rw [← onlyFails_walk]
  constructor
  · intro h
    cases hlast : chain.getLast? with
    | none =>
      rw [List.getLast?_eq_none_iff.mp hlast]
      exact onlyFails_ok
    | some last =>
      rw [hlast, demand_some, ok_bind, onlyFails_bind] at h
      exact h.1
  · intro h
    refine onlyFails_bind.mpr ⟨by simp, fun last hlast => ?_⟩
    refine onlyFails_bind.mpr ⟨h, fun walked hwalk => ?_⟩
    rw [expectedPrev_of_walk hwalk (demand_ok.mp hlast)]
    simp

/-! ### Numbers -/

/-- The numbers of an asset convert, as far as they are reached. -/
def NumbersConvert (p : Platform) (data : Mapping) : Prop :=
  ∀ size, data.get? "size_bytes" = some size → ¬ Infinite size ∧
    ∀ sizeBytes, int p size = .ok sizeBytes →
      ¬ Huge ((data.get? "duration_sec").getD (.float (some 0) "0.0")) ∧
        ∀ durationSec,
          float p ((data.get? "duration_sec").getD (.float (some 0) "0.0")) = .ok durationSec →
            ¬ Infinite ((data.get? "width").getD (.int 0)) ∧
              ∀ width, int p ((data.get? "width").getD (.int 0)) = .ok width →
                ¬ Infinite ((data.get? "height").getD (.int 0))

/-- The numbers of the asset of a payload convert, as far as they are reached. -/
def AssetConverts (p : Platform) (payload : Mapping) : Prop :=
  ∀ publisher tags value data clipId mediaHash, textItem p payload "publisher" = .ok publisher →
    items payload "tags" = .ok tags → payload.item "asset" = .ok value → dict value = .ok data →
    textItem p data "clip_id" = .ok clipId → textItem p data "media_hash" = .ok mediaHash →
      NumbersConvert p data

theorem caught_items (m : Mapping) (name : String) : OnlyFails Fault.Caught (items m name) :=
  caught_tuple _

theorem caught_dicts (m : Mapping) (name : String) : OnlyFails Fault.Caught (dicts m name) :=
  onlyFails_bind.mpr ⟨caught_items m name, fun _ _ => onlyFails_mapM caught_dict _⟩

theorem caught_runReceipt (data : Mapping) :
    OnlyFails Fault.Caught (RunReceipt.fromDict p now data) := by
  simp [RunReceipt.fromDict, caught_textItem]

theorem caught_mediaAsset {data : Mapping} : OnlyFails Fault.Caught (MediaAsset.fromDict p data) ↔
    ∀ clipId mediaHash, textItem p data "clip_id" = .ok clipId →
      textItem p data "media_hash" = .ok mediaHash → NumbersConvert p data := by
  unfold MediaAsset.fromDict intField NumbersConvert
  simp only [onlyFails_bind, onlyFails_pure, caught_textItem, caught_int, caught_float,
    caught_items, Mapping.item, demand_ok, implies_true, true_and, and_true]
  constructor
  · intro h clipId mediaHash hclip hmedia size hsize
    exact (h clipId hclip mediaHash hmedia).2 size hsize
  · intro h clipId hclip mediaHash hmedia
    refine ⟨?_, h clipId mediaHash hclip hmedia⟩
    simp [Fault.Caught, Fault.isOverflow]

theorem caught_clipManifest {payload : Mapping} :
    OnlyFails Fault.Caught (ClipManifest.fromPayload p now payload) ↔ AssetConverts p payload := by
  unfold ClipManifest.fromPayload AssetConverts
  simp only [onlyFails_bind, onlyFails_pure, caught_textItem, caught_item, caught_items,
    caught_dict, caught_dicts, caught_runReceipt, caught_mediaAsset, implies_true, true_and,
      and_true]
  constructor
  · intro h publisher tags value data clipId mediaHash hpublisher htags hvalue hdata hclip hmedia
    exact h publisher hpublisher tags htags value hvalue data hdata clipId mediaHash hclip hmedia
  · intro h publisher hpublisher tags htags value hvalue data hdata clipId mediaHash hclip hmedia
    exact h publisher tags value data clipId mediaHash hpublisher htags hvalue hdata hclip hmedia

/-! ### Validation -/

/-- A computation returns. -/
def Returns {α : Type} (x : Except Fault α) : Prop := ∃ a, x = .ok a

theorem caught_readReceipt (raw : Mapping) : OnlyFails Fault.Caught (readReceipt p now raw) := by
  refine onlyFails_bind.mpr ⟨caught_fromDict raw, fun signed _ => ?_⟩
  refine onlyFails_bind.mpr ⟨caught_verifySignedPayload signed, fun _ _ => ?_⟩
  refine onlyFails_bind.mpr ⟨?_, fun _ _ => onlyFails_pure⟩
  unfold SafetyReceipt.fromDict
  have hparse : ∀ text, OnlyFails Fault.Caught (SafetyOutcome.parse p text) := by
    intro text
    unfold SafetyOutcome.parse
    split_ifs <;> simp [Fault.Caught, Fault.isOverflow]
  simp [caught_textItem, hparse, caught_dict, caught_items]

/-- A receipt always has a verdict. -/
theorem turn_returns (policy : SafetyPolicy) (clipId : String) (tally : Tally) (raw : Mapping) :
    Returns (tally.turn p now policy clipId raw) := by
  unfold Tally.turn
  cases hread : readReceipt p now raw with
  | ok read => exact ⟨_, rfl⟩
  | error fault =>
    have hcaught : fault.isOverflow = false := caught_readReceipt raw fault hread
    simp [hcaught, Returns]

theorem tally_returns (policy : SafetyPolicy) (clipId : String) (receipts : List Mapping) :
    ∀ tally, Returns (receipts.foldlM (Tally.turn p now policy clipId) tally) := by
  induction receipts with
  | nil => exact fun tally => ⟨tally, rfl⟩
  | cons raw rest ih =>
    intro tally
    obtain ⟨next, hnext⟩ := @turn_returns p now policy clipId tally raw
    rw [List.foldlM_cons, hnext, ok_bind]
    exact ih next

/-- The links of a manifest's chain do not break the loop. -/
def ChainWalkable (p : Platform) (now : String) (manifest : ClipManifest) : Prop :=
  manifest.HasChain → ∀ chain, manifest.links.mapM (RawLink.materialize p) = .ok chain →
    Walkable p now (some manifest.asset.clipId) chain

theorem onlyFails_manifestChain {manifest : ClipManifest} :
    OnlyFails IsProvenance (manifest.verifyChain p now) ↔
      ∀ chain, manifest.links.mapM (RawLink.materialize p) = .ok chain →
        Walkable p now (some manifest.asset.clipId) chain :=
  onlyFails_verifyChain

theorem validateChain_returns {manifest : ClipManifest} :
    Returns (validateChain p now manifest) ↔ ChainWalkable p now manifest := by
  unfold validateChain ChainWalkable
  by_cases hchain : manifest.HasChain
  · rw [if_pos hchain]
    simp only [hchain, true_implies]
    rw [← onlyFails_manifestChain]
    cases manifest.verifyChain p now with
    | ok verification => exact iff_of_true ⟨_, rfl⟩ onlyFails_ok
    | error fault => cases fault <;> simp [Returns, IsProvenance]
  · rw [if_neg hchain]
    simp [Returns, hchain]

theorem validateContent_total {policy : SafetyPolicy} {manifest : ClipManifest} :
    Returns (validateContent p now policy signed manifest) ↔ ChainWalkable p now manifest := by
  obtain ⟨tally, htally⟩ := @tally_returns p now policy manifest.asset.clipId
    manifest.safetyReceipts ⟨headErrors signed manifest, [], 0, 0, 0⟩
  unfold validateContent
  rw [htally, ok_bind, ← validateChain_returns]
  cases validateChain p now manifest <;> simp [Returns, pure, Except.pure]

theorem onlyFails_signature (hsort : signed.payload.Sortable) :
    OnlyFails (fun fault => ∃ text, fault = .signatureError text)
      (verifySignedPayload p signed) := by
  simp [verifySignedPayload, Mapping.document, hsort]

/-- **When there is a verdict** on a manifest whose payload is an object. -/
theorem validateManifest_total {policy : SafetyPolicy} (hobject : signed.payload.Named) :
    Returns (validateManifest p now policy signed) ↔
      (verifySignedPayload p signed = .ok ⟨⟩ → AssetConverts p signed.payload ∧
        ∀ manifest, ClipManifest.fromPayload p now signed.payload = .ok manifest →
          ChainWalkable p now manifest) := by
  unfold validateManifest
  cases hverified : verifySignedPayload p signed with
  | error fault =>
    have hsignature : ∃ text, fault = .signatureError text :=
      onlyFails_signature (Or.inr (Or.inl hobject)) fault hverified
    obtain ⟨text, rfl⟩ := hsignature
    simp [Returns]
  | ok u =>
    have hcaught : OnlyFails Fault.Caught (ClipManifest.fromPayload p now signed.payload) ↔
      AssetConverts p signed.payload := caught_clipManifest
    rw [← hcaught]
    cases hread : ClipManifest.fromPayload p now signed.payload with
    | ok manifest => simp [validateContent_total]
    | error fault =>
      by_cases hoverflow : fault.isOverflow = true
      · simp [Returns, hoverflow, Fault.Caught]
      · simp [Returns, hoverflow, Fault.Caught]

end Manifests
