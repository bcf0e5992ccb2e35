import Mathlib.Data.Finset.Card

/-!
# Quorum intersection

A roster of members, some of them faulty, and a quorum size.  When the faulty
members are too few to fill the overlap of two quorums,

* `Overlapping.common` — two quorums share a correct member;
* `Overlapping.correct` — one quorum has a correct member;
* `overlapping_two_thirds` — quorums of more than two thirds overlap when fewer
  than a third of the members are faulty.
-/

namespace Quorum

variable {α : Type*}

/-- Two quorums of the roster overlap in more members than are faulty. -/
def Overlapping (members : Finset α) (faulty : α → Prop) [DecidablePred faulty]
    (quorum : Nat) : Prop :=
  members.card + (members.filter faulty).card < 2 * quorum

variable {members : Finset α} {faulty : α → Prop} [DecidablePred faulty] {quorum : Nat}

theorem exists_correct {a : Finset α} (hsub : a ⊆ members)
    (hcard : (members.filter faulty).card < a.card) : ∃ x ∈ a, ¬ faulty x := by
  obtain ⟨x, hx, hnot⟩ := Finset.exists_mem_notMem_of_card_lt_card hcard
  refine ⟨x, hx, fun hfaulty => hnot ?_⟩
  exact Finset.mem_filter.mpr ⟨hsub hx, hfaulty⟩

/-- **A quorum has a correct member.** -/
theorem Overlapping.correct (h : Overlapping members faulty quorum) {a : Finset α}
    (hsub : a ⊆ members) (hcard : quorum ≤ a.card) : ∃ x ∈ a, ¬ faulty x := by
  have hle := Finset.card_le_card hsub
  unfold Overlapping at h
  exact exists_correct hsub (by omega)

/-- **Two quorums share a correct member.** -/
theorem Overlapping.common [DecidableEq α] (h : Overlapping members faulty quorum)
    {a b : Finset α} (ha : a ⊆ members) (hb : b ⊆ members) (hacard : quorum ≤ a.card)
    (hbcard : quorum ≤ b.card) : ∃ x ∈ a, x ∈ b ∧ ¬ faulty x := by
  have hunion : (a ∪ b).card ≤ members.card := Finset.card_le_card (Finset.union_subset ha hb)
  have hsum := Finset.card_union_add_card_inter a b
  unfold Overlapping at h
  have hcard : (members.filter faulty).card < (a ∩ b).card := by omega
  obtain ⟨x, hx, hcorrect⟩ := exists_correct (Finset.inter_subset_left.trans ha) hcard
  exact ⟨x, (Finset.mem_inter.mp hx).1, (Finset.mem_inter.mp hx).2, hcorrect⟩

/-- **More than two thirds overlap** when fewer than a third are faulty. -/
theorem overlapping_two_thirds (hpos : 0 < members.card)
    (hfaulty : (members.filter faulty).card ≤ (members.card - 1) / 3) :
    Overlapping members faulty (members.card * 2 / 3 + 1) := by
  unfold Overlapping
  omega

end Quorum
