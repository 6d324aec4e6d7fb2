import Mathlib.Data.Finset.Card
import Mathlib.Data.Set.Finite.Basic
import Mathlib.Tactic

/-!
# Permits and their holders

A pool has a number of permits, some of which are free.  Which members hold one is only
known member by member, so it is said of a predicate that finitely many members hold a
permit each and that with the free ones there are as many as at the start.  Nothing here
depends on the indexer.
-/

namespace PermitPool

variable {ι : Type*}

/-- Each of the members that hold a permit holds one, the others are free, and the pool
has `total` of them. -/
def Accounted (holds : ι → Prop) (free total : ℕ) : Prop :=
  ∃ holders : Finset ι, (∀ member, member ∈ holders ↔ holds member) ∧
    holders.card + free = total

section Accounted

variable {holds holds' : ι → Prop} {free free' total : ℕ} {member : ι}

theorem accounted_start
    (hnone : ∀ member, ¬ holds member) :
    Accounted holds total total :=
  ⟨∅, fun member => by simp [hnone member], by simp⟩

theorem Accounted.congr
    (haccounted : Accounted holds free total)
    (hsame : ∀ member, holds' member ↔ holds member) :
    Accounted holds' free total := by
  obtain ⟨holders, hholders, hcard⟩ := haccounted
  exact ⟨holders, fun member => (hholders member).trans (hsame member).symm, hcard⟩

theorem Accounted.take
    (haccounted : Accounted holds (free + 1) total)
    (hbefore : ¬ holds member)
    (hafter : holds' member)
    (hothers : ∀ other ≠ member, holds' other ↔ holds other) :
    Accounted holds' free total := by
  classical
  obtain ⟨holders, hholders, hcard⟩ := haccounted
  have hfresh : member ∉ holders := fun hmem => hbefore ((hholders member).mp hmem)
  refine ⟨insert member holders, fun other => ?_, ?_⟩
  · rw [Finset.mem_insert]
    by_cases hother : other = member
    · simp [hother, hafter]
    · rw [hholders other, hothers other hother]
      simp [hother]
  · rw [Finset.card_insert_of_notMem hfresh]
    omega

theorem Accounted.give
    (haccounted : Accounted holds free total)
    (hbefore : holds member)
    (hafter : ¬ holds' member)
    (hothers : ∀ other ≠ member, holds' other ↔ holds other) :
    Accounted holds' (free + 1) total := by
  classical
  obtain ⟨holders, hholders, hcard⟩ := haccounted
  have hheld : member ∈ holders := (hholders member).mpr hbefore
  refine ⟨holders.erase member, fun other => ?_, ?_⟩
  · rw [Finset.mem_erase]
    by_cases hother : other = member
    · simp [hother, hafter]
    · rw [hholders other, hothers other hother]
      simp [hother]
  · have hpositive : 0 < holders.card := Finset.card_pos.mpr ⟨member, hheld⟩
    rw [Finset.card_erase_of_mem hheld]
    omega

theorem Accounted.free_of_none
    (haccounted : Accounted holds free total)
    (hnone : ∀ member, ¬ holds member) :
    free = total := by
  obtain ⟨holders, hholders, hcard⟩ := haccounted
  have hempty : holders = ∅ :=
    Finset.eq_empty_of_forall_notMem fun member hmem => hnone member ((hholders member).mp hmem)
  rwa [hempty, Finset.card_empty, Nat.zero_add] at hcard

/-- Of any members that hold a permit there are at most as many as permits. -/
theorem Accounted.card_le
    (haccounted : Accounted holds free total)
    {members : Finset ι}
    (hmembers : ∀ member ∈ members, holds member) :
    members.card ≤ total - free := by
  obtain ⟨holders, hholders, hcard⟩ := haccounted
  have hsubset : members ⊆ holders := fun member hmem =>
    (hholders member).mpr (hmembers member hmem)
  have hle := Finset.card_le_card hsubset
  omega

end Accounted

end PermitPool
