import AlkanesIndexer.TraceEvents

/-!
# What the searches select

The searches of the sorting decoders run over the positions behind an invoke in
the sorted list.  This file says what they find in terms of these positions: the
admissible return of least score, the latest on a tie, or simply the first one.
-/

namespace AlkanesIndexer

open Sequences

/-- A return at the sorted position `j`, behind the position `i` of an invoke and
on its vout. -/
structure LaterReturn
    (ordered : List PlacedEvent)
    (i : ℕ)
    (vout : ℤ)
    (j : ℕ)
    (ret : JsonValue) : Prop where
  behind : i < j
  placed : (ordered[j]?).map Prod.fst = some ret
  onVout : isReturnOn vout ret = true

structure BestReturn
    {β : Type*}
    [LinearOrder β]
    (Admissible : JsonValue → Prop)
    (score : JsonValue → β)
    (ordered : List PlacedEvent)
    (i : ℕ)
    (vout : ℤ)
    (j : ℕ)
    (ret : JsonValue) : Prop where
  later : LaterReturn ordered i vout j ret
  admissible : Admissible ret
  best : ∀ j' ret', LaterReturn ordered i vout j' ret' → Admissible ret' →
    score ret < score ret' ∨ score ret = score ret' ∧ j' ≤ j

structure FirstReturn
    (Admissible : JsonValue → Prop)
    (ordered : List PlacedEvent)
    (i : ℕ)
    (vout : ℤ)
    (j : ℕ)
    (ret : JsonValue) : Prop where
  later : LaterReturn ordered i vout j ret
  admissible : Admissible ret
  first : ∀ j' ret', LaterReturn ordered i vout j' ret' → Admissible ret' → j ≤ j'

variable {ordered : List PlacedEvent} {i : ℕ} {vout : ℤ}

theorem mem_laterEvents
    {candidate : Candidate} :
    candidate ∈ laterEvents ordered i ↔
      i < candidate.2 ∧ ordered[candidate.2]? = some candidate.1 :=
  mem_drop_zipIdx

theorem laterReturn_iff
    {j : ℕ}
    {ret : JsonValue} :
    LaterReturn ordered i vout j ret ↔
      ∃ k, ((ret, k), j) ∈ laterEvents ordered i ∧ isReturnOn vout ret = true := by
  constructor
  · intro hlater
    obtain ⟨placed, hplaced, hret⟩ := Option.map_eq_some_iff.mp hlater.placed
    refine ⟨placed.2, mem_laterEvents.mpr ⟨hlater.behind, ?_⟩, hlater.onVout⟩
    rw [hplaced, ← hret]
  · intro hmem
    obtain ⟨k, hmem, hvout⟩ := hmem
    obtain ⟨hbehind, hplaced⟩ := mem_laterEvents.mp hmem
    refine ⟨hbehind, ?_, hvout⟩
    rw [hplaced]
    rfl

theorem eq_of_mem_laterEvents
    {left right : Candidate}
    (hleft : left ∈ laterEvents ordered i)
    (hright : right ∈ laterEvents ordered i)
    (hposition : left.2 = right.2) :
    left = right := by
  have hat := (mem_laterEvents.mp hleft).2
  rw [hposition, (mem_laterEvents.mp hright).2] at hat
  exact Prod.ext (Option.some.inj hat).symm hposition

/-- A return that an invoke can be credited with. -/
def reachable
    (ordered : List PlacedEvent)
    (i : ℕ)
    (vout : ℤ)
    (admissible : JsonValue → Bool) : List Candidate :=
  (laterEvents ordered i).filter fun candidate =>
    isReturnOn vout candidate.1.1 && admissible candidate.1.1

theorem mem_reachable_iff
    {admissible : JsonValue → Bool}
    {candidate : Candidate} :
    candidate ∈ reachable ordered i vout admissible ↔
      candidate ∈ laterEvents ordered i ∧
        LaterReturn ordered i vout candidate.2 candidate.1.1 ∧
          admissible candidate.1.1 = true := by
  unfold reachable
  rw [List.mem_filter, Bool.and_eq_true]
  refine and_congr_right fun hmem => and_congr_left fun _ => ?_
  rw [laterReturn_iff]
  constructor
  · intro hvout
    exact ⟨candidate.1.2, hmem, hvout⟩
  · intro hlater
    obtain ⟨_, _, hvout⟩ := hlater
    exact hvout

section Best

variable
  {β : Type*}
  [LinearOrder β]
  {admissible : JsonValue → Bool}
  {better : JsonValue × ℕ → JsonValue × ℕ → Bool}
  {score : JsonValue → β}

variable (score) in
theorem bestReturn_eq_argmin
    (hbetter : ∀ candidate best, better candidate best = true ↔
      score candidate.1 < score best.1 ∨
        score candidate.1 = score best.1 ∧ best.2 < candidate.2) :
    bestReturn ordered i vout admissible better =
      (reachable ordered i vout admissible).argmin fun candidate =>
        toLex (score candidate.1.1, OrderDual.toDual candidate.2) := by
  unfold bestReturn reachable
  apply choose_eq_argmin
  intro candidate best
  rw [hbetter, Prod.Lex.toLex_lt_toLex, OrderDual.toDual_lt_toDual]

theorem bestReturn_eq_some_iff
    (hbetter : ∀ candidate best, better candidate best = true ↔
      score candidate.1 < score best.1 ∨
        score candidate.1 = score best.1 ∧ best.2 < candidate.2)
    {j : ℕ}
    {ret : JsonValue} :
    (∃ k, bestReturn ordered i vout admissible better = some ((ret, k), j)) ↔
      BestReturn (fun ret => admissible ret = true) score ordered i vout j ret := by
  have hinj : ∀ left ∈ reachable ordered i vout admissible,
      ∀ right ∈ reachable ordered i vout admissible,
        toLex (score left.1.1, OrderDual.toDual left.2) =
          toLex (score right.1.1, OrderDual.toDual right.2) → left = right := by
    intro left hleft right hright hkey
    rw [toLex_inj, Prod.mk.injEq, OrderDual.toDual_inj] at hkey
    have hposition := hkey.2
    exact eq_of_mem_laterEvents (mem_reachable_iff.mp hleft).1 (mem_reachable_iff.mp hright).1
      hposition
  have hle : ∀ (s s' : β) (n n' : ℕ),
      toLex (s, OrderDual.toDual n) ≤ toLex (s', OrderDual.toDual n') ↔
        s < s' ∨ s = s' ∧ n' ≤ n := by
    intro s s' n n'
    rw [Prod.Lex.toLex_le_toLex, OrderDual.toDual_le_toDual]
  rw [bestReturn_eq_argmin score hbetter]
  simp only [argmin_eq_some_iff_of_injOn hinj, hle]
  constructor
  · intro hfound
    obtain ⟨k, hmem, hbest⟩ := hfound
    obtain ⟨_, hlater, hadmissible⟩ := mem_reachable_iff.mp hmem
    refine ⟨hlater, hadmissible, fun j' ret' hlater' hadmissible' => ?_⟩
    obtain ⟨k', hmem', _⟩ := laterReturn_iff.mp hlater'
    exact hbest ((ret', k'), j') (mem_reachable_iff.mpr ⟨hmem', hlater', hadmissible'⟩)
  · intro hbest
    obtain ⟨k, hmem, _⟩ := laterReturn_iff.mp hbest.later
    refine ⟨k, mem_reachable_iff.mpr ⟨hmem, hbest.later, hbest.admissible⟩, ?_⟩
    intro other hother
    obtain ⟨_, hlater', hadmissible'⟩ := mem_reachable_iff.mp hother
    exact hbest.best other.2 other.1.1 hlater' hadmissible'

theorem bestReturn_isSome_iff
    (score : JsonValue → β)
    (hbetter : ∀ candidate best, better candidate best = true ↔
      score candidate.1 < score best.1 ∨
        score candidate.1 = score best.1 ∧ best.2 < candidate.2) :
    (bestReturn ordered i vout admissible better).isSome = true ↔
      ∃ j ret, LaterReturn ordered i vout j ret ∧ admissible ret = true := by
  rw [bestReturn_eq_argmin score hbetter, Option.isSome_iff_ne_none, ne_eq, List.argmin_eq_none,
    List.eq_nil_iff_forall_not_mem]
  push Not
  constructor
  · intro hsome
    obtain ⟨candidate, hmem⟩ := hsome
    obtain ⟨_, hlater, hadmissible⟩ := mem_reachable_iff.mp hmem
    exact ⟨candidate.2, candidate.1.1, hlater, hadmissible⟩
  · intro hsome
    obtain ⟨j, ret, hlater, hadmissible⟩ := hsome
    obtain ⟨k, hmem, _⟩ := laterReturn_iff.mp hlater
    exact ⟨((ret, k), j), mem_reachable_iff.mpr ⟨hmem, hlater, hadmissible⟩⟩

end Best

theorem firstReturn_eq_some_iff
    {admissible : JsonValue → Bool}
    {j : ℕ}
    {ret : JsonValue} :
    (∃ k, firstReturn ordered i vout admissible = some ((ret, k), j)) ↔
      FirstReturn (fun ret => admissible ret = true) ordered i vout j ret := by
  have hargmin : firstReturn ordered i vout admissible =
      (reachable ordered i vout admissible).argmin Prod.snd :=
    find?_eq_argmin _ Prod.snd _ (laterEvents_pairwise ordered i)
  have hinj : ∀ left ∈ reachable ordered i vout admissible,
      ∀ right ∈ reachable ordered i vout admissible, left.2 = right.2 → left = right := by
    intro left hleft right hright hposition
    exact eq_of_mem_laterEvents (mem_reachable_iff.mp hleft).1 (mem_reachable_iff.mp hright).1
      hposition
  rw [hargmin]
  simp only [argmin_eq_some_iff_of_injOn hinj]
  constructor
  · intro hfound
    obtain ⟨k, hmem, hfirst⟩ := hfound
    obtain ⟨_, hlater, hadmissible⟩ := mem_reachable_iff.mp hmem
    refine ⟨hlater, hadmissible, fun j' ret' hlater' hadmissible' => ?_⟩
    obtain ⟨k', hmem', _⟩ := laterReturn_iff.mp hlater'
    exact hfirst ((ret', k'), j') (mem_reachable_iff.mpr ⟨hmem', hlater', hadmissible'⟩)
  · intro hfirst
    obtain ⟨k, hmem, _⟩ := laterReturn_iff.mp hfirst.later
    refine ⟨k, mem_reachable_iff.mpr ⟨hmem, hfirst.later, hfirst.admissible⟩, ?_⟩
    intro other hother
    obtain ⟨_, hlater', hadmissible'⟩ := mem_reachable_iff.mp hother
    exact hfirst.first other.2 other.1.1 hlater' hadmissible'

end AlkanesIndexer
