import AlkanesIndexer.LiquidityRows
import AlkanesIndexer.Pipeline

/-!
# Which pool creations are detected

A creation takes the return which mints LP tokens and returns the fewest tokens,
and is passed over if this one return does not leave a positive amount of both
tokens.  Another return which would do so is then not looked at.
-/

namespace AlkanesIndexer.PoolCreation

open LiquidityDecoder (returnTotals)

variable
  (ordered : List PlacedEvent)
  (tokens : AlkaneId × AlkaneId)
  (i : ℕ)
  (invoke : JsonValue)

/-- The return at sorted position `j` which a creation is read off. -/
def PreferredReturn (j : ℕ) (ret : JsonValue) : Prop :=
  BestReturn
    (fun ret => (returnTotals tokens invoke ret).lpOut > (returnTotals tokens invoke ret).lpIn)
    (fun ret => toLex ((returnTotals tokens invoke ret).t0Out,
      (returnTotals tokens invoke ret).t1Out))
    ordered i (invokeVout invoke) j ret

def PaysBoth (ret : JsonValue) : Prop :=
  (returnTotals tokens invoke ret).t0In > (returnTotals tokens invoke ret).t0Out ∧
    (returnTotals tokens invoke ret).t1In > (returnTotals tokens invoke ret).t1Out

def creationFrom (ret : JsonValue) : DecodedPoolCreation :=
  let totals := returnTotals tokens invoke ret
  { pool := poolIdOf invoke
    token0 := tokens.1
    token1 := tokens.2
    token0Amount := toString (totals.t0In - totals.t0Out)
    token1Amount := toString (totals.t1In - totals.t1Out)
    tokenSupply := toString (totals.lpOut - totals.lpIn)
    creatorAddress := none }

variable {ordered tokens i invoke}

theorem chosenReturn_eq_some_iff
    {j : ℕ}
    {ret : JsonValue} :
    (∃ k, chosenReturn tokens ordered i invoke = some ((ret, k), j)) ↔
      PreferredReturn ordered tokens i invoke j ret := by
  have hmints : (fun ret => (returnTotals tokens invoke ret).lpOut >
        (returnTotals tokens invoke ret).lpIn) =
      fun ret => mintsLp invoke ret = true := by
    funext ret
    simp only [mintsLp, Bool.not_eq_true', decide_eq_false_iff_not, not_le]
    rfl
  have ht0 : ∀ ret, tokenTotal (responseAlkanes ret) tokens.1 =
      (returnTotals tokens invoke ret).t0Out := fun _ => rfl
  have ht1 : ∀ ret, tokenTotal (responseAlkanes ret) tokens.2 =
      (returnTotals tokens invoke ret).t1Out := fun _ => rfl
  unfold PreferredReturn
  rw [hmints]
  apply bestReturn_eq_some_iff
  intro candidate best
  simp only [better, ht0, ht1, Bool.or_eq_true, Bool.and_eq_true, decide_eq_true_eq,
    Prod.Lex.toLex_lt_toLex, toLex_inj, Prod.mk.injEq]
  omega

theorem creationOf_eq_some_iff
    {ret : JsonValue}
    {creation : DecodedPoolCreation}
    (hmints : (returnTotals tokens invoke ret).lpOut > (returnTotals tokens invoke ret).lpIn) :
    creationOf tokens invoke ret = some creation ↔
      PaysBoth tokens invoke ret ∧ creation = creationFrom tokens invoke ret := by
  have hguard : creationOf tokens invoke ret =
      if (returnTotals tokens invoke ret).t0In - (returnTotals tokens invoke ret).t0Out = 0 ∨
          (returnTotals tokens invoke ret).t1In - (returnTotals tokens invoke ret).t1Out = 0 ∨
          (returnTotals tokens invoke ret).lpOut - (returnTotals tokens invoke ret).lpIn = 0 then
        none
      else some (creationFrom tokens invoke ret) := by
    unfold creationOf
    simp only [Bool.or_eq_true, decide_eq_true_eq, or_assoc]
    rfl
  rw [hguard]
  unfold PaysBoth
  split
  · next hzero =>
    constructor
    · intro hnone
      cases hnone
    · intro hpays
      omega
  · next hpositive =>
    rw [Option.some.injEq, eq_comm]
    constructor
    · intro heq
      exact ⟨by omega, heq⟩
    · intro hpays
      exact hpays.2

/-- A candidate is emitted exactly when its preferred return leaves a positive
amount of both tokens, with the amounts of that return. -/
theorem creationAt_eq_some_iff
    {found : DecodedPoolCreation × ℤ} :
    creationAt ordered invoke i = some found ↔
      isDelegateInvokeCreate invoke = true ∧ namesPool (poolIdOf invoke) = true ∧
        ∃ tokens, creationTokens invoke = some tokens ∧
          ∃ j ret, PreferredReturn ordered tokens i invoke j ret ∧
            PaysBoth tokens invoke ret ∧
            found = (creationFrom tokens invoke ret, invokeVout invoke) := by
  unfold creationAt
  rw [Option.ite_none_right_eq_some, Bool.and_eq_true, and_assoc]
  refine and_congr_right fun _ => and_congr_right fun _ => ?_
  rw [Option.bind_eq_some_iff]
  refine exists_congr fun tokens => and_congr_right fun _ => ?_
  rw [Option.bind_eq_some_iff]
  constructor
  · intro hchosen
    obtain ⟨⟨⟨ret, k⟩, j⟩, hsearch, hcreation⟩ := hchosen
    obtain ⟨creation, hcreation, hfound⟩ := Option.map_eq_some_iff.mp hcreation
    have hpreferred := chosenReturn_eq_some_iff.mp ⟨k, hsearch⟩
    obtain ⟨hpays, heq⟩ := (creationOf_eq_some_iff hpreferred.admissible).mp hcreation
    rw [heq] at hfound
    exact ⟨j, ret, hpreferred, hpays, hfound.symm⟩
  · intro hpreferred
    obtain ⟨j, ret, hpreferred, hpays, rfl⟩ := hpreferred
    obtain ⟨k, hsearch⟩ := chosenReturn_eq_some_iff.mpr hpreferred
    refine ⟨_, hsearch, ?_⟩
    rw [(creationOf_eq_some_iff hpreferred.admissible).mpr ⟨hpays, rfl⟩]
    rfl

/-- What is detected in the events of a transaction: in the sorted order, one
creation for each candidate whose preferred return leaves a positive amount of
both tokens. -/
theorem detected_iff_preferred
    (events : List JsonValue) :
    detectPoolCreationsForTx events =
        (orderedEvents events).zipIdx.filterMap
          (fun placed => creationAt (orderedEvents events) placed.1.1 placed.2) ∧
      ∀ i invoke found, creationAt (orderedEvents events) invoke i = some found ↔
        isDelegateInvokeCreate invoke = true ∧ namesPool (poolIdOf invoke) = true ∧
          ∃ tokens, creationTokens invoke = some tokens ∧
            ∃ j ret, PreferredReturn (orderedEvents events) tokens i invoke j ret ∧
              PaysBoth tokens invoke ret ∧
              found = (creationFrom tokens invoke ret, invokeVout invoke) :=
  ⟨rfl, fun _ _ _ => creationAt_eq_some_iff⟩

/-! ## A return in the shadow of another -/

/-- Every candidate with a return that mints LP tokens and leaves a positive amount
of both tokens is emitted, with the amounts of such a return. -/
def DetectionComplete (events : List JsonValue) : Prop :=
  ∀ i invoke tokens, ((orderedEvents events)[i]?).map Prod.fst = some invoke →
    isDelegateInvokeCreate invoke = true → namesPool (poolIdOf invoke) = true →
    creationTokens invoke = some tokens →
    ((∃ found, creationAt (orderedEvents events) invoke i = some found) ↔
      ∃ j ret, LaterReturn (orderedEvents events) i (invokeVout invoke) j ret ∧
        mintRule.Admissible (returnTotals tokens invoke ret)) ∧
    ∀ found, creationAt (orderedEvents events) invoke i = some found →
      ∃ j ret, LaterReturn (orderedEvents events) i (invokeVout invoke) j ret ∧
        mintRule.Admissible (returnTotals tokens invoke ret) ∧
        found = (creationFrom tokens invoke ret, invokeVout invoke)

/-- The first return gives all of token 1 back and nothing of token 0, the second
one a little of token 0. -/
def shadowedCreation : List JsonValue :=
  eventsOfTrace 3 [
    invokeTrace ("0x2", "0xa") "0x0" [alkaneEntry ("0x2", "0x0") 100,
      alkaneEntry ("0x20", "0x0") 50],
    returnTrace [alkaneEntry ("0x2", "0xa") 10, alkaneEntry ("0x20", "0x0") 50],
    returnTrace [alkaneEntry ("0x2", "0xa") 10, alkaneEntry ("0x2", "0x0") 1]]

set_option maxRecDepth 4000 in
theorem shadowedCreation_not_detected :
    ¬ ∀ events, DetectionComplete events := by
  intro hall
  have hcomplete := (hall shadowedCreation 0 shadowedCreation[0] (("2", "0"), ("32", "0"))
    (by decide) (by decide) (by decide) (by decide)).1
  have hnone : creationAt (orderedEvents shadowedCreation) shadowedCreation[0] 0 = none := by
    decide
  have hvalid : ∃ j ret, LaterReturn (orderedEvents shadowedCreation) 0
        (invokeVout shadowedCreation[0]) j ret ∧
      mintRule.Admissible (returnTotals (("2", "0"), ("32", "0")) shadowedCreation[0] ret) :=
    ⟨2, shadowedCreation[2], ⟨by decide, by decide, by decide⟩, by decide, by decide, by decide⟩
  obtain ⟨found, hfound⟩ := hcomplete.mpr hvalid
  rw [hnone] at hfound
  cases hfound

end AlkanesIndexer.PoolCreation
