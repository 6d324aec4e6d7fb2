import AlkanesIndexer.PoolLiquidity
import AlkanesIndexer.ReturnSelection

/-!
# The rows of mints and burns

A mint or a burn is described by a rule on token totals: which returns are
admissible for an invoke, which of them is the best, and what the row then holds.
Both decoders follow their rule on every list of events.
-/

namespace AlkanesIndexer

open Sequences
open LiquidityDecoder (returnTotals)

/-- `Settles` is about the LP tokens an invoke brings: a row is successful only if
they are as the rule wants them. -/
structure LiquidityRule where
  opcode : ℕ
  Admissible : LiquidityTotals → Prop
  score : LiquidityTotals → ℕ ×ₗ ℕ
  Settles : ℕ → Prop
  lpAmount : LiquidityTotals → ℕ
  token0Amount : LiquidityTotals → ℕ
  token1Amount : LiquidityTotals → ℕ

/-- LP tokens are received and both tokens are paid; few tokens are returned. -/
def mintRule : LiquidityRule where
  opcode := 1
  Admissible totals :=
    totals.lpOut > totals.lpIn ∧ totals.t0In > totals.t0Out ∧ totals.t1In > totals.t1Out
  score totals := toLex (totals.t0Out, totals.t1Out)
  Settles _ := True
  lpAmount totals := totals.lpOut - totals.lpIn
  token0Amount totals := totals.t0In - totals.t0Out
  token1Amount totals := totals.t1In - totals.t1Out

/-- Both tokens are received and, if there are any, LP tokens are paid; few LP
tokens are returned. -/
def burnRule : LiquidityRule where
  opcode := 2
  Admissible totals :=
    totals.t0Out > totals.t0In ∧ totals.t1Out > totals.t1In ∧
      (totals.lpIn = 0 ∨ totals.lpOut < totals.lpIn)
  score totals := toLex (totals.lpOut, 0)
  Settles lpIn := lpIn > 0
  lpAmount totals := totals.lpIn - totals.lpOut
  token0Amount totals := totals.t0Out - totals.t0In
  token1Amount totals := totals.t1Out - totals.t1In

/-- The sorted delegatecall invokes with an opcode which name a pool of the map,
each with its position. -/
def liquidityInvokes
    (opcode : ℕ)
    (tokenMap : TokenMap)
    (events : List JsonValue) : List (PlacedEvent × ℕ) :=
  (orderedEvents events).zipIdx.filter fun placed =>
    isDelegateInvoke (fun text => hexToU128 text = some opcode) placed.1.1 &&
      namesPool (poolIdOf placed.1.1) && (tokenMap (poolIdOf placed.1.1)).isSome

namespace LiquidityRule

variable
  (rule : LiquidityRule)
  (ordered : List PlacedEvent)
  (tokens : AlkaneId × AlkaneId)
  (i : ℕ)
  (invoke : JsonValue)

/-- The row of an invoke at sorted position `i`. -/
structure Row (row : LiquidityRow) : Prop where
  pool : row.pool = poolIdOf invoke
  token0 : row.token0 = tokens.1
  token1 : row.token1 = tokens.2
  successful_iff : row.successful = true ↔
    (∃ j ret, LaterReturn ordered i (invokeVout invoke) j ret ∧
      rule.Admissible (returnTotals tokens invoke ret)) ∧
    rule.Settles (calculateTokenTotal (incomingAlkanes invoke) (poolIdOf invoke).1
      (poolIdOf invoke).2)
  amounts : row.successful = true → ∃ j ret,
    BestReturn (fun ret => rule.Admissible (returnTotals tokens invoke ret))
      (fun ret => rule.score (returnTotals tokens invoke ret)) ordered i (invokeVout invoke) j ret ∧
    row.lpTokenAmount = toString (rule.lpAmount (returnTotals tokens invoke ret)) ∧
      row.token0Amount = toString (rule.token0Amount (returnTotals tokens invoke ret)) ∧
      row.token1Amount = toString (rule.token1Amount (returnTotals tokens invoke ret))
  zeros : row.successful = false →
    row.lpTokenAmount = "0" ∧ row.token0Amount = "0" ∧ row.token1Amount = "0"

end LiquidityRule

/-- The decoder tests what the rule says. -/
structure LiquidityDecoder.Follows
    (decoder : LiquidityDecoder)
    (rule : LiquidityRule) : Prop where
  isCandidate : decoder.isCandidate =
    isDelegateInvoke fun text => hexToU128 text = some rule.opcode
  admits : ∀ totals, decoder.admits totals = true ↔ rule.Admissible totals
  better : ∀ candidate best : LiquidityTotals × ℕ, decoder.better candidate best = true ↔
    rule.score candidate.1 < rule.score best.1 ∨
      rule.score candidate.1 = rule.score best.1 ∧ best.2 < candidate.2
  valid : ∀ totals, rule.Admissible totals →
    (rule.token0Amount totals > 0 ∧ rule.token1Amount totals > 0 ∧ rule.lpAmount totals > 0 ↔
      rule.Settles totals.lpIn)
  lpAmount : decoder.lpAmount = rule.lpAmount
  token0Amount : decoder.token0Amount = rule.token0Amount
  token1Amount : decoder.token1Amount = rule.token1Amount

theorem mintDecoder_follows :
    mintDecoder.Follows mintRule where
  isCandidate := rfl
  admits totals := by
    simp only [mintDecoder, mintRule, Bool.and_eq_true, Bool.not_eq_true', Bool.or_eq_false_iff,
      decide_eq_false_iff_not]
    omega
  better candidate best := by
    simp only [mintDecoder, mintRule, Bool.or_eq_true, Bool.and_eq_true, decide_eq_true_eq,
      Prod.Lex.toLex_lt_toLex, toLex_inj, Prod.mk.injEq]
    omega
  valid totals hadmissible := by
    simp only [mintRule, iff_true] at hadmissible ⊢
    omega
  lpAmount := rfl
  token0Amount := rfl
  token1Amount := rfl

theorem burnDecoder_follows :
    burnDecoder.Follows burnRule where
  isCandidate := rfl
  admits totals := by
    simp only [burnDecoder, burnRule, Bool.and_eq_true, Bool.not_eq_true', Bool.or_eq_false_iff,
      Bool.and_eq_false_iff, decide_eq_false_iff_not]
    omega
  better candidate best := by
    simp [burnDecoder, burnRule, Prod.Lex.toLex_lt_toLex]
  valid totals hadmissible := by
    simp only [burnRule] at hadmissible ⊢
    omega
  lpAmount := rfl
  token0Amount := rfl
  token1Amount := rfl

section Rows

variable
  {decoder : LiquidityDecoder}
  {rule : LiquidityRule}
  {tokens : AlkaneId × AlkaneId}
  {ordered : List PlacedEvent}
  {i : ℕ}
  {invoke : JsonValue}

/-- What the row of an invoke holds, given the return chosen for it. -/
theorem liquidityRow_of_chosen
    (decoded : DecodedByTxVout)
    (height : ℕ)
    (input : TxInput)
    {ret : JsonValue}
    {k j : ℕ}
    (hchosen : decoder.chosenReturn tokens ordered i invoke = some ((ret, k), j)) :
    let row := decoder.liquidityRow decoded height input tokens ordered i invoke
    let totals := returnTotals tokens invoke ret
    (row.successful = true ↔ decoder.token0Amount totals > 0 ∧ decoder.token1Amount totals > 0 ∧
      decoder.lpAmount totals > 0) ∧
    row.lpTokenAmount = (if row.successful then toString (decoder.lpAmount totals) else "0") ∧
    row.token0Amount = (if row.successful then toString (decoder.token0Amount totals) else "0") ∧
    row.token1Amount =
      if row.successful then toString (decoder.token1Amount totals) else "0" := by
  simp only [LiquidityDecoder.liquidityRow, hchosen, Option.isSome_some, Bool.true_and,
    Bool.and_eq_true, decide_eq_true_eq, and_assoc]
  exact ⟨Iff.rfl, rfl, rfl, rfl⟩

variable (hfollows : decoder.Follows rule)

include hfollows

theorem chosenReturn_eq_some_iff
    {j : ℕ}
    {ret : JsonValue} :
    (∃ k, decoder.chosenReturn tokens ordered i invoke = some ((ret, k), j)) ↔
      BestReturn (fun ret => rule.Admissible (returnTotals tokens invoke ret))
        (fun ret => rule.score (returnTotals tokens invoke ret)) ordered i (invokeVout invoke)
        j ret := by
  have hadmits : (fun ret => rule.Admissible (returnTotals tokens invoke ret)) =
      fun ret => decoder.admits (returnTotals tokens invoke ret) = true :=
    funext fun ret => propext (hfollows.admits _).symm
  rw [hadmits]
  exact bestReturn_eq_some_iff fun candidate best =>
    hfollows.better (returnTotals tokens invoke candidate.1, candidate.2)
      (returnTotals tokens invoke best.1, best.2)

variable (tokens ordered i invoke) in
theorem chosenReturn_isSome_iff :
    (decoder.chosenReturn tokens ordered i invoke).isSome = true ↔
      ∃ j ret, LaterReturn ordered i (invokeVout invoke) j ret ∧
        rule.Admissible (returnTotals tokens invoke ret) := by
  simp only [← hfollows.admits]
  exact bestReturn_isSome_iff (fun ret => rule.score (returnTotals tokens invoke ret))
    fun candidate best => hfollows.better (returnTotals tokens invoke candidate.1, candidate.2)
      (returnTotals tokens invoke best.1, best.2)

/-- The totals taken after the selection are those the selection saw, so the second
test only looks at the LP tokens of the invoke. -/
theorem row_of_follows
    (decoded : DecodedByTxVout)
    (height : ℕ)
    (input : TxInput) :
    rule.Row ordered tokens i invoke
      (decoder.liquidityRow decoded height input tokens ordered i invoke) := by
  have hchosen := chosenReturn_isSome_iff tokens ordered i invoke hfollows
  cases hsearch : decoder.chosenReturn tokens ordered i invoke with
  | none =>
      rw [hsearch, Option.isSome_none, Bool.false_eq_true, false_iff] at hchosen
      have hsuccessful : (decoder.liquidityRow decoded height input tokens ordered i
          invoke).successful = false := by
        simp [LiquidityDecoder.liquidityRow, hsearch]
      constructor
      · rfl
      · rfl
      · rfl
      · rw [hsuccessful]
        simp only [hchosen, false_and, Bool.false_eq_true]
      · intro hsuccess
        rw [hsuccessful] at hsuccess
        cases hsuccess
      · intro _
        simp [LiquidityDecoder.liquidityRow, hsearch]
  | some found =>
      obtain ⟨⟨ret, k⟩, j⟩ := found
      have hbest := (chosenReturn_eq_some_iff hfollows).mp ⟨k, hsearch⟩
      have hvalid := hfollows.valid _ hbest.admissible
      obtain ⟨hsuccessful, hlp, htoken0, htoken1⟩ :=
        liquidityRow_of_chosen decoded height input hsearch
      rw [hfollows.token0Amount, hfollows.token1Amount, hfollows.lpAmount, hvalid] at hsuccessful
      rw [hfollows.lpAmount] at hlp
      rw [hfollows.token0Amount] at htoken0
      rw [hfollows.token1Amount] at htoken1
      constructor
      · rfl
      · rfl
      · rfl
      · rw [hsuccessful]
        constructor
        · intro hsettles
          exact ⟨⟨j, ret, hbest.later, hbest.admissible⟩, hsettles⟩
        · intro hboth
          exact hboth.2
      · intro hsuccess
        refine ⟨j, ret, hbest, ?_⟩
        rw [hlp, htoken0, htoken1, if_pos hsuccess, if_pos hsuccess, if_pos hsuccess]
        exact ⟨rfl, rfl, rfl⟩
      · intro hfailed
        rw [hlp, htoken0, htoken1, hfailed]
        exact ⟨rfl, rfl, rfl⟩

/-- One row for each invoke with the opcode of a known pool, in the sorted order. -/
theorem rows_of_follows
    (tokenMap : TokenMap)
    (decoded : DecodedByTxVout)
    (height : ℕ)
    (input : TxInput) :
    List.Forall₂
      (fun placed row => ∃ tokens, tokenMap (poolIdOf placed.1.1) = some tokens ∧
        row.transactionId = input.transactionId ∧
        rule.Row (orderedEvents input.events) tokens placed.2 placed.1.1 row)
      (liquidityInvokes rule.opcode tokenMap input.events)
      (decoder.rowsOfInput tokenMap decoded height input) := by
  unfold liquidityInvokes LiquidityDecoder.rowsOfInput
  apply forall₂_filterMap
  · intro placed _ hnot
    unfold LiquidityDecoder.liquidityRowAt
    rw [hfollows.isCandidate]
    cases htokens : tokenMap (poolIdOf placed.1.1) with
    | none => simp
    | some tokens =>
        rw [htokens, Option.isSome_some, Bool.and_true] at hnot
        rw [if_neg]
        rw [hnot]
        exact Bool.false_ne_true
  · intro placed _ hinvoke
    rw [Bool.and_eq_true] at hinvoke
    obtain ⟨tokens, htokens⟩ := Option.isSome_iff_exists.mp hinvoke.2
    refine ⟨_, ?_, tokens, htokens, rfl, row_of_follows hfollows decoded height input⟩
    unfold LiquidityDecoder.liquidityRowAt
    rw [hfollows.isCandidate, if_pos hinvoke.1, htokens]
    rfl

end Rows

/-- On every list of events and for every token map, each mint and each burn of a
known pool has one row, which follows its rule. -/
theorem liquidity_rows_follow_rules
    (tokenMap : TokenMap)
    (decoded : DecodedByTxVout)
    (height : ℕ)
    (input : TxInput) :
    SortedEvents input.events (orderedEvents input.events) ∧
    List.Forall₂
      (fun placed row => ∃ tokens, tokenMap (poolIdOf placed.1.1) = some tokens ∧
        row.transactionId = input.transactionId ∧
        mintRule.Row (orderedEvents input.events) tokens placed.2 placed.1.1 row)
      (liquidityInvokes 1 tokenMap input.events)
      (mintDecoder.rowsOfInput tokenMap decoded height input) ∧
    List.Forall₂
      (fun placed row => ∃ tokens, tokenMap (poolIdOf placed.1.1) = some tokens ∧
        row.transactionId = input.transactionId ∧
        burnRule.Row (orderedEvents input.events) tokens placed.2 placed.1.1 row)
      (liquidityInvokes 2 tokenMap input.events)
      (burnDecoder.rowsOfInput tokenMap decoded height input) :=
  ⟨sortedEvents_orderedEvents input.events,
    rows_of_follows mintDecoder_follows tokenMap decoded height input,
    rows_of_follows burnDecoder_follows tokenMap decoded height input⟩

end AlkanesIndexer
