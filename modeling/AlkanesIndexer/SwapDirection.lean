import AlkanesIndexer.ReturnStatus

/-!
# The direction of a swap

The direction rule is not symmetric in the tokens of a pool: token 0 is sold only
if none of it comes back.  This file compares the row of a swap that brings one
token with the row under the other labelling of the pool.
-/

namespace AlkanesIndexer

def PoolRow.relabelled (row : PoolRow) : PoolRow :=
  { row with token0 := row.token1, token1 := row.token0 }

def relabel (pool : AlkaneId) (pools : List PoolRow) : List PoolRow :=
  pools.map fun row => if row.pool = pool then row.relabelled else row

theorem poolTokens_relabel
    (pool : AlkaneId)
    (pools : List PoolRow) :
    poolTokens (relabel pool pools) pool = (poolTokens pools pool).map Prod.swap := by
  unfold poolTokens relabel
  induction pools with
  | nil => rfl
  | cons row rest ih =>
      rw [List.map_cons]
      by_cases hrow : row.pool = pool
      · simp [hrow, PoolRow.relabelled]
      · simpa [hrow] using ih

namespace PoolSwap

/-- A candidate which brings exactly one token of its pool, and whose matched
return pays the other one. -/
structure OneSidedSwap
    (pools : List PoolRow)
    (inputs : List TxInput)
    (input : TxInput)
    (event : JsonValue)
    (i : ℕ)
    (tokens : AlkaneId × AlkaneId)
    (ret : JsonValue)
    (incoming other : AlkaneId) : Prop where
  input_mem : input ∈ inputs
  event_at : input.events[i]? = some event
  invoke : isDelegateInvoke event = true
  names : namesPool (poolIdOf event) = true
  poolTokens_eq : poolTokens pools (poolIdOf event) = some tokens
  distinct : tokens.1 ≠ tokens.2
  labels : tokens = (incoming, other) ∨ tokens = (other, incoming)
  brings : 0 < tokenTotal (incomingAlkanes event) incoming
  brings_only : tokenTotal (incomingAlkanes event) other = 0
  selected : selectedReturn tokens input.events i event = some ret
  pays : 0 < tokenTotal (responseAlkanes ret) other

structure SellsIncoming
    (row : PoolSwapRow)
    (event ret : JsonValue)
    (incoming other : AlkaneId) : Prop where
  successful : row.successful = true
  soldToken : row.soldToken = incoming
  soldAmount : row.soldAmount = u128AsF64 (tokenTotal (incomingAlkanes event) incoming)
  boughtToken : row.boughtToken = other
  boughtAmount : row.boughtAmount = u128AsF64 (tokenTotal (responseAlkanes ret) other)

section Labels

variable {incoming other : AlkaneId} {event : JsonValue}

theorem expectedToken_of_labels
    {tokens : AlkaneId × AlkaneId}
    (hlabels : tokens = (incoming, other) ∨ tokens = (other, incoming))
    (hbrings : 0 < tokenTotal (incomingAlkanes event) incoming)
    (honly : tokenTotal (incomingAlkanes event) other = 0) :
    expectedToken tokens event = other := by
  unfold expectedToken
  cases hlabels with
  | inl heq =>
      rw [heq]
      exact if_pos hbrings
  | inr heq =>
      rw [heq]
      apply if_neg
      rw [honly]
      exact Nat.lt_irrefl 0

theorem bringsToken_of_labels
    {tokens : AlkaneId × AlkaneId}
    (hlabels : tokens = (incoming, other) ∨ tokens = (other, incoming))
    (hbrings : 0 < tokenTotal (incomingAlkanes event) incoming) :
    bringsToken tokens event = true := by
  cases hlabels with
  | inl heq => simp [bringsToken, heq, hbrings]
  | inr heq => simp [bringsToken, heq, hbrings]

/-- As token 1 the incoming token is sold, whatever comes back. -/
theorem swapAmounts_as_token1
    (hbrings : 0 < tokenTotal (incomingAlkanes event) incoming)
    (outgoing : List JsonValue) :
    swapAmounts (other, incoming) event outgoing =
      ⟨incoming, other, tokenTotal (incomingAlkanes event) incoming,
        tokenTotal outgoing other⟩ := by
  apply if_neg
  intro hsells
  rw [hsells.2] at hbrings
  exact Nat.lt_irrefl 0 hbrings

/-- As token 0 it is sold if none of it comes back. -/
theorem swapAmounts_as_token0
    (honly : tokenTotal (incomingAlkanes event) other = 0)
    (outgoing : List JsonValue) :
    swapAmounts (incoming, other) event outgoing =
      if tokenTotal outgoing incoming = 0 then
        ⟨incoming, other, tokenTotal (incomingAlkanes event) incoming,
          tokenTotal outgoing other⟩
      else ⟨other, incoming, 0, tokenTotal outgoing incoming⟩ := by
  unfold swapAmounts
  dsimp only
  rw [honly]
  simp only [and_true]

end Labels

section Rows

variable
  {pools : List PoolRow}
  {inputs : List TxInput}
  {input : TxInput}
  {event : JsonValue}
  {i : ℕ}
  {tokens : AlkaneId × AlkaneId}
  {ret : JsonValue}
  {incoming other : AlkaneId}
  (decoded : DecodedByTxVout)
  (height : ℕ)

theorem sellsIncoming_as_token1
    (hbrings : 0 < tokenTotal (incomingAlkanes event) incoming)
    (hpays : 0 < tokenTotal (responseAlkanes ret) other) :
    SellsIncoming (rowOf decoded height input (other, incoming) event (some ret)) event ret
      incoming other := by
  have hamounts : swapAmounts (other, incoming) event (responseAlkanes ret) = _ :=
    swapAmounts_as_token1 hbrings (responseAlkanes ret)
  have hpositive : (SwapAmounts.mk incoming other (tokenTotal (incomingAlkanes event) incoming)
      (tokenTotal (responseAlkanes ret) other)).positive = true := by
    simp [SwapAmounts.positive, hbrings, hpays]
  constructor
  · simp [rowOf, hamounts, hpositive]
  · simp [rowOf, hamounts]
  · simp [rowOf, hamounts, hpositive]
  · simp [rowOf, hamounts]
  · simp [rowOf, hamounts, hpositive]

/-- Under both labellings the row is the same, unless some of the incoming token
comes back. -/
theorem rowOf_labels_iff
    (hbrings : 0 < tokenTotal (incomingAlkanes event) incoming)
    (honly : tokenTotal (incomingAlkanes event) other = 0)
    (hpays : 0 < tokenTotal (responseAlkanes ret) other) :
    rowOf decoded height input (incoming, other) event (some ret) =
        rowOf decoded height input (other, incoming) event (some ret) ↔
      tokenTotal (responseAlkanes ret) incoming = 0 := by
  have hamounts1 : swapAmounts (other, incoming) event (responseAlkanes ret) = _ :=
    swapAmounts_as_token1 hbrings (responseAlkanes ret)
  have hamounts0 : swapAmounts (incoming, other) event (responseAlkanes ret) = _ :=
    swapAmounts_as_token0 honly (responseAlkanes ret)
  constructor
  · intro hsame
    by_contra hback
    have hsells : SellsIncoming (rowOf decoded height input (other, incoming) event (some ret))
        event ret incoming other := sellsIncoming_as_token1 decoded height hbrings hpays
    have hsuccessful := hsells.successful
    rw [← hsame] at hsuccessful
    simp [rowOf, hamounts0, hback, SwapAmounts.positive] at hsuccessful
  · intro hback
    unfold rowOf
    rw [Option.map_some, Option.getD_some, hamounts0, hamounts1, if_pos hback]

theorem sellsIncoming_iff
    (hswap : OneSidedSwap pools inputs input event i tokens ret incoming other) :
    SellsIncoming (rowOf decoded height input tokens event (some ret)) event ret incoming
        other ↔
      tokens.2 = incoming ∨ tokenTotal (responseAlkanes ret) incoming = 0 := by
  have hsells : SellsIncoming (rowOf decoded height input (other, incoming) event (some ret))
      event ret incoming other :=
    sellsIncoming_as_token1 decoded height hswap.brings hswap.pays
  have hsame : rowOf decoded height input (incoming, other) event (some ret) = _ ↔ _ :=
    rowOf_labels_iff decoded height hswap.brings hswap.brings_only hswap.pays
  cases hswap.labels with
  | inl heq =>
      have hne : tokens.2 ≠ incoming := by
        have hdistinct := hswap.distinct
        rw [heq] at hdistinct ⊢
        exact hdistinct.symm
      rw [heq] at hne ⊢
      simp only [hne, false_or]
      constructor
      · intro hfollows
        by_contra hback
        have hsuccessful := hfollows.successful
        have hamounts : swapAmounts (incoming, other) event (responseAlkanes ret) = _ :=
          swapAmounts_as_token0 hswap.brings_only (responseAlkanes ret)
        simp [rowOf, hamounts, hback, SwapAmounts.positive] at hsuccessful
      · intro hback
        rw [hsame.mpr hback]
        exact hsells
  | inr heq =>
      rw [heq]
      simp only [true_or, iff_true]
      exact hsells

theorem swapRowAt_of_oneSided
    (hswap : OneSidedSwap pools inputs input event i tokens ret incoming other) :
    swapRowAt (blockTokenMap isDelegateInvoke pools inputs) decoded height input event i =
      some (rowOf decoded height input tokens event (some ret)) := by
  have hevent : event ∈ input.events := List.mem_of_getElem? hswap.event_at
  have hbrings := bringsToken_of_labels hswap.labels hswap.brings
  unfold swapRowAt
  rw [hswap.invoke, hswap.names, Bool.and_true, if_pos rfl,
    blockTokenMap_of_candidate _ hswap.input_mem hevent hswap.invoke hswap.names,
    hswap.poolTokens_eq, Option.bind_some, swapRow_eq, if_pos hbrings, hswap.selected]

/-- The swap is one-sided under the other labelling as well, with the same return. -/
theorem OneSidedSwap.relabelled
    (hswap : OneSidedSwap pools inputs input event i tokens ret incoming other) :
    OneSidedSwap (relabel (poolIdOf event) pools) inputs input event i tokens.swap ret
      incoming other := by
  have hlabels : tokens.swap = (incoming, other) ∨ tokens.swap = (other, incoming) := by
    cases hswap.labels with
    | inl heq => exact Or.inr (by rw [heq]; rfl)
    | inr heq => exact Or.inl (by rw [heq]; rfl)
  have hselected : selectedReturn tokens.swap input.events i event = some ret := by
    rw [← hswap.selected]
    unfold selectedReturn
    rw [expectedToken_of_labels hlabels hswap.brings hswap.brings_only,
      expectedToken_of_labels hswap.labels hswap.brings hswap.brings_only]
  exact { hswap with
    poolTokens_eq := by rw [poolTokens_relabel, hswap.poolTokens_eq]; rfl
    distinct := hswap.distinct.symm
    labels := hlabels
    selected := hselected }

/-- The row of a one-sided swap, and the row with the labels of the pool exchanged.
The row follows the incoming token if that is token 1 or none of it comes back, and
the labels do not matter if none of it comes back. -/
theorem swap_direction
    (hswap : OneSidedSwap pools inputs input event i tokens ret incoming other) :
    ∃ row relabelledRow,
      swapRowAt (blockTokenMap isDelegateInvoke pools inputs) decoded height input event i =
          some row ∧
        swapRowAt (blockTokenMap isDelegateInvoke (relabel (poolIdOf event) pools) inputs)
          decoded height input event i = some relabelledRow ∧
        (SellsIncoming row event ret incoming other ↔
          tokens.2 = incoming ∨ tokenTotal (responseAlkanes ret) incoming = 0) ∧
        (relabelledRow = row ↔ tokenTotal (responseAlkanes ret) incoming = 0) := by
  have hrow := swapRowAt_of_oneSided decoded height hswap
  have hrelabelled := swapRowAt_of_oneSided decoded height hswap.relabelled
  have hsame : rowOf decoded height input (incoming, other) event (some ret) = _ ↔ _ :=
    rowOf_labels_iff decoded height hswap.brings hswap.brings_only hswap.pays
  refine ⟨_, _, hrow, hrelabelled, sellsIncoming_iff decoded height hswap, ?_⟩
  cases hswap.labels with
  | inl heq =>
      rw [heq, eq_comm]
      exact hsame
  | inr heq =>
      rw [heq]
      exact hsame

end Rows

/-! ## Change on a swap -/

def changedSwap : TxInput where
  transactionId := "aa"
  transactionIndex := 0
  timestamp := 0
  transactionJson := .object []
  events := eventsOfTrace 3 [
    invokeTrace ("0x2", "0xa") "0x3" [alkaneEntry ("0x2", "0x0") 100],
    returnTrace [alkaneEntry ("0x20", "0x0") 90, alkaneEntry ("0x2", "0x0") 5]]

theorem changedSwap_oneSided :
    OneSidedSwap [tradedPool] [changedSwap] changedSwap changedSwap.events[0] 0
      (("2", "0"), ("32", "0")) changedSwap.events[1] ("2", "0") ("32", "0") where
  input_mem := List.mem_cons_self
  event_at := rfl
  invoke := by decide
  names := by decide
  poolTokens_eq := by decide
  distinct := by decide
  labels := Or.inl rfl
  brings := by decide
  brings_only := by decide
  selected := by decide
  pays := by decide

theorem changedSwap_unsuccessful :
    (∃ row,
      swapRowAt (blockTokenMap isDelegateInvoke [tradedPool] [changedSwap]) (fun _ _ => []) 5
          changedSwap changedSwap.events[0] 0 = some row ∧
        row.successful = false ∧ row.soldToken = ("32", "0") ∧ row.soldAmount = 0) ∧
      ¬ ∀ pools decoded height inputs input event i tokens ret incoming other row,
        OneSidedSwap pools inputs input event i tokens ret incoming other →
          swapRowAt (blockTokenMap isDelegateInvoke pools inputs) decoded height input event i =
              some row →
            SellsIncoming row event ret incoming other := by
  have hrow := swapRowAt_of_oneSided (fun _ _ => []) 5 changedSwap_oneSided
  constructor
  · exact ⟨_, hrow, by decide, by decide, by decide⟩
  · intro hall
    have hsells := hall _ _ _ _ _ _ _ _ _ _ _ _ changedSwap_oneSided hrow
    exact absurd hsells.successful (by decide)

/-- Under the other labelling it is stored as a successful sale of that token. -/
theorem changedSwap_direction :
    ∃ row relabelledRow,
      swapRowAt (blockTokenMap isDelegateInvoke [tradedPool] [changedSwap]) (fun _ _ => []) 5
          changedSwap changedSwap.events[0] 0 = some row ∧
        swapRowAt (blockTokenMap isDelegateInvoke
            (relabel (poolIdOf changedSwap.events[0]) [tradedPool]) [changedSwap])
          (fun _ _ => []) 5 changedSwap changedSwap.events[0] 0 = some relabelledRow ∧
        ¬ SellsIncoming row changedSwap.events[0] changedSwap.events[1] ("2", "0")
          ("32", "0") ∧
        relabelledRow ≠ row := by
  obtain ⟨row, relabelledRow, hrow, hrelabelled, hsells, hsame⟩ :=
    swap_direction (fun _ _ => []) 5 changedSwap_oneSided
  refine ⟨row, relabelledRow, hrow, hrelabelled, ?_, ?_⟩
  · rw [hsells]
    decide
  · rw [ne_eq, hsame]
    decide

end PoolSwap

end AlkanesIndexer
