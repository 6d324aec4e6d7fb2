import AlkanesIndexer.PoolSwap

/-!
# The return of a swap

A swap row is a function of its invoke, the tokens of the pool and the return
the two searches select.  Together the searches select a return of least rank:
one that pays the expected token before one that does not, and the earliest of
them.
-/

namespace AlkanesIndexer.PoolSwap

open Sequences

/-- The token a swap expects back, the other one than the token it brings. -/
def expectedToken (tokens : AlkaneId × AlkaneId) (event : JsonValue) : AlkaneId :=
  if 0 < tokenTotal (incomingAlkanes event) tokens.1 then tokens.2 else tokens.1

def bringsToken (tokens : AlkaneId × AlkaneId) (event : JsonValue) : Bool :=
  0 < tokenTotal (incomingAlkanes event) tokens.1 ||
    0 < tokenTotal (incomingAlkanes event) tokens.2

def selectedReturn
    (tokens : AlkaneId × AlkaneId)
    (events : List JsonValue)
    (i : ℕ)
    (event : JsonValue) : Option JsonValue :=
  (findMatchingReturnStrict events i (invokeVout event) (expectedToken tokens event)
    (allowedAmounts event)).or (findMatchingReturn events i (invokeVout event))

/-- What a swap comes to, given what its return pays. -/
structure SwapAmounts where
  soldToken : AlkaneId
  boughtToken : AlkaneId
  soldAmount : ℕ
  boughtAmount : ℕ
  deriving DecidableEq, Repr

/-- The direction rule: token 0 is sold unless the return pays it or token 1
comes in. -/
def swapAmounts
    (tokens : AlkaneId × AlkaneId)
    (event : JsonValue)
    (outgoing : List JsonValue) : SwapAmounts :=
  let incoming := incomingAlkanes event
  if tokenTotal outgoing tokens.1 = 0 ∧ tokenTotal incoming tokens.2 = 0 then
    ⟨tokens.1, tokens.2, tokenTotal incoming tokens.1, tokenTotal outgoing tokens.2⟩
  else ⟨tokens.2, tokens.1, tokenTotal incoming tokens.2, tokenTotal outgoing tokens.1⟩

def SwapAmounts.positive (amounts : SwapAmounts) : Bool :=
  0 < amounts.soldAmount && 0 < amounts.boughtAmount

def rowOf
    (decoded : DecodedByTxVout)
    (height : ℕ)
    (input : TxInput)
    (tokens : AlkaneId × AlkaneId)
    (event : JsonValue)
    (ret : Option JsonValue) : PoolSwapRow :=
  let amounts := swapAmounts tokens event ((ret.map responseAlkanes).getD [])
  let successful := ret.isSome && amounts.positive
  { transactionId := input.transactionId
    blockHeight := height
    transactionIndex := input.transactionIndex
    pool := poolIdOf event
    soldToken := amounts.soldToken
    boughtToken := amounts.boughtToken
    soldAmount := if successful then u128AsF64 amounts.soldAmount else 0
    boughtAmount := if successful then u128AsF64 amounts.boughtAmount else 0
    sellerAddress := pointerAddress decoded input.transactionId (invokeVout event)
    timestamp := input.timestamp
    successful := successful }

theorem swapRow_eq
    (decoded : DecodedByTxVout)
    (height : ℕ)
    (input : TxInput)
    (i : ℕ)
    (event : JsonValue)
    (tokens : AlkaneId × AlkaneId) :
    swapRow decoded height input i event tokens.1 tokens.2 =
      if bringsToken tokens event then
        some (rowOf decoded height input tokens event
          (selectedReturn tokens input.events i event))
      else none := by
  have hexpected : expectedToken tokens event =
      if decide (0 < tokenTotal (incomingAlkanes event) tokens.1) = true then tokens.2
      else tokens.1 := by simp [expectedToken]
  by_cases hbrings : bringsToken tokens event = true
  · have hskip : (!decide (0 < tokenTotal (incomingAlkanes event) tokens.1) &&
        !decide (0 < tokenTotal (incomingAlkanes event) tokens.2)) = false := by
      simpa [bringsToken, or_iff_not_imp_left] using hbrings
    unfold swapRow
    simp only [hskip, Bool.false_eq_true, if_false, hbrings, if_true, ← hexpected]
    unfold selectedReturn rowOf swapAmounts
    generalize (findMatchingReturnStrict input.events i (invokeVout event)
      (expectedToken tokens event) (allowedAmounts event)).or
        (findMatchingReturn input.events i (invokeVout event)) = ret
    by_cases hsells : tokenTotal ((ret.map responseAlkanes).getD []) tokens.1 = 0 ∧
        tokenTotal (incomingAlkanes event) tokens.2 = 0
    · simp [hsells, SwapAmounts.positive, Bool.and_assoc]
    · simp [hsells, SwapAmounts.positive, Bool.and_assoc]
  · have hskip : (!decide (0 < tokenTotal (incomingAlkanes event) tokens.1) &&
        !decide (0 < tokenTotal (incomingAlkanes event) tokens.2)) = true := by
      simpa [bringsToken] using hbrings
    unfold swapRow
    simp only [hskip, if_true, hbrings]
    rfl

/-! ## The searches as one choice -/

/-- The returns on the vout of an invoke among the later events. -/
def laterReturns (events : List JsonValue) (i : ℕ) (vout : ℤ) : List PlacedEvent :=
  (events.zipIdx.drop (i + 1)).filter fun placed => isReturnOn vout placed.1

def paysExpected (tokens : AlkaneId × AlkaneId) (event ret : JsonValue) : Bool :=
  (responseAlkanes ret).any
    (isExpectedEntry (expectedToken tokens event) (allowedAmounts event))

def swapRank
    (tokens : AlkaneId × AlkaneId)
    (event : JsonValue)
    (ret : PlacedEvent) : ℕ ×ₗ ℕ :=
  toLex (if paysExpected tokens event ret.1 then 0 else 1, ret.2)

theorem searches_eq_argmin
    (events : List JsonValue)
    (i : ℕ)
    (vout : ℤ)
    (pays : JsonValue → Bool) :
    ((events.drop (i + 1)).find? fun event => isReturnOn vout event && pays event).or
        ((events.drop (i + 1)).find? (isReturnOn vout)) =
      ((laterReturns events i vout).argmin fun ret : PlacedEvent =>
        (toLex (if pays ret.1 then 0 else 1, ret.2) : ℕ ×ₗ ℕ)).map Prod.fst := by
  have hincreasing : (events.zipIdx.drop (i + 1)).Pairwise
      fun left right => left.2 < right.2 := (pairwise_snd_zipIdx events 0).drop
  have hdrop : events.drop (i + 1) = (events.zipIdx.drop (i + 1)).map Prod.fst := by
    rw [List.map_drop, List.zipIdx_map_fst]
  have hchoice := find?_or_find?_eq_argmin (fun placed => isReturnOn vout placed.1)
    (fun placed => pays placed.1) Prod.snd hincreasing
  unfold laterReturns
  rw [← hchoice, hdrop, List.find?_map, List.find?_map, Option.map_or]
  rfl

theorem selectedReturn_eq_argmin
    (tokens : AlkaneId × AlkaneId)
    (events : List JsonValue)
    (i : ℕ)
    (event : JsonValue) :
    selectedReturn tokens events i event =
      ((laterReturns events i (invokeVout event)).argmin (swapRank tokens event)).map
        Prod.fst :=
  searches_eq_argmin events i (invokeVout event) (paysExpected tokens event)

theorem eq_of_mem_laterReturns
    {events : List JsonValue}
    {i : ℕ}
    {vout : ℤ}
    {left right : PlacedEvent}
    (hleft : left ∈ laterReturns events i vout)
    (hright : right ∈ laterReturns events i vout)
    (hposition : left.2 = right.2) :
    left = right := by
  have hat : ∀ placed ∈ laterReturns events i vout, events[placed.2]? = some placed.1 := by
    intro placed hplaced
    exact List.mem_zipIdx_iff_getElem?.mp (List.mem_of_mem_drop (List.mem_of_mem_filter hplaced))
  have hleftAt := hat left hleft
  rw [hposition, hat right hright] at hleftAt
  exact Prod.ext (Option.some.inj hleftAt).symm hposition

end AlkanesIndexer.PoolSwap
