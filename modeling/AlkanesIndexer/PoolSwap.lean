import AlkanesIndexer.DecoderInputs

/-!
# Pool swaps

The swap decoder is the one that keeps the events in the order of execution: it
looks for the return of an invoke among all later events of the transaction, at
first for one that pays the expected token.
-/

namespace AlkanesIndexer.PoolSwap

def isDelegateInvoke (event : JsonValue) : Bool :=
  AlkanesIndexer.isDelegateInvoke (fun opcode => hexToDecU128Str opcode = some "3") event

def findMatchingReturn
    (events : List JsonValue)
    (invokeIdx : ℕ)
    (invokeVout : ℤ) : Option JsonValue :=
  (events.drop (invokeIdx + 1)).find? (isReturnOn invokeVout)

/-- Whether an alkane entry is the expected payment: the token matches and, when
amounts are given, so does one of them. -/
def isExpectedEntry (expected : AlkaneId) (allowedAmounts : List ℕ) (entry : JsonValue) : Bool :=
  namesToken entry expected.1 expected.2 &&
    (allowedAmounts.isEmpty || (entryValue entry).any fun value => value ∈ allowedAmounts)

def findMatchingReturnStrict
    (events : List JsonValue)
    (invokeIdx : ℕ)
    (invokeVout : ℤ)
    (expected : AlkaneId)
    (allowedAmounts : List ℕ) : Option JsonValue :=
  (events.drop (invokeIdx + 1)).find? fun event =>
    isReturnOn invokeVout event &&
      (responseAlkanes event).any (isExpectedEntry expected allowedAmounts)

/-- The amounts of `inputs[1]` and `inputs[2]`, where they decode. -/
def allowedAmounts (event : JsonValue) : List ℕ :=
  let inputs := (event.arrayAt ["data", "context", "inputs"]).filterMap JsonValue.asStr
  (inputs[1]?.bind hexToU128).toList ++ (inputs[2]?.bind hexToU128).toList

def tokenTotal (alkanes : List JsonValue) (token : AlkaneId) : ℕ :=
  calculateTokenTotal alkanes token.1 token.2

/-- The row of one invoke whose pool has the given tokens; an invoke which
brings neither of them is no swap. -/
def swapRow
    (decoded : DecodedByTxVout)
    (height : ℕ)
    (input : TxInput)
    (i : ℕ)
    (event : JsonValue)
    (token0 token1 : AlkaneId) : Option PoolSwapRow :=
  let incoming := incomingAlkanes event
  let hasT0Incoming : Bool := 0 < tokenTotal incoming token0
  let hasT1Incoming : Bool := 0 < tokenTotal incoming token1
  if !hasT0Incoming && !hasT1Incoming then none
  else
    let expected := if hasT0Incoming then token1 else token0
    let ret := (findMatchingReturnStrict input.events i (invokeVout event) expected
      (allowedAmounts event)).or (findMatchingReturn input.events i (invokeVout event))
    let outgoing := (ret.map responseAlkanes).getD []
    let t0In := tokenTotal incoming token0
    let t0Out := tokenTotal outgoing token0
    let t1In := tokenTotal incoming token1
    let t1Out := tokenTotal outgoing token1
    let sellsToken0 : Bool := t0Out = 0 && t1In = 0
    let soldAmount := if sellsToken0 then t0In else t1In
    let boughtAmount := if sellsToken0 then t1Out else t0Out
    let successful : Bool := ret.isSome && 0 < soldAmount && 0 < boughtAmount
    some {
      transactionId := input.transactionId
      blockHeight := height
      transactionIndex := input.transactionIndex
      pool := poolIdOf event
      soldToken := if sellsToken0 then token0 else token1
      boughtToken := if sellsToken0 then token1 else token0
      soldAmount := if successful then u128AsF64 soldAmount else 0
      boughtAmount := if successful then u128AsF64 boughtAmount else 0
      sellerAddress := pointerAddress decoded input.transactionId (invokeVout event)
      timestamp := input.timestamp
      successful := successful }

def swapRowAt
    (tokenMap : TokenMap)
    (decoded : DecodedByTxVout)
    (height : ℕ)
    (input : TxInput)
    (event : JsonValue)
    (i : ℕ) : Option PoolSwapRow :=
  if isDelegateInvoke event && namesPool (poolIdOf event) then
    (tokenMap (poolIdOf event)).bind fun tokens =>
      swapRow decoded height input i event tokens.1 tokens.2
  else none

def swapRows
    (pools : List PoolRow)
    (decoded : DecodedByTxVout)
    (height : ℕ)
    (inputs : List TxInput) : List PoolSwapRow :=
  let tokenMap := blockTokenMap isDelegateInvoke pools inputs
  inputs.flatMap fun input =>
    input.events.zipIdx.filterMap fun placed =>
      swapRowAt tokenMap decoded height input placed.1 placed.2

theorem input_of_mem_swapRows
    {pools : List PoolRow}
    {decoded : DecodedByTxVout}
    {height : ℕ}
    {inputs : List TxInput}
    {row : PoolSwapRow}
    (hrow : row ∈ swapRows pools decoded height inputs) :
    ∃ input ∈ inputs, row.transactionId = input.transactionId ∧
      row.transactionIndex = input.transactionIndex ∧ row.blockHeight = height := by
  simp only [swapRows, List.mem_flatMap, List.mem_filterMap] at hrow
  obtain ⟨input, hinput, placed, _, hat⟩ := hrow
  refine ⟨input, hinput, ?_⟩
  simp only [swapRowAt, Option.ite_none_right_eq_some, Option.bind_eq_some_iff] at hat
  obtain ⟨_, tokens, _, hswap⟩ := hat
  unfold swapRow at hswap
  dsimp only at hswap
  split at hswap
  · cases hswap
  · simp only [Option.some.injEq] at hswap
    subst hswap
    exact ⟨rfl, rfl, rfl⟩

end AlkanesIndexer.PoolSwap
