import AlkanesIndexer.DecoderInputs

/-!
# Pool mints and burns

`poolmint.rs` and `poolburn.rs` differ in the opcode, in which returns they
admit, in how they rank them and in the sign of the net amounts.  What they
share is stated once, over a `LiquidityDecoder`.
-/

namespace AlkanesIndexer

/-- The totals of one pool's tokens on an invoke and on a candidate return. -/
structure LiquidityTotals where
  lpIn : ℕ
  lpOut : ℕ
  t0In : ℕ
  t0Out : ℕ
  t1In : ℕ
  t1Out : ℕ
  deriving DecidableEq, Repr

def isDelegateInvokeMint (event : JsonValue) : Bool :=
  isDelegateInvoke (fun opcode => hexToU128 opcode = some 1) event

def isDelegateInvokeBurn (event : JsonValue) : Bool :=
  isDelegateInvoke (fun opcode => hexToU128 opcode = some 2) event

/-- What tells the mint decoder and the burn decoder apart; subtraction of
natural numbers is `saturating_sub`. -/
structure LiquidityDecoder where
  isCandidate : JsonValue → Bool
  isInvoke : ∀ {event}, isCandidate event = true → eventType event = some "invoke"
  admits : LiquidityTotals → Bool
  /-- whether the totals of a return at `j` beat those of the best one so far -/
  better : LiquidityTotals × ℕ → LiquidityTotals × ℕ → Bool
  token0Amount : LiquidityTotals → ℕ
  token1Amount : LiquidityTotals → ℕ
  lpAmount : LiquidityTotals → ℕ

/-- A mint needs more LP tokens out than in and a net payment of both tokens; it
prefers minimal token outs, latest on tie. -/
def mintDecoder : LiquidityDecoder where
  isCandidate := isDelegateInvokeMint
  isInvoke := eventType_of_isDelegateInvoke
  admits totals :=
    !(totals.lpOut ≤ totals.lpIn) &&
      !(totals.t0In - totals.t0Out = 0 || totals.t1In - totals.t1Out = 0)
  better candidate best :=
    candidate.1.t0Out < best.1.t0Out ||
      (candidate.1.t0Out = best.1.t0Out &&
        (candidate.1.t1Out < best.1.t1Out ||
          (candidate.1.t1Out = best.1.t1Out && candidate.2 > best.2)))
  token0Amount totals := totals.t0In - totals.t0Out
  token1Amount totals := totals.t1In - totals.t1Out
  lpAmount totals := totals.lpOut - totals.lpIn

/-- A burn needs a net receipt of both tokens and, if LP tokens came in, fewer of
them out; it prefers minimal LP tokens out, latest on tie. -/
def burnDecoder : LiquidityDecoder where
  isCandidate := isDelegateInvokeBurn
  isInvoke := eventType_of_isDelegateInvoke
  admits totals :=
    !(totals.t0Out - totals.t0In = 0 || totals.t1Out - totals.t1In = 0) &&
      !(totals.lpIn > 0 && totals.lpOut ≥ totals.lpIn)
  better candidate best :=
    candidate.1.lpOut < best.1.lpOut ||
      (candidate.1.lpOut = best.1.lpOut && candidate.2 > best.2)
  token0Amount totals := totals.t0Out - totals.t0In
  token1Amount totals := totals.t1Out - totals.t1In
  lpAmount totals := totals.lpIn - totals.lpOut

namespace LiquidityDecoder

variable (decoder : LiquidityDecoder)

def totals
    (pool token0 token1 : AlkaneId)
    (incoming outgoing : List JsonValue) : LiquidityTotals where
  lpIn := calculateTokenTotal incoming pool.1 pool.2
  lpOut := calculateTokenTotal outgoing pool.1 pool.2
  t0In := calculateTokenTotal incoming token0.1 token0.2
  t0Out := calculateTokenTotal outgoing token0.1 token0.2
  t1In := calculateTokenTotal incoming token1.1 token1.2
  t1Out := calculateTokenTotal outgoing token1.1 token1.2

def returnTotals (tokens : AlkaneId × AlkaneId) (invoke ret : JsonValue) : LiquidityTotals :=
  totals (poolIdOf invoke) tokens.1 tokens.2 (incomingAlkanes invoke) (responseAlkanes ret)

def chosenReturn
    (tokens : AlkaneId × AlkaneId)
    (ordered : List PlacedEvent)
    (i : ℕ)
    (invoke : JsonValue) : Option Candidate :=
  bestReturn ordered i (invokeVout invoke)
    (fun ret => decoder.admits (returnTotals tokens invoke ret))
    (fun candidate best =>
      decoder.better (returnTotals tokens invoke candidate.1, candidate.2)
        (returnTotals tokens invoke best.1, best.2))

/-- The row of one candidate invoke.  A row is written whether or not a return
was chosen; without one, or with amounts that do not add up, its amounts are
zero. -/
def liquidityRow
    (decoded : DecodedByTxVout)
    (height : ℕ)
    (input : TxInput)
    (tokens : AlkaneId × AlkaneId)
    (ordered : List PlacedEvent)
    (i : ℕ)
    (invoke : JsonValue) : LiquidityRow :=
  let chosen := decoder.chosenReturn tokens ordered i invoke
  let outgoing := (chosen.map fun candidate => responseAlkanes candidate.1.1).getD []
  let sums := totals (poolIdOf invoke) tokens.1 tokens.2 (incomingAlkanes invoke) outgoing
  let amountsValid : Bool :=
    decoder.token0Amount sums > 0 && decoder.token1Amount sums > 0 &&
      decoder.lpAmount sums > 0
  let successful := chosen.isSome && amountsValid
  let amount (value : ℕ) : String := if successful then toString value else "0"
  { transactionId := input.transactionId
    blockHeight := height
    transactionIndex := input.transactionIndex
    pool := poolIdOf invoke
    lpTokenAmount := amount (decoder.lpAmount sums)
    token0 := tokens.1
    token1 := tokens.2
    token0Amount := amount (decoder.token0Amount sums)
    token1Amount := amount (decoder.token1Amount sums)
    address := pointerAddress decoded input.transactionId (invokeVout invoke)
    timestamp := input.timestamp
    successful := successful }

def liquidityRowAt
    (tokenMap : TokenMap)
    (decoded : DecodedByTxVout)
    (height : ℕ)
    (input : TxInput)
    (ordered : List PlacedEvent)
    (event : JsonValue)
    (i : ℕ) : Option LiquidityRow :=
  if decoder.isCandidate event && namesPool (poolIdOf event) then
    (tokenMap (poolIdOf event)).map fun tokens =>
      decoder.liquidityRow decoded height input tokens ordered i event
  else none

def rowsOfInput
    (tokenMap : TokenMap)
    (decoded : DecodedByTxVout)
    (height : ℕ)
    (input : TxInput) : List LiquidityRow :=
  let ordered := orderedEvents input.events
  ordered.zipIdx.filterMap fun placed =>
    decoder.liquidityRowAt tokenMap decoded height input ordered placed.1.1 placed.2

def rows
    (pools : List PoolRow)
    (decoded : DecodedByTxVout)
    (height : ℕ)
    (inputs : List TxInput) : List LiquidityRow :=
  inputs.flatMap
    (decoder.rowsOfInput (blockTokenMap decoder.isCandidate pools inputs) decoded height)

end LiquidityDecoder

def mintRows
    (pools : List PoolRow)
    (decoded : DecodedByTxVout)
    (height : ℕ)
    (inputs : List TxInput) : List LiquidityRow :=
  mintDecoder.rows pools decoded height inputs

def burnRows
    (pools : List PoolRow)
    (decoded : DecodedByTxVout)
    (height : ℕ)
    (inputs : List TxInput) : List LiquidityRow :=
  burnDecoder.rows pools decoded height inputs

namespace LiquidityDecoder

variable {decoder : LiquidityDecoder}

theorem liquidityRowAt_eq_some_iff
    {tokenMap : TokenMap}
    {decoded : DecodedByTxVout}
    {height : ℕ}
    {input : TxInput}
    {ordered : List PlacedEvent}
    {event : JsonValue}
    {i : ℕ}
    {row : LiquidityRow} :
    decoder.liquidityRowAt tokenMap decoded height input ordered event i = some row ↔
      decoder.isCandidate event = true ∧ namesPool (poolIdOf event) = true ∧
        ∃ tokens, tokenMap (poolIdOf event) = some tokens ∧
          decoder.liquidityRow decoded height input tokens ordered i event = row := by
  simp [liquidityRowAt, and_assoc]

/-- When a decoder ranks by a score and then by position, the chosen return is the
admitted return on the vout of the least score, the latest executed on a tie. -/
theorem chosenReturn_map_fst
    {β : Type*}
    [LinearOrder β]
    (score : LiquidityTotals → β)
    (hbetter : ∀ candidate best : LiquidityTotals × ℕ,
      decoder.better candidate best = true ↔
        score candidate.1 < score best.1 ∨
          score candidate.1 = score best.1 ∧ best.2 < candidate.2)
    {tokens : AlkaneId × AlkaneId}
    {events : List JsonValue}
    {i : ℕ}
    {invoke : PlacedEvent}
    (hplace : (orderedEvents events)[i]? = some invoke)
    (hinvoke : eventType invoke.1 = some "invoke") :
    (decoder.chosenReturn tokens (orderedEvents events) i invoke.1).map Prod.fst =
      (returnsOn events (invokeVout invoke.1) fun ret =>
        decoder.admits (returnTotals tokens invoke.1 ret)).argmin
        fun placed => toLex (score (returnTotals tokens invoke.1 placed.1),
          OrderDual.toDual placed.2) :=
  bestReturn_map_fst hplace hinvoke _ _
    (fun ret => score (returnTotals tokens invoke.1 ret)) fun _ _ => hbetter _ _

theorem input_of_mem_rows
    {pools : List PoolRow}
    {decoded : DecodedByTxVout}
    {height : ℕ}
    {inputs : List TxInput}
    {row : LiquidityRow}
    (hrow : row ∈ decoder.rows pools decoded height inputs) :
    ∃ input ∈ inputs, row.transactionId = input.transactionId ∧
      row.transactionIndex = input.transactionIndex ∧ row.blockHeight = height := by
  simp only [rows, rowsOfInput, List.mem_flatMap, List.mem_filterMap] at hrow
  obtain ⟨input, hinput, placed, _, hat⟩ := hrow
  obtain ⟨_, _, tokens, _, hliquidity⟩ := liquidityRowAt_eq_some_iff.mp hat
  subst hliquidity
  exact ⟨input, hinput, rfl, rfl, rfl⟩

theorem rows_eq_nil_iff
    {pools : List PoolRow}
    {decoded : DecodedByTxVout}
    {height : ℕ}
    {inputs : List TxInput} :
    decoder.rows pools decoded height inputs = [] ↔
      ∀ input ∈ inputs, ∀ event ∈ input.events,
        decoder.isCandidate event = true → namesPool (poolIdOf event) = true →
          poolIdOf event ∉ pools.map PoolRow.pool := by
  simp only [rows, rowsOfInput, List.flatMap_eq_nil_iff, List.filterMap_eq_nil_iff]
  refine forall₂_congr fun input hinput => ?_
  constructor
  · intro hnone event hevent hcandidate hnames hknown
    obtain ⟨k, i, hplaced⟩ := exists_ordered_of_mem hevent
    have hat := hnone ((event, k), i) hplaced
    have htokens := blockTokenMap_of_candidate pools hinput hevent hcandidate hnames
    obtain ⟨tokens, hsome⟩ := Option.isSome_iff_exists.mp (poolTokens_isSome_iff.mpr hknown)
    simp [liquidityRowAt, hcandidate, hnames, htokens, hsome] at hat
  · rintro hnone ⟨⟨event, k⟩, i⟩ hplaced
    have hmem : event ∈ input.events := mem_of_mem_ordered hplaced
    cases hat : decoder.liquidityRowAt (blockTokenMap decoder.isCandidate pools inputs)
        decoded height input (orderedEvents input.events) event i with
    | none => rfl
    | some row =>
        obtain ⟨hcandidate, hnames, tokens, htokens, _⟩ := liquidityRowAt_eq_some_iff.mp hat
        rw [blockTokenMap_of_candidate pools hinput hmem hcandidate hnames] at htokens
        refine absurd ?_ (hnone event hmem hcandidate hnames)
        exact poolTokens_isSome_iff.mp (by rw [htokens]; rfl)

end LiquidityDecoder

end AlkanesIndexer
