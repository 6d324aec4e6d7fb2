import AlkanesIndexer.Tables
import AlkanesIndexer.TraceEvents

/-!
# What the decoders read

Every decoder of a block gets one input per indexed transaction and preloads the
block's decoded protostones.  The decoders of swaps, mints and burns also preload
the token pairs of the pools their candidate events name; an event whose pool is
not in that map is passed over.
-/

namespace AlkanesIndexer

/-- One element of `results: &[(String, i32, DateTime<Utc>, JsonValue, Vec<JsonValue>)]`. -/
structure TxInput where
  transactionId : String
  transactionIndex : ℕ
  timestamp : ℤ
  transactionJson : JsonValue
  events : List JsonValue
  deriving DecidableEq, Repr

/-! ## Decoded protostones -/

/-- The map `txid -> (vout -> Vec<(protostoneIndex, decoded)>)`, an absent key
read as an empty list. -/
abbrev DecodedByTxVout := String → ℤ → List (ℕ × JsonValue)

/-- `get_decoded_protostones_by_txid_vout`.  The rows come ordered by
`(transactionId, vout, protostoneIndex)`; grouped by the first two, only the
last one is left to order by. -/
def getDecodedProtostonesByTxidVout
    (rows : List DecodedProtostoneRow)
    (txids : List String) : DecodedByTxVout :=
  fun txid vout =>
    let wanted := rows.filter fun row => row.transactionId ∈ txids
    let grouped := wanted.filter fun row => row.transactionId = txid ∧ row.vout = vout
    (grouped.insertionSort fun left right => left.protostoneIndex ≤ right.protostoneIndex).map
      fun row => (row.protostoneIndex, row.decoded)

/-- The address of the first decoded protostone at `invoke_vout as i32` which
has a `pointer_destination.address`. -/
def pointerAddress
    (decoded : DecodedByTxVout)
    (txid : String)
    (vout : ℤ) : Option String :=
  (decoded txid (asI32 vout)).findSome? fun item =>
    item.2.strAt ["pointer_destination", "address"]

/-! ## Token pairs -/

abbrev TokenMap := AlkaneId → Option (AlkaneId × AlkaneId)

def poolTokens (pools : List PoolRow) (pool : AlkaneId) : Option (AlkaneId × AlkaneId) :=
  (pools.find? fun row => row.pool = pool).map fun row => (row.token0, row.token1)

def getPoolTokensForPairs (pools : List PoolRow) (pairs : List AlkaneId) : TokenMap :=
  fun pool => if pool ∈ pairs then poolTokens pools pool else none

def uniquePools (isCandidate : JsonValue → Bool) (inputs : List TxInput) : List AlkaneId :=
  ((inputs.flatMap TxInput.events).filter isCandidate).map poolIdOf |>.filter namesPool

/-- The preloaded map; nothing is queried when no candidate names a pool. -/
def blockTokenMap
    (isCandidate : JsonValue → Bool)
    (pools : List PoolRow)
    (inputs : List TxInput) : TokenMap :=
  match uniquePools isCandidate inputs with
  | [] => fun _ => none
  | pairs => getPoolTokensForPairs pools pairs

theorem blockTokenMap_eq
    (isCandidate : JsonValue → Bool)
    (pools : List PoolRow)
    (inputs : List TxInput) :
    blockTokenMap isCandidate pools inputs =
      getPoolTokensForPairs pools (uniquePools isCandidate inputs) := by
  unfold blockTokenMap
  split
  · next hnone => funext pool; simp [getPoolTokensForPairs, hnone]
  · rfl

/-- For a candidate event of the block the preloaded map answers what `Pool`
holds. -/
theorem blockTokenMap_of_candidate
    {isCandidate : JsonValue → Bool}
    (pools : List PoolRow)
    {inputs : List TxInput}
    {input : TxInput}
    {event : JsonValue}
    (hinput : input ∈ inputs)
    (hevent : event ∈ input.events)
    (hcandidate : isCandidate event = true)
    (hnames : namesPool (poolIdOf event) = true) :
    blockTokenMap isCandidate pools inputs (poolIdOf event) =
      poolTokens pools (poolIdOf event) := by
  have hmem : poolIdOf event ∈ uniquePools isCandidate inputs := by
    simp only [uniquePools, List.mem_filter, List.mem_map, List.mem_flatMap]
    exact ⟨⟨event, ⟨⟨input, hinput, hevent⟩, hcandidate⟩, rfl⟩, hnames⟩
  rw [blockTokenMap_eq]
  exact if_pos hmem

theorem poolTokens_isSome_iff
    {pools : List PoolRow}
    {pool : AlkaneId} :
    (poolTokens pools pool).isSome = true ↔ pool ∈ pools.map PoolRow.pool := by
  simp [poolTokens]

end AlkanesIndexer
