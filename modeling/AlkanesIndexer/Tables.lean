import AlkanesIndexer.TokenAmounts

/-!
# The tables of a block

The rows an indexed block leaves in Postgres.  Surrogate ids and the
`createdAt` and `updatedAt` columns are left out.  The two columns of an alkane
id are one field, a timestamp is a number of seconds since the epoch, and an
amount of `PoolSwap`, a double in the source, is the integer it denotes.
`PoolMint` and `PoolBurn` have the same columns, as have `SubfrostWrap` and
`SubfrostUnwrap`, so each pair shares a row type.
-/

namespace AlkanesIndexer

/-! ## Rows -/

structure AlkaneTransactionRow where
  blockHeight : ℕ
  transactionId : String
  transactionIndex : ℕ
  hasTrace : Bool
  traceSucceed : Bool
  transactionData : JsonValue
  deriving DecidableEq, Repr

structure DecodedProtostoneRow where
  transactionId : String
  vout : ℤ
  protostoneIndex : ℕ
  blockHeight : ℕ
  decoded : JsonValue
  deriving DecidableEq, Repr

structure TraceEventRow where
  transactionId : String
  blockHeight : ℕ
  vout : ℤ
  eventType : String
  data : JsonValue
  alkaneAddressBlock : String
  alkaneAddressTx : String
  deriving DecidableEq, Repr

structure PoolSwapRow where
  transactionId : String
  blockHeight : ℕ
  transactionIndex : ℕ
  pool : AlkaneId
  soldToken : AlkaneId
  boughtToken : AlkaneId
  soldAmount : ℕ
  boughtAmount : ℕ
  sellerAddress : Option String
  timestamp : ℤ
  successful : Bool
  deriving DecidableEq, Repr

structure PoolCreationRow where
  transactionId : String
  blockHeight : ℕ
  transactionIndex : ℕ
  pool : AlkaneId
  token0 : AlkaneId
  token1 : AlkaneId
  token0Amount : String
  token1Amount : String
  tokenSupply : String
  creatorAddress : Option String
  timestamp : ℤ
  deriving DecidableEq, Repr

/-- A row of `PoolMint` or `PoolBurn`; `address` is the `minterAddress` or the
`burnerAddress`. -/
structure LiquidityRow where
  transactionId : String
  blockHeight : ℕ
  transactionIndex : ℕ
  pool : AlkaneId
  lpTokenAmount : String
  token0 : AlkaneId
  token1 : AlkaneId
  token0Amount : String
  token1Amount : String
  address : Option String
  timestamp : ℤ
  successful : Bool
  deriving DecidableEq, Repr

structure SubfrostRow where
  transactionId : String
  blockHeight : ℕ
  transactionIndex : ℕ
  address : Option String
  amount : String
  successful : Bool
  timestamp : ℤ
  deriving DecidableEq, Repr

structure ProcessedBlockRow where
  blockHeight : ℕ
  blockHash : String
  timestamp : ℤ
  deriving DecidableEq, Repr

structure PoolRow where
  factory : AlkaneId
  pool : AlkaneId
  token0 : AlkaneId
  token1 : AlkaneId
  poolName : String
  deriving DecidableEq, Repr

/-! ## Tables -/

/-- The tables filled by the decoders, in the order in which the pipeline runs
them. -/
inductive DerivedTable where
  | poolSwap
  | poolCreation
  | poolMint
  | poolBurn
  | subfrostWrap
  | subfrostUnwrap
  deriving DecidableEq, Repr

inductive Table where
  | alkaneTransaction
  | decodedProtostone
  | traceEvent
  | derived (table : DerivedTable)
  deriving DecidableEq, Repr

abbrev DerivedTable.Row : DerivedTable → Type
  | .poolSwap => PoolSwapRow
  | .poolCreation => PoolCreationRow
  | .poolMint | .poolBurn => LiquidityRow
  | .subfrostWrap | .subfrostUnwrap => SubfrostRow

abbrev Table.Row : Table → Type
  | .alkaneTransaction => AlkaneTransactionRow
  | .decodedProtostone => DecodedProtostoneRow
  | .traceEvent => TraceEventRow
  | .derived table => table.Row

instance (table : DerivedTable) : DecidableEq table.Row := by
  cases table <;> exact inferInstanceAs (DecidableEq _)

instance (table : Table) : DecidableEq table.Row := by
  cases table <;> exact inferInstanceAs (DecidableEq _)

namespace DerivedTable

def transactionId : (table : DerivedTable) → table.Row → String
  | .poolSwap, row => PoolSwapRow.transactionId row
  | .poolCreation, row => PoolCreationRow.transactionId row
  | .poolMint, row | .poolBurn, row => LiquidityRow.transactionId row
  | .subfrostWrap, row | .subfrostUnwrap, row => SubfrostRow.transactionId row

def blockHeight : (table : DerivedTable) → table.Row → ℕ
  | .poolSwap, row => PoolSwapRow.blockHeight row
  | .poolCreation, row => PoolCreationRow.blockHeight row
  | .poolMint, row | .poolBurn, row => LiquidityRow.blockHeight row
  | .subfrostWrap, row | .subfrostUnwrap, row => SubfrostRow.blockHeight row

def transactionIndex : (table : DerivedTable) → table.Row → ℕ
  | .poolSwap, row => PoolSwapRow.transactionIndex row
  | .poolCreation, row => PoolCreationRow.transactionIndex row
  | .poolMint, row | .poolBurn, row => LiquidityRow.transactionIndex row
  | .subfrostWrap, row | .subfrostUnwrap, row => SubfrostRow.transactionIndex row

/-- The order of `index_pool_swaps_for_block` … `index_subfrost_unwraps_for_block`
in the pipeline. -/
def all : List DerivedTable :=
  [.poolSwap, .poolCreation, .poolMint, .poolBurn, .subfrostWrap, .subfrostUnwrap]

/-- The tables whose delete and insert are both skipped for an empty batch; only
the swaps are always replaced. -/
def skipsEmptyBatch : DerivedTable → Bool
  | .poolSwap => false
  | _ => true

theorem mem_all
    (table : DerivedTable) :
    table ∈ all := by
  cases table <;> decide

end DerivedTable

namespace Table

def transactionId : (table : Table) → table.Row → String
  | .alkaneTransaction, row => AlkaneTransactionRow.transactionId row
  | .decodedProtostone, row => DecodedProtostoneRow.transactionId row
  | .traceEvent, row => TraceEventRow.transactionId row
  | .derived table, row => table.transactionId row

def blockHeight : (table : Table) → table.Row → ℕ
  | .alkaneTransaction, row => AlkaneTransactionRow.blockHeight row
  | .decodedProtostone, row => DecodedProtostoneRow.blockHeight row
  | .traceEvent, row => TraceEventRow.blockHeight row
  | .derived table, row => table.blockHeight row

end Table

/-! ## The database -/

/-- The tables a block is written to.  `Pool` is not among them: the refresh of
the pools writes it, and every reader of it gets its contents separately. -/
@[ext]
structure Db where
  rows : (table : Table) → List table.Row
  processedBlocks : List ProcessedBlockRow

namespace Db

def empty : Db where
  rows := fun _ => []
  processedBlocks := []

def setRows (db : Db) (table : Table) (rows : List table.Row) : Db :=
  { db with rows := Function.update db.rows table rows }

/-- The rows of a table which belong to the given transactions, or to others. -/
def rowsOf (db : Db) (table : Table) (txids : List String) : List table.Row :=
  (db.rows table).filter fun row => table.transactionId row ∈ txids

def otherRows (db : Db) (table : Table) (txids : List String) : List table.Row :=
  (db.rows table).filter fun row => table.transactionId row ∉ txids

@[simp]
theorem setRows_rows
    (db : Db)
    (table : Table)
    (rows : List table.Row) :
    (db.setRows table rows).rows table = rows := by
  simp [setRows]

@[simp]
theorem setRows_rows_of_ne
    (db : Db)
    {table other : Table}
    (rows : List table.Row)
    (hne : other ≠ table) :
    (db.setRows table rows).rows other = db.rows other := by
  simp [setRows, Function.update_of_ne hne]

@[simp]
theorem setRows_processedBlocks
    (db : Db)
    (table : Table)
    (rows : List table.Row) :
    (db.setRows table rows).processedBlocks = db.processedBlocks :=
  rfl

end Db

end AlkanesIndexer
