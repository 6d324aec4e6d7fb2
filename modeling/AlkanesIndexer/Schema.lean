import AlkanesIndexer.SchemaCatalog

/-!
# The schema of the database

`dbctl push`, `reset` and `drop` send the statements of the schema one by one, outside any
transaction, so a command can be cut off behind each of them.  The schema can always be
completed by another push.  Only a deployment from before a column was added is out of its
reach: the statement that would add the column stands behind an index that needs it.
`dbctl migrate` goes through sqlx, which keeps a table of its own.

Rows are left out, so the creation of a unique index never meets duplicate rows here.
-/

namespace AlkanesIndexer

open SchemaCatalog

namespace Schema

inductive SchemaTable where
  | alkaneTransaction
  | traceEvent
  | decodedProtostone
  | clockIn
  | processedBlocks
  | clockInBlockSummary
  | clockInSummary
  | corpData
  | profile
  | pool
  | poolState
  | poolCreation
  | poolSwap
  | poolBurn
  | poolMint
  | curatedPools
  | subfrostWrap
  | subfrostUnwrap
  | kvStore
  deriving DecidableEq, Repr

/-- The indexes, under their names in the database. -/
inductive SchemaIndex where
  | idx_AlkaneTransaction_blockHeight_transactionIndex
  | idx_AlkaneTransaction_brin_blockHeight
  | idx_TraceEvent_transactionId
  | idx_TraceEvent_eventType
  | idx_TraceEvent_brin_blockHeight
  | idx_TraceEvent_blockHeight_eventType
  | idx_DecodedProtostone_brin_blockHeight
  | idx_ClockIn_transactionId
  | idx_ClockIn_blockHeight
  | idx_ClockIn_userAddress
  | idx_ClockIn_blockHeight_transactionIndex
  | idx_ProcessedBlocks_blockHash
  | idx_ClockInBlockSummary_blockHeight
  | idx_ClockInSummary_totalCount
  | idx_ClockInSummary_currentStreak
  | idx_ClockInSummary_maxStreak
  | idx_ClockInSummary_empCount
  | idx_ClockInSummary_vstrCount
  | idx_ClockInSummary_empCurrentStreak
  | idx_ClockInSummary_vstrCurrentStreak
  | idx_ClockInSummary_empNumber
  | idx_ClockInSummary_vstrNumber
  | idx_ClockInSummary_lastClockInTimestamp
  | idx_Profile_userAddress
  | idx_Pool_factoryBlockId_factoryTxId
  | idx_Pool_token0_token1
  | idx_Pool_token1_token0
  | idx_PoolState_poolId
  | idx_PoolState_blockHeight
  | uq_PoolCreation_poolBlockId_poolTxId
  | idx_PoolCreation_transactionId
  | idx_PoolCreation_blockHeight
  | idx_PoolCreation_poolBlockId_poolTxId
  | idx_PoolCreation_blockHeight_transactionIndex
  | idx_PoolCreation_success_block_tx
  | idx_PoolCreation_pool_ts
  | idx_PoolCreation_creator_ts
  | idx_PoolCreation_creator_pool_ts
  | idx_PoolCreation_brin_timestamp
  | idx_PoolSwap_transactionId
  | idx_PoolSwap_blockHeight
  | idx_PoolSwap_poolBlockId_poolTxId
  | idx_PoolSwap_blockHeight_transactionIndex
  | idx_PoolSwap_success_block_tx
  | idx_PoolSwap_pool_ts
  | idx_PoolSwap_soldToken_ts
  | idx_PoolSwap_boughtToken_ts
  | idx_PoolSwap_seller_ts
  | idx_PoolSwap_seller_pool_ts
  | idx_PoolSwap_seller_soldToken_ts
  | idx_PoolSwap_seller_boughtToken_ts
  | idx_PoolSwap_brin_timestamp
  | idx_PoolBurn_transactionId
  | idx_PoolBurn_blockHeight
  | idx_PoolBurn_poolBlockId_poolTxId
  | idx_PoolBurn_blockHeight_transactionIndex
  | idx_PoolBurn_success_block_tx
  | idx_PoolBurn_pool_ts
  | idx_PoolBurn_burner_ts
  | idx_PoolBurn_burner_pool_ts
  | idx_PoolBurn_brin_timestamp
  | idx_PoolMint_transactionId
  | idx_PoolMint_blockHeight
  | idx_PoolMint_poolBlockId_poolTxId
  | idx_PoolMint_blockHeight_transactionIndex
  | idx_PoolMint_success_block_tx
  | idx_PoolMint_pool_ts
  | idx_PoolMint_minter_ts
  | idx_PoolMint_minter_pool_ts
  | idx_PoolMint_brin_timestamp
  | idx_SubfrostWrap_transactionId
  | idx_SubfrostWrap_blockHeight
  | idx_SubfrostWrap_address_ts
  | idx_SubfrostWrap_blockHeight_transactionIndex
  | idx_SubfrostWrap_success_block_tx
  | idx_SubfrostWrap_brin_timestamp
  | idx_SubfrostUnwrap_transactionId
  | idx_SubfrostUnwrap_blockHeight
  | idx_SubfrostUnwrap_address_ts
  | idx_SubfrostUnwrap_blockHeight_transactionIndex
  | idx_SubfrostUnwrap_success_block_tx
  | idx_SubfrostUnwrap_brin_timestamp
  deriving DecidableEq, Repr

def definitionOf : SchemaTable → TableDef SchemaTable
  | .alkaneTransaction => {
      columns := ["transactionId", "blockHeight", "transactionIndex", "hasTrace", "traceSucceed",
        "transactionData", "createdAt", "updatedAt"]
      keys := [["transactionId"]]
      foreignKeys := [] }
  | .traceEvent => {
      columns := ["id", "transactionId", "vout", "blockHeight", "alkaneAddressBlock",
        "alkaneAddressTx", "eventType", "data", "createdAt", "updatedAt"]
      keys := [["id"]]
      foreignKeys := [⟨["transactionId"], .alkaneTransaction, ["transactionId"]⟩] }
  | .decodedProtostone => {
      columns := ["transactionId", "vout", "protostoneIndex", "blockHeight", "decoded", "createdAt",
        "updatedAt"]
      keys := [["transactionId", "vout", "protostoneIndex"]]
      foreignKeys := [⟨["transactionId"], .alkaneTransaction, ["transactionId"]⟩] }
  | .clockIn => {
      columns := ["id", "transactionId", "blockHeight", "transactionIndex", "userAddress",
        "timestamp", "oylPayment", "paymentVout", "paymentAmount", "createdAt", "updatedAt"]
      keys := [["id"]]
      foreignKeys := [⟨["transactionId"], .alkaneTransaction, ["transactionId"]⟩] }
  | .processedBlocks => {
      columns := ["blockHeight", "blockHash", "timestamp", "isProcessing", "createdAt"]
      keys := [["blockHeight"], ["blockHash"]]
      foreignKeys := [] }
  | .clockInBlockSummary => {
      columns := ["id", "blockHeight", "timestamp", "totalClockIns", "uniqueUsers",
        "isEligibleBlock", "createdAt", "updatedAt"]
      keys := [["id"], ["blockHeight"]]
      foreignKeys := [] }
  | .clockInSummary => {
      columns := ["userAddress", "currentStreak", "maxStreak", "totalCount", "lastClockInBlock",
        "lastClockInTimestamp", "firstClockInBlock", "firstClockInTimestamp", "empCount",
        "vstrCount", "empCurrentStreak", "vstrCurrentStreak", "empMaxStreak", "vstrMaxStreak",
        "empNumber", "vstrNumber", "updatedAt"]
      keys := [["userAddress"]]
      foreignKeys := [] }
  | .corpData => {
      columns := ["id", "empCount", "vstrCount", "createdAt", "updatedAt"]
      keys := [["id"]]
      foreignKeys := [] }
  | .profile => {
      columns := ["id", "createdAt", "updatedAt", "userAddress", "twitterAvatarUrl",
        "twitterUsername"]
      keys := [["id"], ["userAddress"]]
      foreignKeys := [] }
  | .pool => {
      columns := ["id", "factoryBlockId", "factoryTxId", "poolBlockId", "poolTxId", "token0BlockId",
        "token0TxId", "token1BlockId", "token1TxId", "poolName", "createdAt", "updatedAt"]
      keys := [["id"], ["poolBlockId", "poolTxId"]]
      foreignKeys := [] }
  | .poolState => {
      columns := ["id", "poolId", "blockHeight", "token0Amount", "token1Amount", "tokenSupply",
        "createdAt"]
      keys := [["id"], ["poolId", "blockHeight"]]
      foreignKeys := [⟨["poolId"], .pool, ["id"]⟩] }
  | .poolCreation => {
      columns := ["id", "transactionId", "blockHeight", "transactionIndex", "poolBlockId",
        "poolTxId", "token0BlockId", "token0TxId", "token1BlockId", "token1TxId", "token0Amount",
        "token1Amount", "tokenSupply", "creatorAddress", "successful", "timestamp", "createdAt",
        "updatedAt"]
      keys := [["id"]]
      foreignKeys := [⟨["poolBlockId", "poolTxId"], .pool, ["poolBlockId", "poolTxId"]⟩] }
  | .poolSwap => {
      columns := ["id", "transactionId", "blockHeight", "transactionIndex", "poolBlockId",
        "poolTxId", "soldTokenBlockId", "soldTokenTxId", "boughtTokenBlockId", "boughtTokenTxId",
        "soldAmount", "boughtAmount", "sellerAddress", "successful", "timestamp", "createdAt",
        "updatedAt"]
      keys := [["id"]]
      foreignKeys := [] }
  | .poolBurn => {
      columns := ["id", "transactionId", "blockHeight", "transactionIndex", "poolBlockId",
        "poolTxId", "lpTokenAmount", "token0BlockId", "token0TxId", "token1BlockId", "token1TxId",
        "token0Amount", "token1Amount", "burnerAddress", "successful", "timestamp", "createdAt",
        "updatedAt"]
      keys := [["id"]]
      foreignKeys := [] }
  | .poolMint => {
      columns := ["id", "transactionId", "blockHeight", "transactionIndex", "poolBlockId",
        "poolTxId", "lpTokenAmount", "token0BlockId", "token0TxId", "token1BlockId", "token1TxId",
        "token0Amount", "token1Amount", "minterAddress", "successful", "timestamp", "createdAt",
        "updatedAt"]
      keys := [["id"]]
      foreignKeys := [] }
  | .curatedPools => {
      columns := ["id", "factoryId", "poolIds", "createdAt", "updatedAt"]
      keys := [["id"], ["factoryId"]]
      foreignKeys := [] }
  | .subfrostWrap => {
      columns := ["id", "transactionId", "blockHeight", "transactionIndex", "address", "amount",
        "successful", "timestamp", "createdAt", "updatedAt"]
      keys := [["id"]]
      foreignKeys := [] }
  | .subfrostUnwrap => {
      columns := ["id", "transactionId", "blockHeight", "transactionIndex", "address", "amount",
        "successful", "timestamp", "createdAt", "updatedAt"]
      keys := [["id"]]
      foreignKeys := [] }
  | .kvStore => {
      columns := ["key", "value"]
      keys := [["key"]]
      foreignKeys := [] }

abbrev DdlStatement := Statement SchemaTable SchemaIndex

abbrev DbCatalog := Catalog SchemaTable SchemaIndex

def table (name : SchemaTable) : DdlStatement := .createTable name (definitionOf name)

def index (name : SchemaIndex) (table : SchemaTable) (columns : List String) :
    DdlStatement :=
  .createIndex name ⟨table, columns, false⟩

def uniqueIndex (name : SchemaIndex) (table : SchemaTable) (columns : List String) :
    DdlStatement :=
  .createIndex name ⟨table, columns, true⟩

def ddl : List DdlStatement := [
  .createExtension "pgcrypto",
  table .alkaneTransaction,
  index .idx_AlkaneTransaction_blockHeight_transactionIndex .alkaneTransaction
    ["blockHeight", "transactionIndex"],
  index .idx_AlkaneTransaction_brin_blockHeight .alkaneTransaction ["blockHeight"],
  .setStorage .alkaneTransaction "transactionData",
  table .traceEvent,
  index .idx_TraceEvent_transactionId .traceEvent ["transactionId"],
  index .idx_TraceEvent_eventType .traceEvent ["eventType"],
  index .idx_TraceEvent_brin_blockHeight .traceEvent ["blockHeight"],
  index .idx_TraceEvent_blockHeight_eventType .traceEvent ["blockHeight", "eventType"],
  .setOptions .traceEvent,
  .setStorage .traceEvent "data",
  table .decodedProtostone,
  index .idx_DecodedProtostone_brin_blockHeight .decodedProtostone ["blockHeight"],
  .setOptions .decodedProtostone,
  .setStorage .decodedProtostone "decoded",
  table .clockIn,
  index .idx_ClockIn_transactionId .clockIn ["transactionId"],
  index .idx_ClockIn_blockHeight .clockIn ["blockHeight"],
  index .idx_ClockIn_userAddress .clockIn ["userAddress"],
  index .idx_ClockIn_blockHeight_transactionIndex .clockIn ["blockHeight", "transactionIndex"],
  table .processedBlocks,
  index .idx_ProcessedBlocks_blockHash .processedBlocks ["blockHash"],
  table .clockInBlockSummary,
  index .idx_ClockInBlockSummary_blockHeight .clockInBlockSummary ["blockHeight"],
  table .clockInSummary,
  index .idx_ClockInSummary_totalCount .clockInSummary ["totalCount"],
  index .idx_ClockInSummary_currentStreak .clockInSummary ["currentStreak"],
  index .idx_ClockInSummary_maxStreak .clockInSummary ["maxStreak"],
  index .idx_ClockInSummary_empCount .clockInSummary ["empCount"],
  index .idx_ClockInSummary_vstrCount .clockInSummary ["vstrCount"],
  index .idx_ClockInSummary_empCurrentStreak .clockInSummary ["empCurrentStreak"],
  index .idx_ClockInSummary_vstrCurrentStreak .clockInSummary ["vstrCurrentStreak"],
  index .idx_ClockInSummary_empNumber .clockInSummary ["empNumber"],
  index .idx_ClockInSummary_vstrNumber .clockInSummary ["vstrNumber"],
  index .idx_ClockInSummary_lastClockInTimestamp .clockInSummary ["lastClockInTimestamp"],
  table .corpData,
  table .profile,
  index .idx_Profile_userAddress .profile ["userAddress"],
  table .pool,
  index .idx_Pool_factoryBlockId_factoryTxId .pool ["factoryBlockId", "factoryTxId"],
  index .idx_Pool_token0_token1 .pool
    ["token0BlockId", "token0TxId", "token1BlockId", "token1TxId"],
  index .idx_Pool_token1_token0 .pool
    ["token1BlockId", "token1TxId", "token0BlockId", "token0TxId"],
  table .poolState,
  index .idx_PoolState_poolId .poolState ["poolId"],
  index .idx_PoolState_blockHeight .poolState ["blockHeight"],
  table .poolCreation,
  uniqueIndex .uq_PoolCreation_poolBlockId_poolTxId .poolCreation ["poolBlockId", "poolTxId"],
  index .idx_PoolCreation_transactionId .poolCreation ["transactionId"],
  index .idx_PoolCreation_blockHeight .poolCreation ["blockHeight"],
  index .idx_PoolCreation_poolBlockId_poolTxId .poolCreation ["poolBlockId", "poolTxId"],
  index .idx_PoolCreation_blockHeight_transactionIndex .poolCreation
    ["blockHeight", "transactionIndex"],
  index .idx_PoolCreation_success_block_tx .poolCreation
    ["successful", "blockHeight", "transactionIndex"],
  index .idx_PoolCreation_pool_ts .poolCreation ["poolBlockId", "poolTxId", "timestamp"],
  index .idx_PoolCreation_creator_ts .poolCreation ["creatorAddress", "timestamp"],
  index .idx_PoolCreation_creator_pool_ts .poolCreation
    ["creatorAddress", "poolBlockId", "poolTxId", "timestamp"],
  index .idx_PoolCreation_brin_timestamp .poolCreation ["timestamp"],
  table .poolSwap,
  index .idx_PoolSwap_transactionId .poolSwap ["transactionId"],
  index .idx_PoolSwap_blockHeight .poolSwap ["blockHeight"],
  index .idx_PoolSwap_poolBlockId_poolTxId .poolSwap ["poolBlockId", "poolTxId"],
  index .idx_PoolSwap_blockHeight_transactionIndex .poolSwap ["blockHeight", "transactionIndex"],
  index .idx_PoolSwap_success_block_tx .poolSwap ["successful", "blockHeight", "transactionIndex"],
  index .idx_PoolSwap_pool_ts .poolSwap ["poolBlockId", "poolTxId", "timestamp"],
  index .idx_PoolSwap_soldToken_ts .poolSwap ["soldTokenBlockId", "soldTokenTxId", "timestamp"],
  index .idx_PoolSwap_boughtToken_ts .poolSwap
    ["boughtTokenBlockId", "boughtTokenTxId", "timestamp"],
  index .idx_PoolSwap_seller_ts .poolSwap ["sellerAddress", "timestamp"],
  index .idx_PoolSwap_seller_pool_ts .poolSwap
    ["sellerAddress", "poolBlockId", "poolTxId", "timestamp"],
  index .idx_PoolSwap_seller_soldToken_ts .poolSwap
    ["sellerAddress", "soldTokenBlockId", "soldTokenTxId", "timestamp"],
  index .idx_PoolSwap_seller_boughtToken_ts .poolSwap
    ["sellerAddress", "boughtTokenBlockId", "boughtTokenTxId", "timestamp"],
  index .idx_PoolSwap_brin_timestamp .poolSwap ["timestamp"],
  table .poolBurn,
  index .idx_PoolBurn_transactionId .poolBurn ["transactionId"],
  index .idx_PoolBurn_blockHeight .poolBurn ["blockHeight"],
  index .idx_PoolBurn_poolBlockId_poolTxId .poolBurn ["poolBlockId", "poolTxId"],
  index .idx_PoolBurn_blockHeight_transactionIndex .poolBurn ["blockHeight", "transactionIndex"],
  index .idx_PoolBurn_success_block_tx .poolBurn ["successful", "blockHeight", "transactionIndex"],
  index .idx_PoolBurn_pool_ts .poolBurn ["poolBlockId", "poolTxId", "timestamp"],
  index .idx_PoolBurn_burner_ts .poolBurn ["burnerAddress", "timestamp"],
  index .idx_PoolBurn_burner_pool_ts .poolBurn
    ["burnerAddress", "poolBlockId", "poolTxId", "timestamp"],
  index .idx_PoolBurn_brin_timestamp .poolBurn ["timestamp"],
  table .poolMint,
  index .idx_PoolMint_transactionId .poolMint ["transactionId"],
  index .idx_PoolMint_blockHeight .poolMint ["blockHeight"],
  index .idx_PoolMint_poolBlockId_poolTxId .poolMint ["poolBlockId", "poolTxId"],
  index .idx_PoolMint_blockHeight_transactionIndex .poolMint ["blockHeight", "transactionIndex"],
  index .idx_PoolMint_success_block_tx .poolMint ["successful", "blockHeight", "transactionIndex"],
  index .idx_PoolMint_pool_ts .poolMint ["poolBlockId", "poolTxId", "timestamp"],
  index .idx_PoolMint_minter_ts .poolMint ["minterAddress", "timestamp"],
  index .idx_PoolMint_minter_pool_ts .poolMint
    ["minterAddress", "poolBlockId", "poolTxId", "timestamp"],
  index .idx_PoolMint_brin_timestamp .poolMint ["timestamp"],
  table .curatedPools,
  table .subfrostWrap,
  index .idx_SubfrostWrap_transactionId .subfrostWrap ["transactionId"],
  index .idx_SubfrostWrap_blockHeight .subfrostWrap ["blockHeight"],
  index .idx_SubfrostWrap_address_ts .subfrostWrap ["address", "timestamp"],
  index .idx_SubfrostWrap_blockHeight_transactionIndex .subfrostWrap
    ["blockHeight", "transactionIndex"],
  index .idx_SubfrostWrap_success_block_tx .subfrostWrap
    ["successful", "blockHeight", "transactionIndex"],
  index .idx_SubfrostWrap_brin_timestamp .subfrostWrap ["timestamp"],
  table .subfrostUnwrap,
  index .idx_SubfrostUnwrap_transactionId .subfrostUnwrap ["transactionId"],
  index .idx_SubfrostUnwrap_blockHeight .subfrostUnwrap ["blockHeight"],
  index .idx_SubfrostUnwrap_address_ts .subfrostUnwrap ["address", "timestamp"],
  index .idx_SubfrostUnwrap_blockHeight_transactionIndex .subfrostUnwrap
    ["blockHeight", "transactionIndex"],
  index .idx_SubfrostUnwrap_success_block_tx .subfrostUnwrap
    ["successful", "blockHeight", "transactionIndex"],
  index .idx_SubfrostUnwrap_brin_timestamp .subfrostUnwrap ["timestamp"],
  table .kvStore,
  .addColumn .poolCreation "successful",
  .addColumn .poolSwap "successful",
  .addColumn .poolBurn "successful",
  .addColumn .poolMint "successful"]

def dropAll : List SchemaTable := [
  .poolMint, .poolBurn, .poolSwap, .poolCreation, .poolState, .pool, .profile, .corpData,
  .clockInSummary, .clockInBlockSummary, .processedBlocks, .clockIn, .traceEvent,
  .decodedProtostone, .alkaneTransaction, .curatedPools, .subfrostUnwrap, .subfrostWrap, .kvStore]

/-- The file under `migrations`. -/
def addSubfrost : List DdlStatement := [
  table .subfrostWrap,
  index .idx_SubfrostWrap_transactionId .subfrostWrap ["transactionId"],
  index .idx_SubfrostWrap_blockHeight .subfrostWrap ["blockHeight"],
  index .idx_SubfrostWrap_address_ts .subfrostWrap ["address", "timestamp"],
  index .idx_SubfrostWrap_blockHeight_transactionIndex .subfrostWrap
    ["blockHeight", "transactionIndex"],
  index .idx_SubfrostWrap_success_block_tx .subfrostWrap
    ["successful", "blockHeight", "transactionIndex"],
  index .idx_SubfrostWrap_brin_timestamp .subfrostWrap ["timestamp"],
  table .subfrostUnwrap,
  index .idx_SubfrostUnwrap_transactionId .subfrostUnwrap ["transactionId"],
  index .idx_SubfrostUnwrap_blockHeight .subfrostUnwrap ["blockHeight"],
  index .idx_SubfrostUnwrap_address_ts .subfrostUnwrap ["address", "timestamp"],
  index .idx_SubfrostUnwrap_blockHeight_transactionIndex .subfrostUnwrap
    ["blockHeight", "transactionIndex"],
  index .idx_SubfrostUnwrap_success_block_tx .subfrostUnwrap
    ["successful", "blockHeight", "transactionIndex"],
  index .idx_SubfrostUnwrap_brin_timestamp .subfrostUnwrap ["timestamp"]]

/-! ## The commands -/

/-- The commands of `dbctl` that change the schema.  The last one is also the first thing
the indexer does, and part of `dbctl reset-progress`. -/
inductive DbCommand where
  | push
  | reset
  | drop
  | migrate
  | ensureKvTable
  | ensureProcessedBlocksTable
  deriving DecidableEq, Repr

/-- The tables and indexes of the schema, and what sqlx keeps in `_sqlx_migrations`, once it
has created that table: the versions it has applied.  No statement of the program names
it. -/
structure SchemaDb where
  catalog : DbCatalog
  sqlxMigrations : Option (List ℕ)

def SchemaDb.empty : SchemaDb := ⟨.empty, none⟩

def SchemaDb.execute (db : SchemaDb) (statements : List DdlStatement) : SchemaDb × Bool :=
  ({ db with catalog := (executeBatch db.catalog statements).1 },
    (executeBatch db.catalog statements).2)

def pushSchema (db : SchemaDb) : SchemaDb × Bool := db.execute ddl

def dropStatements : List DdlStatement := dropAll.map .dropTable

def dropAllTables (db : SchemaDb) : SchemaDb × Bool := db.execute dropStatements

def resetSchema (db : SchemaDb) : SchemaDb × Bool :=
  match dropAllTables db with
  | (dropped, false) => (dropped, false)
  | (dropped, true) => pushSchema dropped

def ensureProcessedBlocks : List DdlStatement := [
  table .processedBlocks,
  index .idx_ProcessedBlocks_blockHash .processedBlocks ["blockHash"]]

def addSubfrostVersion : ℕ := 20251004120000

/-- Its own table, the statements of the migration, the record of its version, and the
commit of these two. -/
def migrateSteps : ℕ := 1 + addSubfrost.length + 1 + 1

/-- A migration and the record of its version are one transaction, and a version on record
is passed over, whatever has become of its tables.  An unknown version is an error. -/
def SchemaDb.migrate (db : SchemaDb) (cut : ℕ) : SchemaDb :=
  if cut = 0 then db
  else
    let applied := db.sqlxMigrations.getD []
    let prepared := { db with sqlxMigrations := some applied }
    if (∃ version ∈ applied, version ≠ addSubfrostVersion) then prepared
    else if addSubfrostVersion ∈ applied then prepared
    else if cut < migrateSteps then prepared
    else
      match db.execute addSubfrost with
      | (_, false) => prepared
      | (migrated, true) =>
          { migrated with sqlxMigrations := some (applied ++ [addSubfrostVersion]) }

/-- What is left of the command when it is cut off behind so many steps. -/
def DbCommand.cutOff
    (db : SchemaDb)
    (cut : ℕ) : DbCommand → SchemaDb
  | .push => (db.execute (ddl.take cut)).1
  | .reset => (db.execute ((dropStatements ++ ddl).take cut)).1
  | .drop => (db.execute (dropStatements.take cut)).1
  | .migrate => db.migrate cut
  | .ensureKvTable => (db.execute ([table .kvStore].take cut)).1
  | .ensureProcessedBlocksTable => (db.execute (ensureProcessedBlocks.take cut)).1

/-- Commands one after the other, each of them cut off somewhere. -/
def runCommands (db : SchemaDb) (commands : List (DbCommand × ℕ)) : SchemaDb :=
  commands.foldl (fun db command => command.1.cutOff db command.2) db

def full : DbCatalog := (pushSchema .empty).1.catalog

theorem ddl_wellFormed :
    WellFormed ddl :=
  .of_nodup (by decide +kernel) (by decide +kernel) (by decide +kernel)

theorem mem_dropAll
    (table : SchemaTable) :
    table ∈ dropAll := by
  cases table <;> decide

theorem dropAll_referrersFirst :
    ReferrersFirst ddl [] dropAll := by
  decide +kernel

/-- The catalog `migrate` ends with: as it was, or with the whole migration. -/
theorem migrate_catalog
    (db : SchemaDb)
    (cut : ℕ) :
    (db.migrate cut).catalog = db.catalog ∨
      (db.migrate cut).catalog = (executeBatch db.catalog addSubfrost).1 := by
  simp only [SchemaDb.migrate, SchemaDb.execute]
  split_ifs with hnothing hunknown hrecorded hcut
  · exact .inl rfl
  · exact .inl rfl
  · exact .inl rfl
  · exact .inl rfl
  · cases (executeBatch db.catalog addSubfrost).2 with
    | false => exact .inl rfl
    | true => exact .inr rfl

/-- Once the version is on record the migration is not applied any more. -/
theorem migrate_of_recorded
    {db : SchemaDb}
    {applied : List ℕ}
    (happlied : db.sqlxMigrations = some applied)
    (hrecorded : addSubfrostVersion ∈ applied)
    (cut : ℕ) :
    db.migrate cut = db := by
  obtain ⟨catalog, sqlxMigrations⟩ := db
  cases happlied
  simp only [SchemaDb.migrate, Option.getD_some, if_pos hrecorded, ite_self]

section Commands

variable {catalog : DbCatalog} {db : SchemaDb}

theorem executeBatch_ddl
    (hsound : Sound ddl catalog) :
    executeBatch catalog ddl = (full, true) := by
  obtain ⟨pushed, hpushed, hpushedSound, hpushedCreated⟩ := created_ddl ddl_wellFormed hsound
  obtain ⟨fresh, hfresh, hfreshSound, hfreshCreated⟩ :=
    created_ddl ddl_wellFormed (sound_empty ddl)
  have hfull : full = fresh := congrArg Prod.fst hfresh
  rw [hpushed, hfull, hpushedSound.eq_of_created hpushedCreated hfreshSound hfreshCreated]

theorem pushSchema_eq_full
    (hsound : Sound ddl db.catalog) :
    pushSchema db = ({ db with catalog := full }, true) := by
  rw [pushSchema, SchemaDb.execute, executeBatch_ddl hsound]

theorem sound_dropped
    (hsound : Sound ddl catalog)
    (cut : ℕ) :
    ∃ catalog', executeBatch catalog (dropStatements.take cut) = (catalog', true) ∧
      Sound ddl catalog' ∧ ∀ table ∈ dropAll.take cut, catalog'.tables table = none := by
  have hdropped := dropped_executeBatch dropAll_referrersFirst hsound (by simp) cut
  rwa [List.nil_append, List.map_take] at hdropped

/-- A drop that is not cut off. -/
theorem sound_dropAllTables
    (hsound : Sound ddl db.catalog) :
    ∃ dropped, dropAllTables db = ({ db with catalog := dropped }, true) ∧
      Sound ddl dropped ∧ ∀ table, dropped.tables table = none := by
  obtain ⟨dropped, hdropped, hsound', hgone⟩ := sound_dropped hsound dropAll.length
  have hlength : dropStatements.length = dropAll.length := List.length_map _
  rw [← hlength, List.take_length] at hdropped
  rw [List.take_length] at hgone
  refine ⟨dropped, ?_, hsound', fun table => hgone table (mem_dropAll table)⟩
  rw [dropAllTables, SchemaDb.execute, hdropped]

theorem sound_pushed
    (hsound : Sound ddl catalog)
    (cut : ℕ) :
    ∃ catalog', executeBatch catalog (ddl.take cut) = (catalog', true) ∧ Sound ddl catalog' := by
  obtain ⟨catalog', hrun, hsound', _⟩ := created_executeBatch ddl_wellFormed (fun _ => id)
    ddl_wellFormed.supported hsound (created_nil catalog) cut
  exact ⟨catalog', hrun, hsound'⟩

theorem addSubfrost_subset :
    (∀ statement ∈ addSubfrost, statement ∈ ddl) ∧ SupportedFrom [] addSubfrost := by
  decide +kernel

theorem sound_taken
    {statements : List DdlStatement}
    (hmem : ∀ statement ∈ statements, statement ∈ ddl)
    (hsupported : SupportedFrom [] statements)
    (hsound : Sound ddl catalog)
    (cut : ℕ) :
    Sound ddl (executeBatch catalog (statements.take cut)).1 := by
  obtain ⟨catalog', hrun, hsound', _⟩ := created_executeBatch ddl_wellFormed hmem hsupported
    hsound (created_nil catalog) cut
  rwa [hrun]

theorem sound_cutOff
    (hsound : Sound ddl db.catalog)
    (command : DbCommand)
    (cut : ℕ) :
    Sound ddl (command.cutOff db cut).catalog := by
  cases command with
  | push =>
      obtain ⟨catalog', hrun, hsound'⟩ := sound_pushed hsound cut
      rwa [DbCommand.cutOff, SchemaDb.execute, hrun]
  | drop =>
      obtain ⟨catalog', hrun, hsound', _⟩ := sound_dropped hsound cut
      rwa [DbCommand.cutOff, SchemaDb.execute, hrun]
  | reset =>
      obtain ⟨dropped, hdropped, hsound', _⟩ := sound_dropped hsound cut
      obtain ⟨catalog', hrun, hsound''⟩ := sound_pushed hsound' (cut - dropStatements.length)
      rwa [DbCommand.cutOff, SchemaDb.execute, List.take_append, executeBatch_append hdropped,
        hrun]
  | migrate =>
      have hmigrated := sound_taken addSubfrost_subset.1 addSubfrost_subset.2 hsound
        addSubfrost.length
      rw [List.take_length] at hmigrated
      rw [DbCommand.cutOff]
      rcases migrate_catalog db cut with hkept | happlied
      · rwa [hkept]
      · rwa [happlied]
  | ensureKvTable => exact sound_taken (by decide +kernel) (by decide) hsound cut
  | ensureProcessedBlocksTable => exact sound_taken (by decide +kernel) (by decide) hsound cut

theorem sound_runCommands
    (hsound : Sound ddl db.catalog)
    (commands : List (DbCommand × ℕ)) :
    Sound ddl (runCommands db commands).catalog := by
  induction commands generalizing db with
  | nil => exact hsound
  | cons command commands ih => exact ih (sound_cutOff hsound command.1 command.2)

end Commands

theorem full_eq :
    (∀ table, full.tables table = some (definitionOf table)) ∧
      ∀ name index, .createIndex name index ∈ ddl → full.indexes name = some index := by
  obtain ⟨fresh, hfresh, _, hcreated⟩ := created_ddl ddl_wellFormed (sound_empty ddl)
  have hfull : full = fresh := congrArg Prod.fst hfresh
  have hmem : ∀ table ∈ dropAll, Schema.table table ∈ ddl := by decide +kernel
  rw [hfull]
  refine ⟨fun table => ?_, hcreated.indexes⟩
  exact hcreated.tables table (definitionOf table) (hmem table (mem_dropAll table))

/-- Wherever commands have been cut off before: a push or a reset ends with the schema of a
fresh database, and a drop leaves none of its tables.  The table of sqlx outlives all three,
so a migration that has been applied once does not bring its tables back after a drop. -/
theorem schema_restored
    (commands : List (DbCommand × ℕ)) :
    let db := runCommands .empty commands
    pushSchema db = ({ db with catalog := full }, true) ∧
      resetSchema db = ({ db with catalog := full }, true) ∧
      (∃ dropped : DbCatalog, dropAllTables db = ({ db with catalog := dropped }, true) ∧
        (∀ table, dropped.tables table = none) ∧
        ∀ applied cut, db.sqlxMigrations = some applied → addSubfrostVersion ∈ applied →
          (dropAllTables db).1.migrate cut = { db with catalog := dropped }) ∧
      (∀ table, full.tables table = some (definitionOf table)) ∧
      ∀ name index, .createIndex name index ∈ ddl → full.indexes name = some index := by
  intro db
  have hsound : Sound ddl db.catalog := sound_runCommands (sound_empty ddl) commands
  obtain ⟨dropped, hdrop, hsound', hgone⟩ := sound_dropAllTables hsound
  refine ⟨pushSchema_eq_full hsound, ?_, ⟨dropped, hdrop, hgone, ?_⟩, full_eq⟩
  · rw [resetSchema, hdrop]
    exact pushSchema_eq_full hsound'
  · intro applied cut happlied hrecorded
    have happlied' : ({ db with catalog := dropped } : SchemaDb).sqlxMigrations = some applied :=
      happlied
    rw [hdrop]
    exact migrate_of_recorded happlied' hrecorded cut

/-! ## Deployments from before a column was added -/

/-- The tables that the end of the schema adds a column to, with the indexes over it. -/
def backfilled : List (SchemaIndex × IndexDef SchemaTable) := [
  (.idx_PoolCreation_success_block_tx,
    ⟨.poolCreation, ["successful", "blockHeight", "transactionIndex"], false⟩),
  (.idx_PoolSwap_success_block_tx,
    ⟨.poolSwap, ["successful", "blockHeight", "transactionIndex"], false⟩),
  (.idx_PoolBurn_success_block_tx,
    ⟨.poolBurn, ["successful", "blockHeight", "transactionIndex"], false⟩),
  (.idx_PoolMint_success_block_tx,
    ⟨.poolMint, ["successful", "blockHeight", "transactionIndex"], false⟩)]

def DbCommand.KeepsTables (command : DbCommand) : Prop := command ≠ .reset ∧ command ≠ .drop

instance (command : DbCommand) : Decidable command.KeepsTables :=
  inferInstanceAs (Decidable (_ ∧ _))

section Backfill

variable
  {db : SchemaDb}
  {name : SchemaIndex}
  {index : IndexDef SchemaTable}
  {definition : TableDef SchemaTable}

theorem backfilled_leaves
    (hbackfilled : (name, index) ∈ backfilled) :
    LeavesUntil name index ddl ∧ LeavesUntil name index addSubfrost ∧
      LeavesUntil name index [table .kvStore] ∧ LeavesUntil name index ensureProcessedBlocks ∧
      .createIndex name index ∈ ddl ∧ "successful" ∈ index.columns := by
  have hall : ∀ entry ∈ backfilled, LeavesUntil entry.1 entry.2 ddl ∧
      LeavesUntil entry.1 entry.2 addSubfrost ∧ LeavesUntil entry.1 entry.2 [table .kvStore] ∧
      LeavesUntil entry.1 entry.2 ensureProcessedBlocks ∧
      .createIndex entry.1 entry.2 ∈ ddl ∧ "successful" ∈ entry.2.columns := by
    decide +kernel
  exact hall _ hbackfilled

theorem stale_cutOff
    (hbackfilled : (name, index) ∈ backfilled)
    (hcolumn : "successful" ∉ definition.columns)
    (hstale : db.catalog.Stale index.table definition name)
    {command : DbCommand}
    (hkeeps : command.KeepsTables)
    (cut : ℕ) :
    (command.cutOff db cut).catalog.Stale index.table definition name := by
  obtain ⟨hddl, hmigration, hkv, hmarkers, _, hsuccessful⟩ := backfilled_leaves hbackfilled
  have hcolumns : ¬ index.columns ⊆ definition.columns :=
    fun hsubset => hcolumn (hsubset hsuccessful)
  cases command with
  | push => exact (stale_executeBatch hstale hcolumns (hddl.take cut)).1
  | reset => exact absurd rfl hkeeps.1
  | drop => exact absurd rfl hkeeps.2
  | migrate =>
      rw [DbCommand.cutOff]
      rcases migrate_catalog db cut with hkept | happlied
      · rwa [hkept]
      · rw [happlied]
        exact (stale_executeBatch hstale hcolumns hmigration).1
  | ensureKvTable => exact (stale_executeBatch hstale hcolumns (hkv.take cut)).1
  | ensureProcessedBlocksTable =>
      exact (stale_executeBatch hstale hcolumns (hmarkers.take cut)).1

/-- A deployment without the column never gets it: every push ends in front of the index
that needs it, whatever commands have run before, unless all tables are dropped. -/
theorem backfill_unreached
    (hbackfilled : (name, index) ∈ backfilled)
    (htable : db.catalog.tables index.table = some definition)
    (hcolumn : "successful" ∉ definition.columns)
    (hindex : db.catalog.indexes name = none)
    {commands : List (DbCommand × ℕ)}
    (hkeeps : ∀ command ∈ commands, command.1.KeepsTables) :
    (pushSchema (runCommands db commands)).2 = false ∧
      (pushSchema (runCommands db commands)).1.catalog.tables index.table =
        some definition := by
  obtain ⟨hddl, _, _, _, hmem, hsuccessful⟩ := backfilled_leaves hbackfilled
  have hcolumns : ¬ index.columns ⊆ definition.columns :=
    fun hsubset => hcolumn (hsubset hsuccessful)
  have hstale : (runCommands db commands).catalog.Stale index.table definition name := by
    induction commands generalizing db with
    | nil => exact ⟨htable, hindex⟩
    | cons command commands ih =>
        obtain ⟨hcommand, hrest⟩ := List.forall_mem_cons.mp hkeeps
        obtain ⟨htable', hindex'⟩ :=
          stale_cutOff hbackfilled hcolumn ⟨htable, hindex⟩ hcommand command.2
        exact ih htable' hindex' hrest
  obtain ⟨hstale', hfails⟩ := stale_executeBatch hstale hcolumns hddl
  exact ⟨hfails hmem, hstale'.1⟩

end Backfill

/-- `PoolSwap` as it was, and nothing else. -/
def olderPoolSwap : TableDef SchemaTable :=
  { definitionOf .poolSwap with
    columns := (definitionOf .poolSwap).columns.filter (· ≠ "successful") }

def olderDeployment : SchemaDb where
  catalog := { Catalog.empty with
    tables := fun table => if table = .poolSwap then some olderPoolSwap else none }
  sqlxMigrations := none

theorem olderDeployment_unreached :
    (pushSchema (DbCommand.push.cutOff olderDeployment 200)).2 = false ∧
      (pushSchema (DbCommand.push.cutOff olderDeployment 200)).1.catalog.tables .poolSwap =
        some olderPoolSwap := by
  have hbackfilled : (SchemaIndex.idx_PoolSwap_success_block_tx,
      (⟨.poolSwap, ["successful", "blockHeight", "transactionIndex"], false⟩ :
        IndexDef SchemaTable)) ∈ backfilled := by
    decide
  have htable : olderDeployment.catalog.tables .poolSwap = some olderPoolSwap := rfl
  have hindex : olderDeployment.catalog.indexes .idx_PoolSwap_success_block_tx = none := rfl
  have hkeeps : ∀ command ∈ [(DbCommand.push, 200)], command.1.KeepsTables := by decide
  exact backfill_unreached hbackfilled htable (by decide) hindex hkeeps

end Schema

end AlkanesIndexer
