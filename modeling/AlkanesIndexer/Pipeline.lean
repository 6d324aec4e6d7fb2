import AlkanesIndexer.PoolCreation
import AlkanesIndexer.PoolLiquidity
import AlkanesIndexer.PoolSwap
import AlkanesIndexer.Protostone
import AlkanesIndexer.Subfrost
import AlkanesIndexer.Writers

/-!
# Processing one block

`process_block_sequential` first makes all calls to the node and then writes:
the three raw tables in one transaction, each derived table in one of its own,
and last the marker in `ProcessedBlocks`.  Every step reads the database as the
steps before it have left it.  Which calls of an attempt fail, in what order its
requests complete and what `Pool` holds when it is read are part of the attempt.
-/

namespace AlkanesIndexer

/-! ## What is computed from the node -/

/-- The orders in which the `esplora_tx` requests complete and in which the
decode batches take their turns. -/
structure Schedule where
  picks : List ℕ
  turns : List ℕ
  deriving DecidableEq, Repr

/-- The fetched block.  Without an OP_RETURN transaction nothing is decoded. -/
structure BlockData where
  rpc : Rpc
  height : ℕ
  blockHash : String
  txs : List JsonValue
  results : List TxDecodeTraceResult
  results_nil : txs.any txHasOpReturn = false → results = []

def fetchBlock (rpc : Rpc) (schedule : Schedule) (height : ℕ) : Except String BlockData :=
  match rpc.blockHash height with
  | .error error => .error error
  | .ok blockHash =>
      match getBlockTxids rpc blockHash with
      | .error error => .error error
      | .ok txids =>
          match getTransactionsInfo rpc schedule.picks txids 25 with
          | .error error => .error error
          | .ok txs =>
              if hopReturn : txs.any txHasOpReturn then
                (decodeAndTraceForBlock rpc schedule.turns (txs.filter txHasOpReturn)).map
                  fun results => ⟨rpc, height, blockHash, txs, results, by simp [hopReturn]⟩
              else .ok ⟨rpc, height, blockHash, txs, [], fun _ => rfl⟩

namespace BlockData

variable (data : BlockData)

def txids : List String := data.results.map TxDecodeTraceResult.transactionId

def transactionRows : List AlkaneTransactionRow :=
  data.results.zipIdx.map fun placed => {
    blockHeight := data.height
    transactionId := placed.1.transactionId
    transactionIndex := placed.2
    hasTrace := placed.1.hasTrace
    traceSucceed := placed.1.traceSucceed
    transactionData := placed.1.transactionJson }

def protostoneRows : List DecodedProtostoneRow :=
  data.results.flatMap fun result => result.decodedProtostones.map fun item => {
    transactionId := result.transactionId
    vout := item.vout
    protostoneIndex := item.protostoneIndex
    blockHeight := data.height
    decoded := item.decoded }

def eventRows : List TraceEventRow :=
  data.results.flatMap fun result => result.traceEvents.map fun item => {
    transactionId := result.transactionId
    blockHeight := data.height
    vout := item.vout
    eventType := item.eventType
    data := item.data
    alkaneAddressBlock := item.alkaneAddressBlock
    alkaneAddressTx := item.alkaneAddressTx }

def traceEventJson (item : TraceEventItem) : JsonValue :=
  .object [
    ("vout", .ofInt item.vout),
    ("eventType", .string item.eventType),
    ("data", item.data),
    ("alkaneAddressBlock", .string item.alkaneAddressBlock),
    ("alkaneAddressTx", .string item.alkaneAddressTx)]

def blockTimeOf (tx : JsonValue) : Option ℤ :=
  (tx.getPath ["status", "block_time"]).bind JsonValue.asI64

/-- The inputs of the decoders: a transaction without a valid time gets the
epoch. -/
def inputs : List TxInput :=
  data.results.zipIdx.map fun placed => {
    transactionId := placed.1.transactionId
    transactionIndex := placed.2
    timestamp :=
      ((blockTimeOf placed.1.transactionJson).bind data.rpc.timestampOpt).getD 0
    transactionJson := placed.1.transactionJson
    events := placed.1.traceEvents.map traceEventJson }

/-- The time of the first transaction that has one, else the current time. -/
def blockTimestamp : ℤ :=
  ((data.txs.findSome? blockTimeOf).bind data.rpc.timestampOpt).getD data.rpc.now

def processedBlockRow : ProcessedBlockRow where
  blockHeight := data.height
  blockHash := data.blockHash
  timestamp := data.blockTimestamp

/-- The rows a decoder computes from the preloaded protostones and from `Pool`
as it reads it. -/
def derivedBatch
    (decoded : DecodedByTxVout)
    (pools : List PoolRow) : (table : DerivedTable) → List table.Row
  | .poolSwap => PoolSwap.swapRows pools decoded data.height data.inputs
  | .poolCreation => creationRows decoded data.height data.inputs
  | .poolMint => mintRows pools decoded data.height data.inputs
  | .poolBurn => burnRows pools decoded data.height data.inputs
  | .subfrostWrap => Subfrost.wrapRows decoded data.height data.inputs
  | .subfrostUnwrap => Subfrost.unwrapRows decoded data.height data.inputs

end BlockData

/-! ## The steps of an attempt -/

/-- The transactions of an attempt, in the order in which they are made. -/
inductive Stage where
  | raw
  | derived (table : DerivedTable)
  | processedBlock
  deriving DecidableEq, Repr

/-- Where a database call can fail: before the transaction, in one of its
statements, at its commit, or after the commit has taken effect. -/
inductive Site where
  | read (stage : Stage)
  | statement (stage : Stage)
  | commit (stage : Stage)
  | acknowledge (stage : Stage)
  deriving DecidableEq, Repr

inductive PipelineError where
  | fetch (message : String)
  | database (site : Site)
  | constraint (stage : Stage)
  deriving DecidableEq, Repr

/-- What an attempt meets: the node, the schedule, the contents of `Pool` at each
step that reads it, and the database calls that fail. -/
structure Attempt where
  rpc : Rpc
  schedule : Schedule
  pools : DerivedTable → List PoolRow
  fails : Site → Bool

/-- The state of an attempt: the database, the transactions committed so far and
the rows computed so far. -/
structure Execution where
  db : Db
  committed : List Stage
  batches : (table : Table) → List table.Row

def BlockData.stages (data : BlockData) : List Stage :=
  if data.txs.any txHasOpReturn then
    .raw :: DerivedTable.all.map .derived ++ [.processedBlock]
  else [.processedBlock]

/-- One transaction: the result of its statements, `none` where a constraint is
violated, becomes the database when the commit takes effect. -/
def commitStage
    (attempt : Attempt)
    (stage : Stage)
    (result : Option Db)
    (execution : Execution) : Execution × Option PipelineError :=
  if attempt.fails (.statement stage) then (execution, some (.database (.statement stage)))
  else
    match result with
    | none => (execution, some (.constraint stage))
    | some db =>
        if attempt.fails (.commit stage) then (execution, some (.database (.commit stage)))
        else
          ({ execution with db := db, committed := execution.committed ++ [stage] },
            if attempt.fails (.acknowledge stage) then
              some (.database (.acknowledge stage))
            else none)

def Execution.record
    (execution : Execution)
    (table : Table)
    (batch : List table.Row) : Execution :=
  { execution with batches := Function.update execution.batches table batch }

def writeRaw (data : BlockData) (db : Db) : Option Db :=
  ((db.write [] .alkaneTransaction data.txids data.transactionRows).bind fun db =>
    db.write [] .decodedProtostone data.txids data.protostoneRows).bind fun db =>
      db.write [] .traceEvent data.txids data.eventRows

def runRaw
    (attempt : Attempt)
    (data : BlockData)
    (execution : Execution) : Execution × Option PipelineError :=
  commitStage attempt .raw (writeRaw data execution.db)
    (((execution.record .alkaneTransaction data.transactionRows).record
      .decodedProtostone data.protostoneRows).record .traceEvent data.eventRows)

/-- An `index_…_for_block` call with the replacement of its rows.  All but the
swaps leave the database alone when nothing was decoded. -/
def runDerived
    (attempt : Attempt)
    (data : BlockData)
    (table : DerivedTable)
    (execution : Execution) : Execution × Option PipelineError :=
  if attempt.fails (.read (.derived table)) then
    (execution, some (.database (.read (.derived table))))
  else
    let decoded := getDecodedProtostonesByTxidVout
      (execution.db.rows .decodedProtostone) data.txids
    let batch := data.derivedBatch decoded (attempt.pools table) table
    let recorded := execution.record (.derived table) batch
    if table.skipsEmptyBatch && batch.isEmpty then (recorded, none)
    else
      commitStage attempt (.derived table)
        (execution.db.write (attempt.pools table) (.derived table) data.txids batch) recorded

def runProcessedBlock
    (attempt : Attempt)
    (data : BlockData)
    (execution : Execution) : Execution × Option PipelineError :=
  commitStage attempt .processedBlock
    ((upsertProcessedBlock execution.db.processedBlocks data.processedBlockRow).map
      fun rows => { execution.db with processedBlocks := rows })
    execution

def runStage
    (attempt : Attempt)
    (data : BlockData)
    (execution : Execution) : Stage → Execution × Option PipelineError
  | .raw => runRaw attempt data execution
  | .derived table => runDerived attempt data table execution
  | .processedBlock => runProcessedBlock attempt data execution

def runStages
    (attempt : Attempt)
    (data : BlockData) : List Stage → Execution → Execution × Option PipelineError
  | [], execution => (execution, none)
  | stage :: rest, execution =>
      match runStage attempt data execution stage with
      | (execution', none) => runStages attempt data rest execution'
      | failed => failed

/-! ## An attempt -/

structure Outcome where
  error : Option PipelineError
  db : Db
  committed : List Stage
  batches : (table : Table) → List table.Row
  published : Bool

def Execution.start (db : Db) : Execution := ⟨db, [], fun _ => []⟩

/-- The stages of a fetched block, and the notification after the last one. -/
def writeBlock (attempt : Attempt) (emitPublish : Bool) (db : Db) (data : BlockData) : Outcome :=
  let run := runStages attempt data data.stages (.start db)
  { error := run.2
    db := run.1.db
    committed := run.1.committed
    batches := run.1.batches
    published := emitPublish && run.2.isNone }

def processBlockSequential
    (attempt : Attempt)
    (height : ℕ)
    (emitPublish : Bool)
    (db : Db) : Outcome :=
  match fetchBlock attempt.rpc attempt.schedule height with
  | .error message => ⟨some (.fetch message), db, [], fun _ => [], false⟩
  | .ok data => writeBlock attempt emitPublish db data

/-! ## A node that serves one block -/

def opReturnTx (txid : String) : JsonValue :=
  .object [
    ("txid", .string txid),
    ("hex", .string txid),
    ("vout", .array [.object [("scriptpubkey_type", .string "op_return")]])]

def alkaneEntry (id : AlkaneId) (value : UInt64) : JsonValue :=
  .object [
    ("id", .object [("block", .string id.1), ("tx", .string id.2)]),
    ("value", .number (.posInt value))]

/-- A delegatecall of a contract, as the trace call answers it. -/
def invokeTrace
    (target : AlkaneId)
    (opcode : String)
    (incoming : List JsonValue) : JsonValue :=
  .object [
    ("event", .string "invoke"),
    ("data", .object [
      ("type", .string "delegatecall"),
      ("context", .object [
        ("myself", .object [("block", .string target.1), ("tx", .string target.2)]),
        ("inputs", .array [.string opcode]),
        ("incomingAlkanes", .array incoming)])])]

def returnTrace (outgoing : List JsonValue) : JsonValue :=
  .object [
    ("event", .string "return"),
    ("data", .object [
      ("status", .string "success"),
      ("response", .object [("alkanes", .array outgoing)])])]

def eventsOfTrace (vout : ℤ) (trace : List JsonValue) : List JsonValue :=
  (flattenTrace vout (.array trace)).map BlockData.traceEventJson

/-- A node whose block consists of OP_RETURN transactions with one output and one
protostone each, traced by the given events. -/
def Rpc.serving (hash : String) (traces : List (String × List JsonValue)) : Rpc where
  blockHash := fun _ => .ok hash
  blockTxids := fun _ => .ok (.array (traces.map fun trace => .string trace.1))
  esploraTx := fun txid => .ok (opReturnTx txid)
  txHex := fun _ => none
  transactionHex := fun _ => .error "no transaction"
  deserializeTx := fun hex => .ok ⟨hex, 1⟩
  formatRunestone := fun _ => some (.object [("protostones", .array [.object []])])
  alkanesTrace := fun txid _ =>
    match traces.find? fun trace => toLittleEndianHex trace.1 = txid with
    | some trace => .ok (.array trace.2)
    | none => .error ["no trace"]
  parseTrace := fun _ => none
  timestampOpt := some
  now := 0

def Attempt.smooth (rpc : Rpc) (pools : List PoolRow) : Attempt where
  rpc := rpc
  schedule := ⟨[], []⟩
  pools := fun _ => pools
  fails := fun _ => false

end AlkanesIndexer
