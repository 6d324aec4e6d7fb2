import AlkanesIndexer.Pipeline

/-!
# What an attempt does to the database

A committed stage replaces the rows of the attempt's transactions in its own
tables by what its batch becomes, and nothing else.  The batches themselves do
not depend on the database: the protostones a decoder reads back are the ones
the attempt has just written.  So an attempt is determined by the stages it has
committed.
-/

namespace AlkanesIndexer

/-! ## The rows of an attempt -/

/-- The stage which writes a table. -/
def Table.stage : Table → Stage
  | .alkaneTransaction | .decodedProtostone | .traceEvent => .raw
  | .derived table => .derived table

namespace BlockData

variable (data : BlockData) (pools : DerivedTable → List PoolRow)

def decoded : DecodedByTxVout :=
  getDecodedProtostonesByTxidVout (written .decodedProtostone data.protostoneRows) data.txids

def batch : (table : Table) → List table.Row
  | .alkaneTransaction => data.transactionRows
  | .decodedProtostone => data.protostoneRows
  | .traceEvent => data.eventRows
  | .derived table => data.derivedBatch data.decoded (pools table) table

/-- The database after some stages have been committed. -/
def after (stages : List Stage) (db : Db) : Db where
  rows := fun table =>
    if table.stage ∈ stages then
      db.otherRows table data.txids ++ written table (data.batch pools table)
    else db.rows table
  processedBlocks :=
    if .processedBlock ∈ stages then
      (db.processedBlocks.filter fun row => row.blockHeight ≠ data.height) ++
        [data.processedBlockRow]
    else db.processedBlocks

/-- The stages which are left out because there is nothing to write. -/
def skipped : Stage → Bool
  | .derived table =>
      table.skipsEmptyBatch && (data.batch pools (.derived table)).isEmpty
  | _ => false

theorem mem_txids_of_mem_inputs
    {input : TxInput}
    (hinput : input ∈ data.inputs) :
    input.transactionId ∈ data.txids := by
  obtain ⟨placed, hplaced, rfl⟩ := List.mem_map.mp hinput
  exact List.mem_map.mpr
    ⟨placed.1, List.mem_of_getElem? (List.mem_zipIdx_iff_getElem?.mp hplaced), rfl⟩

theorem transactionRows_txids :
    data.transactionRows.map AlkaneTransactionRow.transactionId = data.txids := by
  calc
    data.transactionRows.map AlkaneTransactionRow.transactionId
        = (data.results.zipIdx.map Prod.fst).map TxDecodeTraceResult.transactionId := by
          rw [transactionRows, List.map_map, List.map_map]
          rfl
    _ = data.txids := by rw [List.zipIdx_map_fst, txids]

theorem input_of_mem_derivedBatch
    {decoded : DecodedByTxVout}
    {poolRows : List PoolRow}
    {table : DerivedTable}
    {row : table.Row}
    (hrow : row ∈ data.derivedBatch decoded poolRows table) :
    ∃ input ∈ data.inputs, table.transactionId row = input.transactionId ∧
      table.transactionIndex row = input.transactionIndex ∧
      table.blockHeight row = data.height := by
  cases table with
  | poolSwap => exact PoolSwap.input_of_mem_swapRows hrow
  | poolCreation => exact input_of_mem_creationRows hrow
  | poolMint => exact LiquidityDecoder.input_of_mem_rows hrow
  | poolBurn => exact LiquidityDecoder.input_of_mem_rows hrow
  | subfrostWrap => exact Subfrost.input_of_mem_rows hrow
  | subfrostUnwrap => exact Subfrost.input_of_mem_rows hrow

/-- Every row of a batch belongs to a transaction of the attempt and has its
height. -/
theorem mem_txids_of_mem_batch
    {table : Table}
    {row : table.Row}
    (hrow : row ∈ data.batch pools table) :
    table.transactionId row ∈ data.txids ∧ table.blockHeight row = data.height := by
  cases table with
  | alkaneTransaction =>
      obtain ⟨placed, hplaced, rfl⟩ := List.mem_map.mp hrow
      refine ⟨?_, rfl⟩
      rw [← data.transactionRows_txids]
      exact List.mem_map.mpr ⟨_, hrow, rfl⟩
  | decodedProtostone =>
      obtain ⟨result, hresult, hitem⟩ := List.mem_flatMap.mp hrow
      obtain ⟨item, _, rfl⟩ := List.mem_map.mp hitem
      exact ⟨List.mem_map.mpr ⟨result, hresult, rfl⟩, rfl⟩
  | traceEvent =>
      obtain ⟨result, hresult, hitem⟩ := List.mem_flatMap.mp hrow
      obtain ⟨item, _, rfl⟩ := List.mem_map.mp hitem
      exact ⟨List.mem_map.mpr ⟨result, hresult, rfl⟩, rfl⟩
  | derived table =>
      obtain ⟨input, hinput, htxid, _, hheight⟩ := data.input_of_mem_derivedBatch hrow
      refine ⟨?_, hheight⟩
      change table.transactionId row ∈ data.txids
      rw [htxid]
      exact data.mem_txids_of_mem_inputs hinput

end BlockData

theorem mem_foldl_upsertTransaction
    {batch : List AlkaneTransactionRow}
    {row : AlkaneTransactionRow}
    (hrow : row ∈ batch.foldl upsertTransaction []) :
    row ∈ batch := by
  induction batch using List.reverseRecOn with
  | nil => exact hrow
  | append_singleton batch last ih =>
      rw [List.foldl_append] at hrow
      simp only [List.foldl_cons, List.foldl_nil, upsertTransaction, List.mem_append,
        List.mem_filter, List.mem_singleton] at hrow
      rcases hrow with ⟨hold, _⟩ | rfl
      · exact List.mem_append_left _ (ih hold)
      · exact List.mem_append_right _ (List.mem_singleton_self row)

theorem foldl_upsertTransaction_txids_nodup
    (batch : List AlkaneTransactionRow) :
    ((batch.foldl upsertTransaction []).map AlkaneTransactionRow.transactionId).Nodup := by
  induction batch using List.reverseRecOn with
  | nil => exact List.nodup_nil
  | append_singleton batch row ih =>
      rw [List.foldl_append]
      simp only [List.foldl_cons, List.foldl_nil, upsertTransaction, List.map_append,
        List.map_cons, List.map_nil]
      refine List.nodup_append.mpr ⟨?_, List.nodup_singleton _, ?_⟩
      · exact ih.sublist (List.filter_sublist.map _)
      · rintro txid hold _ hnew rfl
        obtain ⟨old, hmem, htxid⟩ := List.mem_map.mp hold
        have hne := (List.mem_filter.mp hmem).2
        simp only [List.mem_singleton] at hnew
        simp [htxid, hnew] at hne

theorem exists_mem_foldl_upsertTransaction
    {batch : List AlkaneTransactionRow}
    {txid : String}
    (htxid : txid ∈ batch.map AlkaneTransactionRow.transactionId) :
    ∃ row ∈ batch.foldl upsertTransaction [], row.transactionId = txid := by
  induction batch using List.reverseRecOn with
  | nil => cases htxid
  | append_singleton batch last ih =>
      rw [List.foldl_append]
      simp only [List.foldl_cons, List.foldl_nil, upsertTransaction]
      by_cases hlast : last.transactionId = txid
      · exact ⟨last, List.mem_append_right _ (List.mem_singleton_self last), hlast⟩
      · rw [List.map_append, List.mem_append] at htxid
        have hbatch : txid ∈ batch.map AlkaneTransactionRow.transactionId := by
          apply htxid.resolve_right
          simpa using fun h => hlast h.symm
        obtain ⟨row, hrow, heq⟩ := ih hbatch
        refine ⟨row, List.mem_append_left _ (List.mem_filter.mpr ⟨hrow, ?_⟩), heq⟩
        rw [heq]
        simpa using fun h => hlast h.symm

/-- An upsert changes the decoded value of a row alone. -/
theorem exists_of_mem_foldl_upsertProtostone
    {batch : List DecodedProtostoneRow}
    {row : DecodedProtostoneRow}
    (hrow : row ∈ batch.foldl upsertProtostone []) :
    ∃ new ∈ batch, protostoneKey new = protostoneKey row ∧ new.blockHeight = row.blockHeight := by
  induction batch using List.reverseRecOn generalizing row with
  | nil => cases hrow
  | append_singleton batch last ih =>
      rw [List.foldl_append] at hrow
      simp only [List.foldl_cons, List.foldl_nil] at hrow
      unfold upsertProtostone at hrow
      split at hrow
      · obtain ⟨old, hold, rfl⟩ := List.mem_map.mp hrow
        obtain ⟨new, hnew, hkey, hheight⟩ := ih hold
        refine ⟨new, List.mem_append_left _ hnew, ?_⟩
        split <;> exact ⟨hkey, hheight⟩
      · rcases List.mem_append.mp hrow with hold | hlast
        · obtain ⟨new, hnew, hsame⟩ := ih hold
          exact ⟨new, List.mem_append_left _ hnew, hsame⟩
        · rw [List.mem_singleton.mp hlast]
          exact ⟨last, List.mem_append_right _ (List.mem_singleton_self last), rfl, rfl⟩

/-- What a batch becomes names no transaction and no height the batch does not
name. -/
theorem exists_of_mem_written
    {table : Table}
    {batch : List table.Row}
    {row : table.Row}
    (hrow : row ∈ written table batch) :
    ∃ new ∈ batch, table.transactionId new = table.transactionId row ∧
      table.blockHeight new = table.blockHeight row := by
  cases table with
  | alkaneTransaction => exact ⟨row, mem_foldl_upsertTransaction hrow, rfl, rfl⟩
  | decodedProtostone =>
      obtain ⟨new, hnew, hkey, hheight⟩ := exists_of_mem_foldl_upsertProtostone hrow
      exact ⟨new, hnew, congrArg Prod.fst hkey, hheight⟩
  | traceEvent => exact ⟨row, hrow, rfl, rfl⟩
  | derived table => exact ⟨row, hrow, rfl, rfl⟩

section Filters

variable
  (data : BlockData)
  (pools : DerivedTable → List PoolRow)
  (db : Db)
  (table : Table)

theorem written_mem_txids
    {row : table.Row}
    (hrow : row ∈ written table (data.batch pools table)) :
    table.transactionId row ∈ data.txids := by
  obtain ⟨new, hnew, heq, -⟩ := exists_of_mem_written hrow
  exact heq ▸ (data.mem_txids_of_mem_batch pools hnew).1

theorem written_blockHeight
    {row : table.Row}
    (hrow : row ∈ written table (data.batch pools table)) :
    table.blockHeight row = data.height := by
  obtain ⟨new, hnew, -, heq⟩ := exists_of_mem_written hrow
  exact heq ▸ (data.mem_txids_of_mem_batch pools hnew).2

theorem filter_otherRows_eq_nil :
    ((db.otherRows table data.txids).filter fun row =>
      table.transactionId row ∈ data.txids) = [] := by
  rw [List.filter_eq_nil_iff]
  intro row hrow
  have hother := (List.mem_filter.mp hrow).2
  simpa using hother

/-- Committed stages do not touch the rows of other transactions. -/
theorem otherRows_after
    (stages : List Stage) :
    (data.after pools stages db).otherRows table data.txids =
      db.otherRows table data.txids := by
  unfold Db.otherRows BlockData.after
  dsimp only
  split
  · have hwritten : ((written table (data.batch pools table)).filter fun row =>
        table.transactionId row ∉ data.txids) = [] := by
      rw [List.filter_eq_nil_iff]
      intro row hrow
      simpa using written_mem_txids data pools table hrow
    rw [List.filter_append, hwritten, List.append_nil, Db.otherRows, List.filter_filter]
    simp
  · rfl

theorem after_rows
    (stages : List Stage) :
    (data.after pools stages db).rows table =
      if table.stage ∈ stages then
        db.otherRows table data.txids ++ written table (data.batch pools table)
      else db.rows table :=
  rfl

theorem after_processedBlocks
    (stages : List Stage) :
    (data.after pools stages db).processedBlocks =
      if .processedBlock ∈ stages then
        (db.processedBlocks.filter fun row => row.blockHeight ≠ data.height) ++
          [data.processedBlockRow]
      else db.processedBlocks :=
  rfl

theorem after_nil :
    data.after pools [] db = db := by
  simp [BlockData.after]

theorem after_cons
    {stage : Stage}
    {stages : List Stage}
    (hnot : stage ∉ stages) :
    data.after pools stages (data.after pools [stage] db) =
      data.after pools (stage :: stages) db := by
  ext1
  · funext table
    rw [after_rows, after_rows, otherRows_after, after_rows]
    by_cases hmem : table.stage ∈ stages
    · simp [hmem]
    · simp [hmem]
  · rw [after_processedBlocks, after_processedBlocks, after_processedBlocks]
    by_cases hmem : Stage.processedBlock ∈ stages
    · have hne : Stage.processedBlock ≠ stage := fun heq => hnot (heq ▸ hmem)
      simp [hmem, hne]
    · simp [hmem]

end Filters

/-! ## One stage -/

section Stages

variable {attempt : Attempt} {data : BlockData} {db : Db} {execution : Execution}

variable (data) in
theorem eq_of_write
    (pools : DerivedTable → List PoolRow)
    {poolRows : List PoolRow}
    (table : Table)
    {db' : Db}
    (hwrite : db.write poolRows table data.txids (data.batch pools table) = some db') :
    db' = db.setRows table
      (db.otherRows table data.txids ++ written table (data.batch pools table)) := by
  simp only [Db.write, Option.map_eq_some_iff] at hwrite
  obtain ⟨rows', hrows, rfl⟩ := hwrite
  congr 1
  refine eq_of_writeRows hrows (fun row hrow => (data.mem_txids_of_mem_batch pools hrow).1) ?_
  rintro rfl txid htxid
  change txid ∈ data.transactionRows.map AlkaneTransactionRow.transactionId
  rwa [data.transactionRows_txids]

theorem write_isSome_iff
    {poolRows : List PoolRow}
    {table : Table}
    {txids : List String}
    {batch : List table.Row} :
    (db.write poolRows table txids batch).isSome = true ↔
      Insertable poolRows table batch (db.otherRows table txids) := by
  rw [Db.write, Option.isSome_map]
  exact writeRows_isSome_iff

theorem eq_after_of_writeRaw
    (pools : DerivedTable → List PoolRow)
    {db' : Db}
    (hwrite : writeRaw data db = some db') :
    db' = data.after pools [.raw] db := by
  simp only [writeRaw, Option.bind_eq_some_iff] at hwrite
  obtain ⟨db₂, ⟨db₁, htransactions, hprotostones⟩, hevents⟩ := hwrite
  have h₁ := eq_of_write data pools .alkaneTransaction htransactions
  have h₂ := eq_of_write data pools .decodedProtostone hprotostones
  have h₃ := eq_of_write data pools .traceEvent hevents
  subst h₁ h₂ h₃
  ext1
  · funext table
    rw [after_rows]
    cases table with
    | derived table => simp [Table.stage]
    | alkaneTransaction => simp [Table.stage]
    | decodedProtostone => simp [Table.stage, Db.otherRows]
    | traceEvent => simp [Table.stage, Db.otherRows]
  · rfl

theorem writeRaw_isSome_iff :
    (writeRaw data db).isSome = true ↔
      Insertable [] .alkaneTransaction data.transactionRows
          (db.otherRows .alkaneTransaction data.txids) ∧
        Insertable [] .decodedProtostone data.protostoneRows
          (db.otherRows .decodedProtostone data.txids) := by
  rw [← write_isSome_iff, ← write_isSome_iff, writeRaw]
  cases htransactions : db.write [] .alkaneTransaction data.txids data.transactionRows with
  | none => simp
  | some db₁ =>
      have h₁ := eq_of_write data (fun _ => []) .alkaneTransaction htransactions
      have hsame : (db₁.write [] .decodedProtostone data.txids data.protostoneRows).isSome =
          (db.write [] .decodedProtostone data.txids data.protostoneRows).isSome := by
        rw [Bool.eq_iff_iff, write_isSome_iff, write_isSome_iff, h₁]
        rfl
      rw [← hsame]
      cases hprotostones :
          db₁.write [] .decodedProtostone data.txids data.protostoneRows with
      | none => simp [hprotostones]
      | some db₂ =>
          have hevents : (db₂.write [] .traceEvent data.txids data.eventRows).isSome = true :=
            write_isSome_iff.mpr trivial
          simpa [hprotostones] using hevents

/-- Either the transaction is rolled back, with an error, or its result is the
database and the stage is on record. -/
theorem commitStage_cases
    (attempt : Attempt)
    (stage : Stage)
    (result : Option Db)
    (execution : Execution) :
    ((commitStage attempt stage result execution).1 = execution ∧
        (commitStage attempt stage result execution).2 ≠ none) ∨
      ∃ db', result = some db' ∧
        (commitStage attempt stage result execution).1 =
          { execution with db := db', committed := execution.committed ++ [stage] } := by
  unfold commitStage
  split
  · exact Or.inl ⟨rfl, by simp⟩
  · cases result with
    | none => exact Or.inl ⟨rfl, by simp⟩
    | some db' =>
        dsimp only
        split
        · exact Or.inl ⟨rfl, by simp⟩
        · exact Or.inr ⟨db', rfl, rfl⟩

def Attempt.Reliable (attempt : Attempt) (stage : Stage) : Prop :=
  attempt.fails (.statement stage) = false ∧ attempt.fails (.commit stage) = false ∧
    attempt.fails (.acknowledge stage) = false

theorem commitStage_eq_none_iff
    {stage : Stage}
    {result : Option Db} :
    (commitStage attempt stage result execution).2 = none ↔
      attempt.Reliable stage ∧ result.isSome = true := by
  unfold commitStage Attempt.Reliable
  cases attempt.fails (.statement stage) <;> cases result <;>
    cases attempt.fails (.commit stage) <;> cases attempt.fails (.acknowledge stage) <;> simp

/-- The hash of the block is on record for no other height. -/
def BlockData.HashFree (data : BlockData) (db : Db) : Prop :=
  data.blockHash ∉ (db.processedBlocks.filter fun row =>
    row.blockHeight ≠ data.height).map ProcessedBlockRow.blockHash

/-- What a stage needs to end without an error. -/
def StageReady (attempt : Attempt) (data : BlockData) (db : Db) : Stage → Prop
  | .raw =>
      attempt.Reliable .raw ∧
        Insertable [] .alkaneTransaction data.transactionRows
          (db.otherRows .alkaneTransaction data.txids) ∧
        Insertable [] .decodedProtostone data.protostoneRows
          (db.otherRows .decodedProtostone data.txids)
  | .derived table =>
      attempt.fails (.read (.derived table)) = false ∧
        (data.skipped attempt.pools (.derived table) = true ∨
          attempt.Reliable (.derived table) ∧
            Insertable (attempt.pools table) (.derived table)
              (data.batch attempt.pools (.derived table))
              (db.otherRows (.derived table) data.txids))
  | .processedBlock => attempt.Reliable .processedBlock ∧ data.HashFree db

/-- The protostones of the attempt are what a decoder would read back. -/
def BlockData.Preloads (data : BlockData) (db : Db) : Prop :=
  getDecodedProtostonesByTxidVout (db.rows .decodedProtostone) data.txids = data.decoded

theorem preloads_after
    (pools : DerivedTable → List PoolRow)
    {stages : List Stage}
    (hraw : .raw ∈ stages ∨ data.Preloads db) :
    data.Preloads (data.after pools stages db) := by
  unfold BlockData.Preloads
  rw [after_rows]
  by_cases hmem : Table.stage .decodedProtostone ∈ stages
  · rw [if_pos hmem, BlockData.decoded]
    unfold getDecodedProtostonesByTxidVout
    rw [List.filter_append]
    have hnone := filter_otherRows_eq_nil data db .decodedProtostone
    change (db.otherRows .decodedProtostone data.txids).filter
      (fun row => decide (DecodedProtostoneRow.transactionId row ∈ data.txids)) = [] at hnone
    rw [hnone, List.nil_append]
    rfl
  · rw [if_neg hmem]
    exact hraw.resolve_left hmem

/-- The effect of one stage of an attempt, whether or not it ends in an error. -/
structure StageEffect
    (attempt : Attempt)
    (data : BlockData)
    (execution : Execution)
    (stages : List Stage)
    (run : Execution × Option PipelineError)
    (done : List Stage) : Prop where
  isPrefix : done <+: stages
  complete : run.2 = none → done = stages
  db_eq : run.1.db = data.after attempt.pools
    (done.filter fun stage => !data.skipped attempt.pools stage) execution.db
  committed_eq : run.1.committed = execution.committed ++
    done.filter fun stage => !data.skipped attempt.pools stage
  batches_eq : run.2 = none → ∀ table,
    run.1.batches table =
      if table.stage ∈ stages then data.batch attempt.pools table
      else execution.batches table

theorem derivedBatch_eq_batch
    (hpreloads : data.Preloads db)
    (table : DerivedTable) :
    data.derivedBatch
        (getDecodedProtostonesByTxidVout (db.rows .decodedProtostone) data.txids)
        (attempt.pools table) table =
      data.batch attempt.pools (.derived table) := by
  rw [hpreloads]
  rfl

theorem record_batches
    (execution : Execution)
    (table other : Table)
    (pools : DerivedTable → List PoolRow) :
    (execution.record table (data.batch pools table)).batches other =
      if other = table then data.batch pools other else execution.batches other := by
  unfold Execution.record
  by_cases heq : other = table
  · subst heq
    simp
  · simp [heq]

/-- A stage whose transaction was attempted on the recorded batches. -/
theorem effect_of_commitStage
    {stage : Stage}
    {result : Option Db}
    {recorded : Execution}
    (hskipped : data.skipped attempt.pools stage = false)
    (hresult : ∀ db', result = some db' →
      db' = data.after attempt.pools [stage] execution.db)
    (hdb : recorded.db = execution.db)
    (hcommitted : recorded.committed = execution.committed)
    (hbatches : ∀ table, recorded.batches table =
      if table.stage = stage then data.batch attempt.pools table
      else execution.batches table) :
    ∃ done, StageEffect attempt data execution [stage]
      (commitStage attempt stage result recorded) done := by
  rcases commitStage_cases attempt stage result recorded with
    ⟨hsame, herror⟩ | ⟨db', hsome, hrun⟩
  · refine ⟨[], by simp, fun hnone => absurd hnone herror, ?_, ?_,
      fun hnone => absurd hnone herror⟩
    · rw [hsame, hdb, List.filter_nil, after_nil]
    · rw [hsame, hcommitted, List.filter_nil, List.append_nil]
  · refine ⟨[stage], List.prefix_rfl, fun _ => rfl, ?_, ?_, fun _ table => ?_⟩
    · rw [hrun]
      simpa [hskipped] using hresult db' hsome
    · rw [hrun]
      simp [hskipped, hcommitted]
    · rw [hrun]
      simpa using hbatches table

theorem runRaw_effect :
    ∃ done, StageEffect attempt data execution [.raw]
      (runRaw attempt data execution) done := by
  refine effect_of_commitStage rfl (fun db' hwrite => eq_after_of_writeRaw _ hwrite)
    rfl rfl fun table => ?_
  cases table with
  | derived table => simp [Execution.record, Table.stage]
  | alkaneTransaction => simp [Execution.record, Table.stage, BlockData.batch]
  | decodedProtostone => simp [Execution.record, Table.stage, BlockData.batch]
  | traceEvent => simp [Execution.record, Table.stage, BlockData.batch]

theorem runDerived_effect
    (hpreloads : data.Preloads execution.db)
    (table : DerivedTable) :
    ∃ done, StageEffect attempt data execution [.derived table]
      (runDerived attempt data table execution) done := by
  unfold runDerived
  split
  · exact ⟨[], by simp, by simp, by simp [after_nil], by simp, by simp⟩
  · dsimp only
    rw [derivedBatch_eq_batch hpreloads]
    have hstage : ∀ other : Table, other.stage = .derived table ↔ other = .derived table := by
      intro other
      cases other <;> simp [Table.stage]
    have hbatches : ∀ other : Table,
        (execution.record (.derived table)
            (data.batch attempt.pools (.derived table))).batches other =
          if other.stage = .derived table then data.batch attempt.pools other
          else execution.batches other := by
      intro other
      rw [record_batches]
      simp only [hstage]
    split
    · next hskip =>
      have hskipped : data.skipped attempt.pools (.derived table) = true := hskip
      refine ⟨[.derived table], List.prefix_rfl, fun _ => rfl, ?_, ?_, fun _ other => ?_⟩
      · simp [hskipped, after_nil, Execution.record]
      · simp [hskipped, Execution.record]
      · simpa using hbatches other
    · next hskip =>
      refine effect_of_commitStage (by simpa [BlockData.skipped] using hskip)
        (fun db' hwrite => ?_) rfl rfl hbatches
      rw [eq_of_write data attempt.pools (.derived table) hwrite]
      ext1
      · funext other
        rw [after_rows]
        by_cases heq : other = .derived table
        · subst heq
          simp [Table.stage]
        · simp [heq, hstage]
      · rw [after_processedBlocks]
        simp

theorem runProcessedBlock_effect :
    ∃ done, StageEffect attempt data execution [.processedBlock]
      (runProcessedBlock attempt data execution) done := by
  have hstage : ∀ table : Table, table.stage ≠ .processedBlock := by
    intro table
    cases table <;> simp [Table.stage]
  refine effect_of_commitStage rfl (fun db' hwrite => ?_) rfl rfl fun table => ?_
  · simp only [upsertProcessedBlock, Option.map_eq_some_iff, Option.ite_none_left_eq_some,
      Option.some.injEq] at hwrite
    obtain ⟨rows, ⟨_, rfl⟩, rfl⟩ := hwrite
    ext1
    · funext table
      rw [after_rows]
      simp [hstage]
    · rw [after_processedBlocks, if_pos (List.mem_singleton_self _)]
      rfl
  · simp [hstage]

variable (attempt data execution) in
theorem runStage_effect
    (stage : Stage)
    (hpreloads : ∀ table, stage = .derived table → data.Preloads execution.db) :
    ∃ done, StageEffect attempt data execution [stage]
      (runStage attempt data execution stage) done := by
  cases stage with
  | raw => exact runRaw_effect
  | derived table => exact runDerived_effect (hpreloads table rfl) table
  | processedBlock => exact runProcessedBlock_effect

/-- A decoder among the stages finds the protostones of the attempt: they are in
the database, or the raw stage comes first and puts them there. -/
def BlockData.PreloadsFor (data : BlockData) (stages : List Stage) (db : Db) : Prop :=
  data.Preloads db ∨ stages.head? = some .raw ∨ ∀ table, .derived table ∉ stages

theorem preloadsFor_stages
    (data : BlockData)
    (db : Db) :
    data.PreloadsFor data.stages db := by
  unfold BlockData.PreloadsFor BlockData.stages
  split
  · exact Or.inr (Or.inl rfl)
  · exact Or.inr (Or.inr (by simp))

theorem stages_nodup
    (data : BlockData) :
    data.stages.Nodup := by
  unfold BlockData.stages
  split <;> decide

theorem preloads_of_head
    {stage : Stage}
    {rest : List Stage}
    (hpreloads : data.PreloadsFor (stage :: rest) db) :
    ∀ table, stage = .derived table → data.Preloads db := by
  rintro table rfl
  rcases hpreloads with hdb | hraw | hnone
  · exact hdb
  · simp at hraw
  · exact absurd List.mem_cons_self (hnone table)

theorem preloadsFor_rest
    {stage : Stage}
    {rest done : List Stage}
    {run : Execution × Option PipelineError}
    (hpreloads : data.PreloadsFor (stage :: rest) execution.db)
    (heffect : StageEffect attempt data execution [stage] run done)
    (hnone : run.2 = none) :
    data.PreloadsFor rest run.1.db := by
  have hdone : done = [stage] := heffect.complete hnone
  subst hdone
  rcases hpreloads with hpre | hraw | hderived
  · left
    rw [heffect.db_eq]
    exact preloads_after _ (Or.inr hpre)
  · left
    rw [heffect.db_eq]
    have hhead : stage = .raw := by simpa using hraw
    subst hhead
    exact preloads_after _ (Or.inl (by simp [BlockData.skipped]))
  · exact Or.inr (Or.inr fun table hmem => hderived table (List.mem_cons_of_mem stage hmem))

variable (attempt data execution) in
/-- What a run over some stages has done when it ends, at its end or at the first
error. -/
theorem runStages_effect
    (stages : List Stage)
    (hnodup : stages.Nodup)
    (hpreloads : data.PreloadsFor stages execution.db) :
    ∃ done, StageEffect attempt data execution stages
      (runStages attempt data stages execution) done := by
  induction stages generalizing execution with
  | nil =>
      exact ⟨[], List.prefix_rfl, fun _ => rfl, by simp [runStages, after_nil],
        by simp [runStages], by simp [runStages]⟩
  | cons stage rest ih =>
      obtain ⟨hnot, hrest⟩ := List.nodup_cons.mp hnodup
      have hstage := preloads_of_head hpreloads
      obtain ⟨done, heffect⟩ := runStage_effect attempt data execution stage hstage
      unfold runStages
      rcases hrun : runStage attempt data execution stage with ⟨execution', _ | error⟩
      · -- the stage ended well: the rest runs on what it has left
        rw [hrun] at heffect
        have hpreloads' := preloadsFor_rest hpreloads heffect rfl
        have hdone : done = [stage] := heffect.complete rfl
        subst hdone
        have hdb := heffect.db_eq
        obtain ⟨later, hlater⟩ := ih _ hrest hpreloads'
        have hlaterNot : stage ∉ later := fun hmem => hnot (hlater.isPrefix.subset hmem)
        dsimp only
        refine ⟨stage :: later, ?_, ?_, ?_, ?_, ?_⟩
        · exact List.cons_prefix_cons.mpr ⟨rfl, hlater.isPrefix⟩
        · intro hnone
          rw [hlater.complete hnone]
        · rw [hlater.db_eq]
          change data.after attempt.pools _ execution'.db = _
          rw [hdb]
          cases hskipped : data.skipped attempt.pools stage with
          | true => simp [hskipped, after_nil]
          | false =>
              simp only [List.filter_cons, List.filter_nil, hskipped, Bool.not_false, if_true]
              exact after_cons data attempt.pools execution.db
                fun hmem => hlaterNot (List.mem_filter.mp hmem).1
        · rw [hlater.committed_eq]
          change execution'.committed ++ _ = _
          rw [heffect.committed_eq, List.append_assoc, ← List.filter_append]
          rfl
        · intro hnone table
          rw [hlater.batches_eq hnone table]
          have hbatches := heffect.batches_eq rfl table
          simp only [List.mem_singleton] at hbatches
          by_cases hmem : table.stage ∈ rest
          · simp [hmem]
          · simp only [hmem, if_false, List.mem_cons, or_false]
            exact hbatches
      · -- the stage failed and the run stops
        rw [hrun] at heffect
        refine ⟨done, ?_, by simp, heffect.db_eq, heffect.committed_eq, by simp⟩
        exact heffect.isPrefix.trans (List.cons_prefix_cons.mpr ⟨rfl, List.nil_prefix⟩)

theorem upsertProcessedBlock_isSome_iff
    {rows : List ProcessedBlockRow}
    {row : ProcessedBlockRow} :
    (upsertProcessedBlock rows row).isSome = true ↔
      row.blockHash ∉ (rows.filter fun old => old.blockHeight ≠ row.blockHeight).map
        ProcessedBlockRow.blockHash := by
  unfold upsertProcessedBlock
  dsimp only
  split
  · next hmem => exact ⟨fun hsome => by simp at hsome, fun hnot => absurd hmem hnot⟩
  · next hmem => exact ⟨fun _ => hmem, fun _ => rfl⟩

theorem runStage_eq_none_iff
    (stage : Stage)
    (hpreloads : ∀ table, stage = .derived table → data.Preloads execution.db) :
    (runStage attempt data execution stage).2 = none ↔
      StageReady attempt data execution.db stage := by
  cases stage with
  | raw =>
      change (commitStage _ _ _ _).2 = none ↔ _
      rw [commitStage_eq_none_iff, writeRaw_isSome_iff]
      rfl
  | derived table =>
      change (runDerived attempt data table execution).2 = none ↔
        attempt.fails (.read (.derived table)) = false ∧ _
      unfold runDerived
      cases hread : attempt.fails (.read (.derived table)) with
      | true => simp
      | false =>
          simp only [Bool.false_eq_true, if_false, true_and]
          rw [derivedBatch_eq_batch (hpreloads table rfl)]
          split
          · next hskip =>
            have hskipped : data.skipped attempt.pools (.derived table) = true := hskip
            simp [hskipped]
          · next hskip =>
            have hskipped : data.skipped attempt.pools (.derived table) = false := by
              simpa [BlockData.skipped] using hskip
            rw [commitStage_eq_none_iff, write_isSome_iff]
            simp [hskipped]
  | processedBlock =>
      change (commitStage _ _ _ _).2 = none ↔ _ ∧ data.HashFree execution.db
      rw [commitStage_eq_none_iff, Option.isSome_map, upsertProcessedBlock_isSome_iff]
      rfl

theorem hashFree_after_iff
    (pools : DerivedTable → List PoolRow)
    (stages : List Stage) :
    data.HashFree (data.after pools stages db) ↔ data.HashFree db := by
  unfold BlockData.HashFree
  rw [after_processedBlocks]
  split
  · simp [List.filter_append, List.filter_filter, BlockData.processedBlockRow]
  · rfl

theorem stageReady_after_iff
    (stages : List Stage)
    (stage : Stage) :
    StageReady attempt data (data.after attempt.pools stages db) stage ↔
      StageReady attempt data db stage := by
  cases stage with
  | raw => simp only [StageReady, otherRows_after]
  | derived table => simp only [StageReady, otherRows_after]
  | processedBlock =>
      exact and_congr_right fun _ => hashFree_after_iff attempt.pools stages

variable (attempt data execution) in
/-- A run ends well exactly when every stage has what it needs in the database
the run started from. -/
theorem runStages_eq_none_iff
    (stages : List Stage)
    (hnodup : stages.Nodup)
    (hpreloads : data.PreloadsFor stages execution.db) :
    (runStages attempt data stages execution).2 = none ↔
      ∀ stage ∈ stages, StageReady attempt data execution.db stage := by
  induction stages generalizing execution with
  | nil => simp [runStages]
  | cons stage rest ih =>
      obtain ⟨_, hrest⟩ := List.nodup_cons.mp hnodup
      have hstage := preloads_of_head hpreloads
      obtain ⟨done, heffect⟩ := runStage_effect attempt data execution stage hstage
      rw [List.forall_mem_cons, ← runStage_eq_none_iff stage hstage]
      unfold runStages
      rcases hrun : runStage attempt data execution stage with ⟨execution', _ | error⟩
      · rw [hrun] at heffect
        have hpreloads' := preloadsFor_rest hpreloads heffect rfl
        dsimp only at hpreloads' ⊢
        rw [ih _ hrest hpreloads']
        have hdb : execution'.db = _ := heffect.db_eq
        rw [hdb]
        simp only [stageReady_after_iff, true_and]
      · simp

end Stages

/-! ## A whole attempt -/

section Attempts

variable (attempt : Attempt) (emitPublish : Bool) (db : Db) (data : BlockData)

theorem writeBlock_effect :
    ∃ done, done <+: data.stages ∧
      ((writeBlock attempt emitPublish db data).error = none → done = data.stages) ∧
      (writeBlock attempt emitPublish db data).committed =
        done.filter fun stage => !data.skipped attempt.pools stage := by
  obtain ⟨done, heffect⟩ := runStages_effect attempt data (.start db) data.stages
    (stages_nodup data) (preloadsFor_stages data db)
  exact ⟨done, heffect.isPrefix, heffect.complete, heffect.committed_eq⟩

/-- The database an attempt leaves is determined by the stages it committed. -/
theorem writeBlock_db :
    (writeBlock attempt emitPublish db data).db =
      data.after attempt.pools (writeBlock attempt emitPublish db data).committed db := by
  obtain ⟨done, heffect⟩ := runStages_effect attempt data (.start db) data.stages
    (stages_nodup data) (preloadsFor_stages data db)
  have hcommitted : (writeBlock attempt emitPublish db data).committed = _ :=
    heffect.committed_eq
  have hdb : (writeBlock attempt emitPublish db data).db = _ := heffect.db_eq
  rw [hdb, hcommitted]
  rfl

theorem writeBlock_committed
    (herror : (writeBlock attempt emitPublish db data).error = none) :
    (writeBlock attempt emitPublish db data).committed =
      data.stages.filter fun stage => !data.skipped attempt.pools stage := by
  obtain ⟨done, _, hcomplete, hcommitted⟩ := writeBlock_effect attempt emitPublish db data
  rw [hcommitted, hcomplete herror]

theorem writeBlock_error_eq_none_iff :
    (writeBlock attempt emitPublish db data).error = none ↔
      ∀ stage ∈ data.stages, StageReady attempt data db stage :=
  runStages_eq_none_iff attempt data (.start db) data.stages (stages_nodup data)
    (preloadsFor_stages data db)

/-- The marker of a block is committed after every stage with something to
write. -/
theorem committed_of_processedBlock_mem
    (hmem : .processedBlock ∈ (writeBlock attempt emitPublish db data).committed) :
    (writeBlock attempt emitPublish db data).committed =
      data.stages.filter fun stage => !data.skipped attempt.pools stage := by
  obtain ⟨done, hinitial, _, hcommitted⟩ := writeBlock_effect attempt emitPublish db data
  rw [hcommitted] at hmem ⊢
  have hdone : .processedBlock ∈ done := (List.mem_filter.mp hmem).1
  obtain ⟨rest, hrest⟩ := hinitial
  -- the marker is the last stage, so nothing is left behind it
  have hlast : ∃ first, data.stages = first ++ [.processedBlock] := by
    unfold BlockData.stages
    split
    · exact ⟨_, rfl⟩
    · exact ⟨[], rfl⟩
  have hnil : rest = [] := by
    obtain ⟨first, hfirst⟩ := hlast
    by_contra hne
    have hrestLast : rest.getLast hne = .processedBlock := by
      have hlast' : data.stages.getLast? = some .processedBlock := by simp [hfirst]
      rw [← hrest, List.getLast?_append_of_ne_nil done hne,
        List.getLast?_eq_getLast_of_ne_nil hne] at hlast'
      exact Option.some.inj hlast'
    have hnodup := stages_nodup data
    rw [← hrest] at hnodup
    exact (List.nodup_append.mp hnodup).2.2 _ hdone _ (List.getLast_mem hne) hrestLast.symm
  rw [hnil, List.append_nil] at hrest
  rw [hrest]

theorem batch_eq_nil
    (hresults : data.results = [])
    (table : Table) :
    data.batch attempt.pools table = [] := by
  have hinputs : data.inputs = [] := by simp [BlockData.inputs, hresults]
  cases table with
  | alkaneTransaction => simp [BlockData.batch, BlockData.transactionRows, hresults]
  | decodedProtostone => simp [BlockData.batch, BlockData.protostoneRows, hresults]
  | traceEvent => simp [BlockData.batch, BlockData.eventRows, hresults]
  | derived table =>
      refine List.eq_nil_iff_forall_not_mem.mpr fun row hrow => ?_
      obtain ⟨input, hinput, _⟩ := data.input_of_mem_derivedBatch hrow
      simp [hinputs] at hinput

theorem stage_mem_stages
    (hreturn : data.txs.any txHasOpReturn = true)
    (table : Table) :
    table.stage ∈ data.stages := by
  unfold BlockData.stages
  rw [if_pos hreturn]
  cases table <;> simp [Table.stage, DerivedTable.mem_all]

theorem writeBlock_batches
    (herror : (writeBlock attempt emitPublish db data).error = none)
    (table : Table) :
    (writeBlock attempt emitPublish db data).batches table =
      data.batch attempt.pools table := by
  obtain ⟨done, heffect⟩ := runStages_effect attempt data (.start db) data.stages
    (stages_nodup data) (preloadsFor_stages data db)
  have hbatches : (writeBlock attempt emitPublish db data).batches table = _ :=
    heffect.batches_eq herror table
  rw [hbatches]
  split
  · rfl
  · next hnot =>
    have hreturn : data.txs.any txHasOpReturn = false := by
      by_contra htrue
      apply hnot
      exact stage_mem_stages data (by simpa using htrue) table
    rw [batch_eq_nil attempt data (data.results_nil hreturn)]
    rfl

theorem height_of_fetchBlock
    {rpc : Rpc}
    {schedule : Schedule}
    {height : ℕ}
    {data : BlockData}
    (hfetch : fetchBlock rpc schedule height = .ok data) :
    data.height = height ∧ data.rpc = rpc := by
  unfold fetchBlock at hfetch
  split at hfetch
  · cases hfetch
  · split at hfetch
    · cases hfetch
    · split at hfetch
      · cases hfetch
      · split at hfetch
        · simp only [Except.map] at hfetch
          split at hfetch
          · cases hfetch
          · cases hfetch
            exact ⟨rfl, rfl⟩
        · cases hfetch
          exact ⟨rfl, rfl⟩

/-- The results of a fetched block are those of its transactions, in some
order. -/
theorem results_perm_of_fetchBlock
    {rpc : Rpc}
    {schedule : Schedule}
    {height : ℕ}
    {data : BlockData}
    (hfetch : fetchBlock rpc schedule height = .ok data) :
    data.results.Perm (resultsInOrder rpc data.txs) := by
  unfold fetchBlock at hfetch
  split at hfetch
  · cases hfetch
  · split at hfetch
    · cases hfetch
    · split at hfetch
      · cases hfetch
      · next txs _ =>
        split at hfetch
        · cases hdecode : decodeAndTraceForBlock rpc schedule.turns (txs.filter txHasOpReturn) with
          | error error => simp [hdecode, Except.map] at hfetch
          | ok results =>
              simp only [hdecode, Except.map, Except.ok.injEq] at hfetch
              subst hfetch
              have hperm := perm_of_decodeAndTraceForBlock hdecode
              simpa [resultsInOrder, tracedTxs, List.filter_filter] using hperm
        · next hnone =>
          simp only [Except.ok.injEq] at hfetch
          subst hfetch
          have hempty : txs.filter txHasOpReturn = [] := by
            rw [List.filter_eq_nil_iff]
            intro tx htx hreturn
            exact hnone (List.any_eq_true.mpr ⟨tx, htx, hreturn⟩)
          simp [resultsInOrder, tracedTxs, hempty]

theorem answers_of_fetchBlock
    {rpc : Rpc}
    {schedule : Schedule}
    {height : ℕ}
    {data : BlockData}
    (hfetch : fetchBlock rpc schedule height = .ok data) :
    rpc.blockHash height = .ok data.blockHash ∧ ∃ txids,
      getBlockTxids rpc data.blockHash = .ok txids ∧
        getTransactionsInfo rpc schedule.picks txids 25 = .ok data.txs := by
  unfold fetchBlock at hfetch
  split at hfetch
  · cases hfetch
  · next blockHash hhash =>
    split at hfetch
    · cases hfetch
    · next txids htxids =>
      split at hfetch
      · cases hfetch
      · next txs htxs =>
        have hdata : data.blockHash = blockHash ∧ data.txs = txs := by
          split at hfetch
          · simp only [Except.map] at hfetch
            split at hfetch
            · cases hfetch
            · cases hfetch
              exact ⟨rfl, rfl⟩
          · cases hfetch
            exact ⟨rfl, rfl⟩
        obtain ⟨rfl, rfl⟩ := hdata
        exact ⟨hhash, txids, htxids, htxs⟩

/-- Two fetches of one block agree up to the order of its transactions. -/
theorem fetchBlock_perm
    {rpc : Rpc}
    {schedule schedule' : Schedule}
    {height : ℕ}
    {data data' : BlockData}
    (hfetch : fetchBlock rpc schedule height = .ok data)
    (hfetch' : fetchBlock rpc schedule' height = .ok data') :
    data.blockHash = data'.blockHash ∧ data.txs.Perm data'.txs ∧
      data.results.Perm data'.results := by
  obtain ⟨hhash, txids, htxids, htxs⟩ := answers_of_fetchBlock hfetch
  obtain ⟨hhash', txids', htxids', htxs'⟩ := answers_of_fetchBlock hfetch'
  have hsame : data.blockHash = data'.blockHash := by
    rw [hhash] at hhash'
    exact Except.ok.inj hhash'
  have htxidsEq : txids = txids' := by
    rw [← hsame, htxids] at htxids'
    exact Except.ok.inj htxids'
  subst htxidsEq
  have hperm : data.txs.Perm data'.txs :=
    (fetchedTxs_perm htxs).trans (fetchedTxs_perm htxs').symm
  refine ⟨hsame, hperm, ?_⟩
  calc
    data.results.Perm (resultsInOrder rpc data.txs) := results_perm_of_fetchBlock hfetch
    List.Perm _ (resultsInOrder rpc data'.txs) :=
      ((hperm.filter _).filter _).filterMap _
    List.Perm _ data'.results := (results_perm_of_fetchBlock hfetch').symm

theorem processBlockSequential_of_fetch
    {height : ℕ}
    {data : BlockData}
    (hfetch : fetchBlock attempt.rpc attempt.schedule height = .ok data) :
    processBlockSequential attempt height emitPublish db =
      writeBlock attempt emitPublish db data := by
  simp [processBlockSequential, hfetch]

theorem exists_data_of_error_eq_none
    {height : ℕ}
    (herror : (processBlockSequential attempt height emitPublish db).error = none) :
    ∃ data, fetchBlock attempt.rpc attempt.schedule height = .ok data := by
  unfold processBlockSequential at herror
  split at herror
  · cases herror
  · next data hfetch => exact ⟨data, hfetch⟩

end Attempts

end AlkanesIndexer
