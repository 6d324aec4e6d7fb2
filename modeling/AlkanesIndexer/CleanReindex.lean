import AlkanesIndexer.PipelineEffects

/-!
# Clean reindexing

Processing a height again should leave exactly the rows of the new run.  The
swaps are replaced whether or not there are any, but the other derived tables
are left alone by a run that decodes nothing for them, and no table is cleared
by height.  This file says for which prior contents of the database a successful
run is a clean one.
-/

namespace AlkanesIndexer

/-! ## Batches written without loss -/

theorem foldl_upsertTransaction_eq_of_nodup
    {batch : List AlkaneTransactionRow}
    (hnodup : (batch.map AlkaneTransactionRow.transactionId).Nodup) :
    batch.foldl upsertTransaction [] = batch := by
  induction batch using List.reverseRecOn with
  | nil => rfl
  | append_singleton batch row ih =>
      rw [List.map_append, List.nodup_append] at hnodup
      rw [List.foldl_append, ih hnodup.1]
      simp only [List.foldl_cons, List.foldl_nil, upsertTransaction]
      congr 1
      rw [List.filter_eq_self]
      intro old hold
      have hne := hnodup.2.2 _ (List.mem_map_of_mem hold) _ (List.mem_singleton_self _)
      simpa using hne

theorem foldl_upsertProtostone_eq_of_nodup
    {batch : List DecodedProtostoneRow}
    (hnodup : (batch.map protostoneKey).Nodup) :
    batch.foldl upsertProtostone [] = batch := by
  induction batch using List.reverseRecOn with
  | nil => rfl
  | append_singleton batch row ih =>
      rw [List.map_append, List.nodup_append] at hnodup
      rw [List.foldl_append, ih hnodup.1]
      simp only [List.foldl_cons, List.foldl_nil, upsertProtostone]
      rw [if_neg]
      intro hmem
      exact hnodup.2.2 _ hmem _ (List.mem_singleton_self _) rfl

theorem protostoneRows_keys_nodup
    {rpc : Rpc}
    {schedule : Schedule}
    {height : ℕ}
    {data : BlockData}
    (hfetch : fetchBlock rpc schedule height = .ok data)
    (hnodup : data.txids.Nodup) :
    (data.protostoneRows.map protostoneKey).Nodup := by
  rw [BlockData.protostoneRows, List.map_flatMap, List.nodup_flatMap]
  constructor
  · intro result hresult
    have hmem := (results_perm_of_fetchBlock hfetch).mem_iff.mp hresult
    obtain ⟨tx, _, hproduced⟩ := List.mem_filterMap.mp hmem
    have hdecode : decodeAndTrace rpc tx = .ok (some result) := by
      unfold BatchScheduler.produced at hproduced
      split at hproduced
      · next found hfound => rw [hfound, hproduced]
      · cases hproduced
    have hindices := protostoneIndex_nodup hdecode
    rw [List.map_map]
    refine List.Nodup.of_map (fun key : String × ℤ × ℕ => key.2.2) ?_
    rw [List.map_map]
    exact hindices
  · have hpairwise : data.results.Pairwise fun left right =>
        left.transactionId ≠ right.transactionId := List.pairwise_map.mp hnodup
    refine hpairwise.imp ?_
    intro left right hne key hleft hright
    obtain ⟨first, hfirst, rfl⟩ := List.mem_map.mp hleft
    obtain ⟨second, hsecond, hkey⟩ := List.mem_map.mp hright
    obtain ⟨_, _, rfl⟩ := List.mem_map.mp hfirst
    obtain ⟨_, _, rfl⟩ := List.mem_map.mp hsecond
    exact hne (congrArg Prod.fst hkey).symm

/-- With distinct transactions every batch is written as it is. -/
theorem written_batch_eq
    {rpc : Rpc}
    {schedule : Schedule}
    {height : ℕ}
    {data : BlockData}
    (pools : DerivedTable → List PoolRow)
    (hfetch : fetchBlock rpc schedule height = .ok data)
    (hnodup : data.txids.Nodup)
    (table : Table) :
    written table (data.batch pools table) = data.batch pools table := by
  cases table with
  | alkaneTransaction =>
      refine foldl_upsertTransaction_eq_of_nodup ?_
      change (data.transactionRows.map AlkaneTransactionRow.transactionId).Nodup
      rwa [data.transactionRows_txids]
  | decodedProtostone =>
      exact foldl_upsertProtostone_eq_of_nodup (protostoneRows_keys_nodup hfetch hnodup)
  | traceEvent => rfl
  | derived table => rfl

/-! ## Which stages are left out -/

/-- The traces of a block have nothing to write for a table: no event that its
decoder makes a row of.  The swaps are written in any case. -/
def NothingToWrite (data : BlockData) (pools : List PoolRow) : DerivedTable → Prop
  | .poolSwap => False
  | .poolCreation => ∀ input ∈ data.inputs, ∀ event ∈ input.events,
      PoolCreation.creationOfEvent input.events event = none
  | .poolMint => ∀ input ∈ data.inputs, ∀ event ∈ input.events,
      isDelegateInvokeMint event = true → namesPool (poolIdOf event) = true →
        poolIdOf event ∉ pools.map PoolRow.pool
  | .poolBurn => ∀ input ∈ data.inputs, ∀ event ∈ input.events,
      isDelegateInvokeBurn event = true → namesPool (poolIdOf event) = true →
        poolIdOf event ∉ pools.map PoolRow.pool
  | .subfrostWrap => ∀ input ∈ data.inputs, ∀ event ∈ input.events,
      Subfrost.isSubfrostWrapInvoke event = false
  | .subfrostUnwrap => ∀ input ∈ data.inputs, ∀ event ∈ input.events,
      Subfrost.isSubfrostUnwrapInvoke event = false

theorem creationRows_eq_nil_iff
    {decoded : DecodedByTxVout}
    {height : ℕ}
    {inputs : List TxInput} :
    creationRows decoded height inputs = [] ↔
      ∀ input ∈ inputs, ∀ event ∈ input.events,
        PoolCreation.creationOfEvent input.events event = none := by
  simp only [creationRows, List.flatMap_eq_nil_iff, List.map_eq_nil_iff]
  refine forall₂_congr fun input _ => ?_
  have hperm := PoolCreation.detectPoolCreationsForTx_perm input.events
  constructor
  · intro hnil
    rw [hnil, List.nil_perm] at hperm
    simpa using hperm
  · intro hnone
    refine List.Perm.eq_nil (hperm.trans ?_)
    rw [List.perm_nil, List.filterMap_eq_nil_iff]
    intro event hevent
    rw [hnone event hevent]
    rfl

theorem skipped_derived_iff
    {data : BlockData}
    {pools : DerivedTable → List PoolRow}
    (table : DerivedTable) :
    data.skipped pools (.derived table) = true ↔
      NothingToWrite data (pools table) table := by
  cases table with
  | poolSwap => simp [BlockData.skipped, DerivedTable.skipsEmptyBatch, NothingToWrite]
  | poolCreation => exact List.isEmpty_iff.trans creationRows_eq_nil_iff
  | poolMint => exact List.isEmpty_iff.trans LiquidityDecoder.rows_eq_nil_iff
  | poolBurn => exact List.isEmpty_iff.trans LiquidityDecoder.rows_eq_nil_iff
  | subfrostWrap => exact List.isEmpty_iff.trans Subfrost.rows_eq_nil_iff
  | subfrostUnwrap => exact List.isEmpty_iff.trans Subfrost.rows_eq_nil_iff

theorem batch_of_skipped
    {data : BlockData}
    {pools : DerivedTable → List PoolRow}
    (table : Table)
    (hskipped : data.skipped pools table.stage = true) :
    data.batch pools table = [] := by
  cases table with
  | derived table =>
      exact List.isEmpty_iff.mp (Bool.and_eq_true_iff.mp hskipped).2
  | alkaneTransaction => cases hskipped
  | decodedProtostone => cases hskipped
  | traceEvent => cases hskipped

/-! ## Clean runs -/

/-- The rows of a table which carry the height or one of the transactions. -/
def blockRows
    (db : Db)
    (height : ℕ)
    (txids : List String)
    (table : Table) : List table.Row :=
  (db.rows table).filter fun row =>
    table.blockHeight row = height ∨ table.transactionId row ∈ txids

/-- After the run the rows of its height and of its transactions are, in every
table, the rows it has computed. -/
def CleanReindex (height : ℕ) (outcome : Outcome) : Prop :=
  ∀ table, (blockRows outcome.db height
    ((outcome.batches .alkaneTransaction).map AlkaneTransactionRow.transactionId)
    table).Perm (outcome.batches table)

/-- The prior contents a run replaces completely: no row of its height belongs to
another transaction, and a table for which the run has nothing to write holds no
row of its transactions.  The transactions themselves are distinct. -/
structure Replaceable (data : BlockData) (pools : DerivedTable → List PoolRow) (db : Db) :
    Prop where
  txids_nodup : data.txids.Nodup
  height_owned : ∀ table, ∀ row ∈ db.rows table,
    table.blockHeight row = data.height → table.transactionId row ∈ data.txids
  untouched_empty : ∀ table : DerivedTable, NothingToWrite data (pools table) table →
    ∀ row ∈ db.rows (.derived table), table.transactionId row ∉ data.txids

section Tables

variable
  {data : BlockData}
  {pools : DerivedTable → List PoolRow}
  {db : Db}
  {table : Table}

/-- A replaced table is clean when nothing of the height was left behind and its
batch was written without loss. -/
theorem replaced_perm_iff :
    ((db.otherRows table data.txids ++ written table (data.batch pools table)).filter
        fun row => table.blockHeight row = data.height ∨
          table.transactionId row ∈ data.txids).Perm (data.batch pools table) ↔
      (∀ row ∈ db.rows table, table.blockHeight row = data.height →
          table.transactionId row ∈ data.txids) ∧
        (written table (data.batch pools table)).Perm (data.batch pools table) := by
  have hwritten : (written table (data.batch pools table)).filter (fun row =>
      table.blockHeight row = data.height ∨ table.transactionId row ∈ data.txids) =
        written table (data.batch pools table) := by
    rw [List.filter_eq_self]
    intro row hrow
    simp [written_mem_txids data pools table hrow]
  rw [List.filter_append, hwritten]
  constructor
  · intro hperm
    have hnone : (db.otherRows table data.txids).filter (fun row =>
        table.blockHeight row = data.height ∨
          table.transactionId row ∈ data.txids) = [] := by
      rw [List.filter_eq_nil_iff]
      intro row hrow hcarries
      have hmem : row ∈ data.batch pools table :=
        hperm.mem_iff.mp (List.mem_append_left _ (List.mem_filter.mpr ⟨hrow, hcarries⟩))
      have hother := (List.mem_filter.mp hrow).2
      simp [(data.mem_txids_of_mem_batch pools hmem).1] at hother
    refine ⟨fun row hrow hheight => ?_, by rwa [hnone, List.nil_append] at hperm⟩
    by_contra hother
    have hmem : row ∈ db.otherRows table data.txids :=
      List.mem_filter.mpr ⟨hrow, by simpa using hother⟩
    have hcarries := List.filter_eq_nil_iff.mp hnone row hmem
    simp [hheight] at hcarries
  · rintro ⟨howned, hperm⟩
    have hnone : (db.otherRows table data.txids).filter (fun row =>
        table.blockHeight row = data.height ∨
          table.transactionId row ∈ data.txids) = [] := by
      rw [List.filter_eq_nil_iff]
      intro row hrow hcarries
      obtain ⟨hmem, hother⟩ := List.mem_filter.mp hrow
      simp only [decide_eq_true_eq] at hother hcarries
      exact hother (hcarries.elim (howned row hmem) id)
    rwa [hnone, List.nil_append]

/-- A table left alone is clean when it holds neither rows of the height nor rows
of the transactions. -/
theorem untouched_perm_iff
    (hbatch : data.batch pools table = []) :
    ((db.rows table).filter fun row =>
        table.blockHeight row = data.height ∨
          table.transactionId row ∈ data.txids).Perm (data.batch pools table) ↔
      (∀ row ∈ db.rows table, table.blockHeight row = data.height →
          table.transactionId row ∈ data.txids) ∧
        ∀ row ∈ db.rows table, table.transactionId row ∉ data.txids := by
  rw [hbatch, List.perm_nil, List.filter_eq_nil_iff]
  simp only [decide_eq_true_eq, not_or]
  constructor
  · intro hnone
    exact ⟨fun row hrow hheight => absurd hheight (hnone row hrow).1,
      fun row hrow => (hnone row hrow).2⟩
  · rintro ⟨howned, hnot⟩ row hrow
    exact ⟨fun hheight => hnot row hrow (howned row hrow hheight), hnot row hrow⟩

end Tables

theorem rows_writeBlock
    {attempt : Attempt}
    {emitPublish : Bool}
    {db : Db}
    {data : BlockData}
    (herror : (writeBlock attempt emitPublish db data).error = none)
    (table : Table) :
    (writeBlock attempt emitPublish db data).db.rows table =
      if table.stage ∈ data.stages ∧ data.skipped attempt.pools table.stage = false then
        db.otherRows table data.txids ++ written table (data.batch attempt.pools table)
      else db.rows table := by
  rw [writeBlock_db, after_rows, writeBlock_committed _ _ _ _ herror]
  simp only [List.mem_filter, Bool.not_eq_true']

/-- A successful run is clean exactly on the prior contents it replaces
completely. -/
theorem cleanReindex_iff
    {attempt : Attempt}
    {height : ℕ}
    {emitPublish : Bool}
    {db : Db}
    {data : BlockData}
    (hfetch : fetchBlock attempt.rpc attempt.schedule height = .ok data)
    (hsuccess : (processBlockSequential attempt height emitPublish db).error = none) :
    CleanReindex height (processBlockSequential attempt height emitPublish db) ↔
      Replaceable data attempt.pools db := by
  rw [processBlockSequential_of_fetch attempt emitPublish db hfetch] at hsuccess ⊢
  have hheight : data.height = height := (height_of_fetchBlock hfetch).1
  subst hheight
  unfold CleanReindex blockRows
  simp only [writeBlock_batches attempt emitPublish db data hsuccess,
    rows_writeBlock hsuccess]
  have htxids : (data.batch attempt.pools .alkaneTransaction).map
      AlkaneTransactionRow.transactionId = data.txids := data.transactionRows_txids
  simp only [htxids]
  cases hreturn : data.txs.any txHasOpReturn with
  | false =>
      have hresults := data.results_nil hreturn
      have hnone : data.txids = [] := by simp [BlockData.txids, hresults]
      have hstage : ∀ table : Table, table.stage ∉ data.stages := by
        intro table
        unfold BlockData.stages
        rw [if_neg (by simp [hreturn])]
        cases table <;> simp [Table.stage]
      simp only [hstage, false_and, if_false,
        untouched_perm_iff (batch_eq_nil attempt data hresults _)]
      constructor
      · intro hclean
        exact ⟨by simp [hnone], fun table => (hclean table).1,
          fun table _ => (hclean (.derived table)).2⟩
      · intro hreplaceable table
        exact ⟨hreplaceable.height_owned table, by simp [hnone]⟩
  | true =>
      simp only [stage_mem_stages data hreturn, true_and]
      constructor
      · intro hclean
        refine ⟨?_, fun table => ?_, fun table hnothing => ?_⟩
        · have htable := hclean .alkaneTransaction
          rw [if_pos (show data.skipped attempt.pools (Table.stage .alkaneTransaction) = false
            from rfl)] at htable
          have hperm := (replaced_perm_iff.mp htable).2.map AlkaneTransactionRow.transactionId
          have hnodup := foldl_upsertTransaction_txids_nodup data.transactionRows
          rw [← htxids]
          exact hperm.nodup_iff.mp hnodup
        · have htable := hclean table
          split at htable
          · exact (replaced_perm_iff.mp htable).1
          · next hskipped =>
            exact ((untouched_perm_iff (batch_of_skipped _ (by simpa using hskipped))).mp
              htable).1
        · have hskipped := (skipped_derived_iff table).mpr hnothing
          have htable := hclean (.derived table)
          rw [if_neg (by simp [Table.stage, hskipped])] at htable
          exact ((untouched_perm_iff (batch_of_skipped _ hskipped)).mp htable).2
      · intro hreplaceable table
        split
        · refine replaced_perm_iff.mpr ⟨hreplaceable.height_owned table, ?_⟩
          rw [written_batch_eq attempt.pools hfetch hreplaceable.txids_nodup]
        · next hskipped =>
          have hskip : data.skipped attempt.pools table.stage = true := by simpa using hskipped
          refine (untouched_perm_iff (batch_of_skipped _ hskip)).mpr
            ⟨hreplaceable.height_owned table, ?_⟩
          cases table with
          | derived table =>
              exact hreplaceable.untouched_empty table ((skipped_derived_iff table).mp hskip)
          | alkaneTransaction => cases hskip
          | decodedProtostone => cases hskip
          | traceEvent => cases hskip

/-! ## A stale mint -/

def mintedPool : PoolRow where
  factory := ("4", "1")
  pool := ("2", "10")
  token0 := ("2", "0")
  token1 := ("32", "0")
  poolName := "DIESEL / frBTC"

def mintingAttempt : Attempt :=
  .smooth (.serving "first" [("a1", [invokeTrace ("0x2", "0xa") "0x1" []])]) [mintedPool]

def mintingData : BlockData :=
  match fetchBlock mintingAttempt.rpc mintingAttempt.schedule 5 with
  | .ok data => data
  | .error _ => ⟨mintingAttempt.rpc, 5, "", [], [], fun _ => rfl⟩

set_option maxRecDepth 4000 in
theorem mintingAttempt_succeeds :
    (processBlockSequential mintingAttempt 5 false .empty).error = none := by
  decide

theorem mintingAttempt_fetches :
    fetchBlock mintingAttempt.rpc mintingAttempt.schedule 5 = .ok mintingData := by
  obtain ⟨data, hfetch⟩ := exists_data_of_error_eq_none _ _ _ mintingAttempt_succeeds
  rw [mintingData, hfetch]

def idleAttempt : Attempt := .smooth (.serving "second" [("a1", [])]) [mintedPool]

def mintedDb : Db := (processBlockSequential mintingAttempt 5 false .empty).db

set_option maxRecDepth 4000 in
theorem idleAttempt_succeeds :
    (processBlockSequential idleAttempt 5 false mintedDb).error = none := by
  decide

set_option maxRecDepth 4000 in
/-- The second run succeeds and leaves the mint of the first one in place. -/
theorem stale_mint_survives :
    (processBlockSequential idleAttempt 5 false mintedDb).error = none ∧
      ¬ CleanReindex 5 (processBlockSequential idleAttempt 5 false mintedDb) := by
  refine ⟨idleAttempt_succeeds, fun hclean => ?_⟩
  have hlength := (hclean (.derived .poolMint)).length_eq
  exact absurd hlength (by decide)

theorem cleanReindex_iff_of_idleAttempt :
    ∃ data, fetchBlock idleAttempt.rpc idleAttempt.schedule 5 = .ok data ∧
      (CleanReindex 5 (processBlockSequential idleAttempt 5 false mintedDb) ↔
        Replaceable data idleAttempt.pools mintedDb) := by
  obtain ⟨data, hfetch⟩ := exists_data_of_error_eq_none _ _ _ idleAttempt_succeeds
  exact ⟨data, hfetch, cleanReindex_iff hfetch idleAttempt_succeeds⟩

end AlkanesIndexer
