import AlkanesIndexer.PipelineEffects

/-!
# Heights of the raw tables, and purging a block

The pipeline replaces raw rows by transaction, `purge-block` deletes them by
height.  The two agree because the three raw tables are rewritten together: a
trace event or a decoded protostone always has the height of the transaction row
it refers to.
-/

namespace AlkanesIndexer

/-! ## The store -/

structure ClockInRow where
  transactionId : String
  blockHeight : ℕ
  deriving DecidableEq, Repr

/-- The tables `purge-block` names.  Of `PoolState` and `ClockInBlockSummary` only
the heights of the rows are kept. -/
structure Store where
  db : Db
  clockIn : List ClockInRow
  poolState : List ℕ
  clockInBlockSummary : List ℕ

namespace Store

def empty : Store := ⟨.empty, [], [], []⟩

/-- `delete from … where "blockHeight" = $1`; the column is an `i32`. -/
def deleteRows (store : Store) (table : Table) (height : ℤ) : Store :=
  { store with
    db := store.db.setRows table
      ((store.db.rows table).filter fun row => asI32 (table.blockHeight row) ≠ height) }

def deleteClockIn (store : Store) (height : ℤ) : Store :=
  { store with
    clockIn := store.clockIn.filter fun row => asI32 row.blockHeight ≠ height }

/-- The transactions which rows with a foreign key refer to. -/
def referencedTxids (store : Store) : List String :=
  (store.db.rows .traceEvent).map TraceEventRow.transactionId ++
    (store.db.rows .decodedProtostone).map DecodedProtostoneRow.transactionId ++
      store.clockIn.map ClockInRow.transactionId

/-- Deleting the transactions of a height would leave a reference behind. -/
def violatesForeignKey (store : Store) (height : ℤ) : Bool :=
  (store.db.rows .alkaneTransaction).any fun row =>
    asI32 (AlkaneTransactionRow.blockHeight row) = height &&
      AlkaneTransactionRow.transactionId row ∈ store.referencedTxids

def deleteBlockMetadata (store : Store) (height : ℤ) : Store :=
  { store with
    db := { store.db with
      processedBlocks := store.db.processedBlocks.filter fun row =>
        asI32 row.blockHeight ≠ height }
    poolState := store.poolState.filter fun rowHeight => asI32 rowHeight ≠ height
    clockInBlockSummary := store.clockInBlockSummary.filter fun rowHeight =>
      asI32 rowHeight ≠ height }

def purgedFirst : List Table :=
  [.derived .poolSwap, .derived .poolMint, .derived .poolBurn, .derived .poolCreation,
    .derived .subfrostWrap, .derived .subfrostUnwrap, .traceEvent, .decodedProtostone]

/-- `Commands::PurgeBlock`, `none` where the transaction fails. -/
def purgeBlock (height : ℤ) (store : Store) : Option Store :=
  let events := purgedFirst.foldl (fun store table => store.deleteRows table height) store
  let clocked := events.deleteClockIn height
  if clocked.violatesForeignKey height then none
  else some ((clocked.deleteRows .alkaneTransaction height).deleteBlockMetadata height)

end Store

/-- What happens to the store.  A purge can also be interrupted, and then it is
rolled back; the pool refresh adds rows to `PoolState`. -/
inductive StoreAction where
  | processBlock (attempt : Attempt) (height : ℕ) (emitPublish : Bool)
  | purgeBlock (height : ℤ) (interrupted : Bool)
  | poolStates (heights : List ℕ)

namespace Store

def step (store : Store) : StoreAction → Store
  | .processBlock attempt height emitPublish =>
      { store with db := (processBlockSequential attempt height emitPublish store.db).db }
  | .purgeBlock height interrupted =>
      if interrupted then store else (store.purgeBlock height).getD store
  | .poolStates heights => { store with poolState := store.poolState ++ heights }

/-! ## Coherence -/

/-- A row refers to the row of its transaction, and that has the height of the row. -/
def RefersTo (db : Db) (transactionId : String) (blockHeight : ℕ) : Prop :=
  ∃ tx ∈ db.rows .alkaneTransaction, AlkaneTransactionRow.transactionId tx = transactionId ∧
    AlkaneTransactionRow.blockHeight tx = blockHeight

structure Coherent (store : Store) : Prop where
  txids_nodup :
    ((store.db.rows .alkaneTransaction).map AlkaneTransactionRow.transactionId).Nodup
  traceEvents : ∀ row ∈ store.db.rows .traceEvent,
    RefersTo store.db (TraceEventRow.transactionId row) (TraceEventRow.blockHeight row)
  protostones : ∀ row ∈ store.db.rows .decodedProtostone,
    RefersTo store.db (DecodedProtostoneRow.transactionId row)
      (DecodedProtostoneRow.blockHeight row)
  clockIn : store.clockIn = []

theorem coherent_empty :
    Store.empty.Coherent where
  txids_nodup := List.nodup_nil
  traceEvents := fun _ hrow => absurd hrow List.not_mem_nil
  protostones := fun _ hrow => absurd hrow List.not_mem_nil
  clockIn := rfl

section After

variable (data : BlockData) (pools : DerivedTable → List PoolRow) {db : Db}

/-- Every transaction of a committed block has a row with the block's height. -/
theorem refersTo_written
    {stages : List Stage}
    (hraw : .raw ∈ stages)
    {txid : String}
    (htxid : txid ∈ data.txids) :
    RefersTo (data.after pools stages db) txid data.height := by
  rw [← data.transactionRows_txids] at htxid
  obtain ⟨row, hrow, heq⟩ := exists_mem_foldl_upsertTransaction htxid
  refine ⟨row, ?_, heq, written_blockHeight data pools .alkaneTransaction hrow⟩
  have hstage : Table.stage .alkaneTransaction ∈ stages := hraw
  rw [after_rows, if_pos hstage]
  exact List.mem_append_right _ hrow

theorem refersTo_after
    {stages : List Stage}
    {txid : String}
    {height : ℕ}
    (hother : .raw ∈ stages → txid ∉ data.txids)
    (hrefers : RefersTo db txid height) :
    RefersTo (data.after pools stages db) txid height := by
  obtain ⟨tx, htx, heq, hheight⟩ := hrefers
  refine ⟨tx, ?_, heq, hheight⟩
  rw [after_rows]
  by_cases hraw : Table.stage .alkaneTransaction ∈ stages
  · rw [if_pos hraw]
    apply List.mem_append_left
    apply List.mem_filter.mpr
    refine ⟨htx, decide_eq_true ?_⟩
    change AlkaneTransactionRow.transactionId tx ∉ data.txids
    rw [heq]
    exact hother hraw
  · rwa [if_neg hraw]

theorem refersTo_of_mem_after
    (stages : List Stage)
    (table : Table)
    (htable : table.stage = .raw)
    (hrefers : ∀ row ∈ db.rows table,
      RefersTo db (table.transactionId row) (table.blockHeight row)) :
    ∀ row ∈ (data.after pools stages db).rows table,
      RefersTo (data.after pools stages db) (table.transactionId row)
        (table.blockHeight row) := by
  intro row hrow
  rw [after_rows, htable] at hrow
  by_cases hraw : Stage.raw ∈ stages
  · rw [if_pos hraw, List.mem_append] at hrow
    cases hrow with
    | inl hold =>
        obtain ⟨hmem, hother⟩ := List.mem_filter.mp hold
        exact refersTo_after data pools (fun _ => of_decide_eq_true hother) (hrefers row hmem)
    | inr hnew =>
        rw [written_blockHeight data pools table hnew]
        exact refersTo_written data pools hraw (written_mem_txids data pools table hnew)
  · rw [if_neg hraw] at hrow
    exact refersTo_after data pools (fun h => absurd h hraw) (hrefers row hrow)

theorem coherent_after
    {store : Store}
    (hcoherent : store.Coherent)
    (stages : List Stage) :
    Coherent { store with db := data.after pools stages store.db } where
  txids_nodup := by
    change (((data.after pools stages store.db).rows .alkaneTransaction).map _).Nodup
    rw [after_rows]
    by_cases hraw : Table.stage .alkaneTransaction ∈ stages
    · rw [if_pos hraw, List.map_append, List.nodup_append]
      refine ⟨?_, foldl_upsertTransaction_txids_nodup _, ?_⟩
      · exact hcoherent.txids_nodup.sublist (List.filter_sublist.map _)
      · rintro txid hold _ hnew rfl
        obtain ⟨old, hmem, rfl⟩ := List.mem_map.mp hold
        obtain ⟨new, hnewMem, heq⟩ := List.mem_map.mp hnew
        have hother := of_decide_eq_true (List.mem_filter.mp hmem).2
        apply hother
        change AlkaneTransactionRow.transactionId old ∈ data.txids
        rw [← heq]
        exact written_mem_txids data pools .alkaneTransaction hnewMem
    · rw [if_neg hraw]
      exact hcoherent.txids_nodup
  traceEvents := refersTo_of_mem_after data pools stages .traceEvent rfl
    hcoherent.traceEvents
  protostones := refersTo_of_mem_after data pools stages .decodedProtostone rfl
    hcoherent.protostones
  clockIn := hcoherent.clockIn

end After

/-! ## Purging -/

section Purge

variable {store : Store} {height : ℤ}

theorem rows_foldl_deleteRows
    (tables : List Table)
    (store : Store)
    (table : Table) :
    (tables.foldl (fun store table => store.deleteRows table height) store).db.rows table =
      if table ∈ tables then
        (store.db.rows table).filter fun row => asI32 (table.blockHeight row) ≠ height
      else store.db.rows table := by
  induction tables generalizing store with
  | nil => simp
  | cons first rest ih =>
      rw [List.foldl_cons, ih]
      by_cases hfirst : table = first
      · subst hfirst
        simp only [deleteRows, Db.setRows_rows, List.mem_cons, true_or, if_true]
        split
        · rw [List.filter_filter]
          simp only [Bool.and_self]
        · rfl
      · simp only [deleteRows, Db.setRows_rows_of_ne _ _ hfirst, List.mem_cons, hfirst, false_or]

theorem foldl_deleteRows_clockIn
    (tables : List Table)
    (store : Store) :
    (tables.foldl (fun store table => store.deleteRows table height) store).clockIn =
      store.clockIn := by
  induction tables generalizing store with
  | nil => rfl
  | cons first rest ih =>
      rw [List.foldl_cons, ih]
      rfl

def beforeTransactions (store : Store) (height : ℤ) : Store :=
  (purgedFirst.foldl (fun store table => store.deleteRows table height) store).deleteClockIn
    height

theorem beforeTransactions_rows
    (table : Table) :
    (store.beforeTransactions height).db.rows table =
      if table ∈ purgedFirst then
        (store.db.rows table).filter fun row => asI32 (table.blockHeight row) ≠ height
      else store.db.rows table :=
  rows_foldl_deleteRows purgedFirst store table

theorem blockHeight_of_refersTo
    (hcoherent : store.Coherent)
    {tx : AlkaneTransactionRow}
    (htx : tx ∈ store.db.rows .alkaneTransaction)
    {rowHeight : ℕ}
    (hrefers : RefersTo store.db tx.transactionId rowHeight) :
    tx.blockHeight = rowHeight := by
  obtain ⟨tx', htx', heq, hheight⟩ := hrefers
  rw [← hheight, List.inj_on_of_nodup_map hcoherent.txids_nodup htx' htx heq]

theorem violatesForeignKey_beforeTransactions
    (hcoherent : store.Coherent) :
    (store.beforeTransactions height).violatesForeignKey height = false := by
  have hclockIn : (store.beforeTransactions height).clockIn = [] := by
    unfold beforeTransactions deleteClockIn
    simp only [foldl_deleteRows_clockIn, hcoherent.clockIn, List.filter_nil]
  unfold violatesForeignKey
  rw [List.any_eq_false]
  intro tx htx
  rw [beforeTransactions_rows] at htx
  simp only [referencedTxids, hclockIn, beforeTransactions_rows, List.map_nil, List.append_nil,
    Bool.and_eq_true, decide_eq_true_eq, List.mem_append, List.mem_map, not_and, not_or,
    not_exists]
  intro hheight
  have hfar : ∀ rowHeight, RefersTo store.db (AlkaneTransactionRow.transactionId tx) rowHeight →
      asI32 rowHeight = height := by
    intro rowHeight hrefers
    rw [← blockHeight_of_refersTo hcoherent htx hrefers]
    exact hheight
  constructor
  · intro row hrow heq
    obtain ⟨hmem, hkept⟩ := List.mem_filter.mp hrow
    apply of_decide_eq_true hkept
    apply hfar
    rw [← heq]
    exact hcoherent.traceEvents row hmem
  · intro row hrow heq
    obtain ⟨hmem, hkept⟩ := List.mem_filter.mp hrow
    apply of_decide_eq_true hkept
    apply hfar
    rw [← heq]
    exact hcoherent.protostones row hmem

variable (height) in
theorem purgeBlock_of_coherent
    (hcoherent : store.Coherent) :
    store.purgeBlock height =
      some (((store.beforeTransactions height).deleteRows .alkaneTransaction
        height).deleteBlockMetadata height) := by
  change (if (store.beforeTransactions height).violatesForeignKey height = true then none
    else some _) = _
  rw [violatesForeignKey_beforeTransactions hcoherent]
  rfl

theorem mem_purgedFirst_iff
    {table : Table} :
    table ∈ purgedFirst ↔ table ≠ .alkaneTransaction := by
  cases table with
  | derived table => cases table <;> decide
  | alkaneTransaction => decide
  | decodedProtostone => decide
  | traceEvent => decide

theorem eq_of_purgeBlock
    {purged : Store}
    (hpurge : store.purgeBlock height = some purged) :
    purged = ((store.beforeTransactions height).deleteRows .alkaneTransaction
      height).deleteBlockMetadata height := by
  change (if (store.beforeTransactions height).violatesForeignKey height = true then none
    else some _) = _ at hpurge
  rw [Option.ite_none_left_eq_some] at hpurge
  exact (Option.some.inj hpurge.2).symm

/-- A purge deletes the rows of its height and no others, in every table. -/
theorem rows_of_purgeBlock
    {purged : Store}
    (hpurge : store.purgeBlock height = some purged)
    (table : Table) :
    purged.db.rows table =
      (store.db.rows table).filter fun row => asI32 (table.blockHeight row) ≠ height := by
  rw [eq_of_purgeBlock hpurge]
  change ((store.beforeTransactions height).db.setRows .alkaneTransaction _).rows table = _
  by_cases htable : table = .alkaneTransaction
  · subst htable
    rw [Db.setRows_rows, beforeTransactions_rows, if_neg (by simp [mem_purgedFirst_iff])]
  · rw [Db.setRows_rows_of_ne _ _ htable, beforeTransactions_rows,
      if_pos (mem_purgedFirst_iff.mpr htable)]

theorem others_of_purgeBlock
    {purged : Store}
    (hpurge : store.purgeBlock height = some purged) :
    purged.clockIn = (store.clockIn.filter fun row => asI32 row.blockHeight ≠ height) ∧
      (∀ row ∈ purged.db.processedBlocks, asI32 row.blockHeight ≠ height) ∧
      (∀ rowHeight ∈ purged.poolState, asI32 rowHeight ≠ height) ∧
      ∀ rowHeight ∈ purged.clockInBlockSummary, asI32 rowHeight ≠ height := by
  rw [eq_of_purgeBlock hpurge]
  refine ⟨?_, ?_, ?_, ?_⟩
  · change ((purgedFirst.foldl (fun store table => store.deleteRows table height)
      store).clockIn.filter _) = _
    rw [foldl_deleteRows_clockIn]
  · intro row hrow
    exact of_decide_eq_true (List.mem_filter.mp hrow).2
  · intro rowHeight hrow
    exact of_decide_eq_true (List.mem_filter.mp hrow).2
  · intro rowHeight hrow
    exact of_decide_eq_true (List.mem_filter.mp hrow).2

theorem refersTo_of_purgeBlock
    {purged : Store}
    (hpurge : store.purgeBlock height = some purged)
    {txid : String}
    {rowHeight : ℕ}
    (hkept : asI32 rowHeight ≠ height)
    (hrefers : RefersTo store.db txid rowHeight) :
    RefersTo purged.db txid rowHeight := by
  obtain ⟨tx, htx, heq, hheight⟩ := hrefers
  refine ⟨tx, ?_, heq, hheight⟩
  rw [rows_of_purgeBlock hpurge]
  apply List.mem_filter.mpr
  refine ⟨htx, decide_eq_true ?_⟩
  change asI32 (AlkaneTransactionRow.blockHeight tx) ≠ height
  rwa [hheight]

theorem coherent_of_purgeBlock
    {purged : Store}
    (hcoherent : store.Coherent)
    (hpurge : store.purgeBlock height = some purged) :
    purged.Coherent where
  txids_nodup := by
    rw [rows_of_purgeBlock hpurge]
    exact hcoherent.txids_nodup.sublist (List.filter_sublist.map _)
  traceEvents := by
    intro row hrow
    rw [rows_of_purgeBlock hpurge] at hrow
    obtain ⟨hmem, hkept⟩ := List.mem_filter.mp hrow
    exact refersTo_of_purgeBlock hpurge (of_decide_eq_true hkept) (hcoherent.traceEvents row hmem)
  protostones := by
    intro row hrow
    rw [rows_of_purgeBlock hpurge] at hrow
    obtain ⟨hmem, hkept⟩ := List.mem_filter.mp hrow
    exact refersTo_of_purgeBlock hpurge (of_decide_eq_true hkept) (hcoherent.protostones row hmem)
  clockIn := by
    rw [(others_of_purgeBlock hpurge).1, hcoherent.clockIn]
    rfl

end Purge

/-! ## Every reachable store -/

theorem coherent_step
    {store : Store}
    (hcoherent : store.Coherent)
    (action : StoreAction) :
    (store.step action).Coherent := by
  cases action with
  | processBlock attempt height emitPublish =>
      change Coherent { store with
        db := (processBlockSequential attempt height emitPublish store.db).db }
      cases hfetch : fetchBlock attempt.rpc attempt.schedule height with
      | error message =>
          have hdb : (processBlockSequential attempt height emitPublish store.db).db =
              store.db := by simp [processBlockSequential, hfetch]
          rw [hdb]
          exact hcoherent
      | ok data =>
          rw [processBlockSequential_of_fetch attempt emitPublish store.db hfetch, writeBlock_db]
          exact coherent_after data attempt.pools hcoherent _
  | purgeBlock height interrupted =>
      cases interrupted with
      | true => exact hcoherent
      | false =>
          change ((store.purgeBlock height).getD store).Coherent
          cases hpurge : store.purgeBlock height with
          | none => exact hcoherent
          | some purged => exact coherent_of_purgeBlock hcoherent hpurge
  | poolStates heights =>
      exact ⟨hcoherent.txids_nodup, hcoherent.traceEvents, hcoherent.protostones,
        hcoherent.clockIn⟩

theorem coherent_run
    (actions : List StoreAction) :
    (actions.foldl step empty).Coherent := by
  induction actions using List.reverseRecOn with
  | nil => exact coherent_empty
  | append_singleton actions action ih =>
      rw [List.foldl_append]
      exact coherent_step ih action

/-- Every store that attempts and purges can reach from empty tables has raw rows
with the height of their transaction, and from it a purge succeeds and leaves no
row of its height. -/
theorem reachable_coherent_and_purgeable
    (actions : List StoreAction) :
    (∀ row ∈ (actions.foldl step empty).db.rows .traceEvent,
        RefersTo (actions.foldl step empty).db (TraceEventRow.transactionId row)
          (TraceEventRow.blockHeight row)) ∧
      (∀ row ∈ (actions.foldl step empty).db.rows .decodedProtostone,
        RefersTo (actions.foldl step empty).db (DecodedProtostoneRow.transactionId row)
          (DecodedProtostoneRow.blockHeight row)) ∧
      ∀ height, ∃ purged, (actions.foldl step empty).purgeBlock height = some purged ∧
        (∀ table, ∀ row ∈ purged.db.rows table, asI32 (table.blockHeight row) ≠ height) ∧
        (∀ row ∈ purged.clockIn, asI32 row.blockHeight ≠ height) ∧
        (∀ row ∈ purged.db.processedBlocks, asI32 row.blockHeight ≠ height) ∧
        (∀ rowHeight ∈ purged.poolState, asI32 rowHeight ≠ height) ∧
        ∀ rowHeight ∈ purged.clockInBlockSummary, asI32 rowHeight ≠ height := by
  have hcoherent := coherent_run actions
  refine ⟨hcoherent.traceEvents, hcoherent.protostones, fun height => ?_⟩
  have hpurge := purgeBlock_of_coherent height hcoherent
  obtain ⟨hclockIn, hothers⟩ := others_of_purgeBlock hpurge
  refine ⟨_, hpurge, fun table row hrow => ?_, fun row hrow => ?_, hothers⟩
  · rw [rows_of_purgeBlock hpurge] at hrow
    exact of_decide_eq_true (List.mem_filter.mp hrow).2
  · rw [hclockIn] at hrow
    exact of_decide_eq_true (List.mem_filter.mp hrow).2

end Store

end AlkanesIndexer
