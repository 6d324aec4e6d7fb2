import AlkanesIndexer.Sequences
import AlkanesIndexer.Tables

/-!
# Writing a batch of rows

Every table is written by a delete keyed by transaction id, which the upsert of
`AlkaneTransaction` leaves out, and by inserts of as many rows as the limit on
bound parameters allows.  A statement that violates a constraint fails as a
whole and with it the transaction.  The order of the rows in a table carries no
meaning, so an updated row may as well go to the end.
-/

namespace AlkanesIndexer

open Sequences

/-! ## Statements -/

/-- `(MAX_PARAMS / PER_ROW).saturating_sub(8).max(1)`. -/
def rowsPerStatement (perRow : ℕ) : ℕ := max (65535 / perRow - 8) 1

def Table.maxRows : Table → ℕ
  | .alkaneTransaction => min (rowsPerStatement 6) 1500
  | .decodedProtostone => min (rowsPerStatement 5) 2000
  | .traceEvent => min (rowsPerStatement 7) 2000
  | .derived .poolSwap | .derived .poolCreation => rowsPerStatement 14
  | .derived .poolMint | .derived .poolBurn => rowsPerStatement 15
  | .derived .subfrostWrap | .derived .subfrostUnwrap => rowsPerStatement 7

/-- `on conflict ("transactionId") do update` of every other column. -/
def upsertTransaction
    (rows : List AlkaneTransactionRow)
    (row : AlkaneTransactionRow) : List AlkaneTransactionRow :=
  (rows.filter fun old => old.transactionId ≠ row.transactionId) ++ [row]

def protostoneKey (row : DecodedProtostoneRow) : String × ℤ × ℕ :=
  (row.transactionId, row.vout, row.protostoneIndex)

/-- `on conflict ("transactionId", "vout", "protostoneIndex") do update` of the
decoded value alone. -/
def upsertProtostone
    (rows : List DecodedProtostoneRow)
    (row : DecodedProtostoneRow) : List DecodedProtostoneRow :=
  if protostoneKey row ∈ rows.map protostoneKey then
    rows.map fun old =>
      if protostoneKey old = protostoneKey row then { old with decoded := row.decoded } else old
  else rows ++ [row]

/-- One insert statement, `none` where it fails: an upsert must not meet one row
twice, and a creation needs its pool in `Pool` and to itself. -/
def insertStatement
    (pools : List PoolRow) :
    (table : Table) → List table.Row → List table.Row → Option (List table.Row)
  | .alkaneTransaction, chunk, rows =>
      if (chunk.map AlkaneTransactionRow.transactionId).Nodup then
        some (chunk.foldl upsertTransaction rows)
      else none
  | .decodedProtostone, chunk, rows =>
      if (chunk.map protostoneKey).Nodup then some (chunk.foldl upsertProtostone rows)
      else none
  | .derived .poolCreation, chunk, rows =>
      if (∀ row ∈ chunk, PoolCreationRow.pool row ∈ pools.map PoolRow.pool) ∧
          (chunk.map PoolCreationRow.pool).Nodup ∧
          (∀ row ∈ chunk, PoolCreationRow.pool row ∉ rows.map PoolCreationRow.pool) then
        some (rows ++ chunk)
      else none
  | _, chunk, rows => some (rows ++ chunk)

def deleteByTxids
    (table : Table)
    (txids : List String)
    (rows : List table.Row) : List table.Row :=
  if table = .alkaneTransaction then rows
  else rows.filter fun row => table.transactionId row ∉ txids

def insertChunks
    (pools : List PoolRow)
    (table : Table)
    (batches : List (List table.Row))
    (rows : List table.Row) : Option (List table.Row) :=
  batches.foldlM (fun rows chunk => insertStatement pools table chunk rows) rows

/-- `upsert_alkane_transactions` and the `replace_…` writers on the rows of their
table. -/
def writeRows
    (pools : List PoolRow)
    (table : Table)
    (txids : List String)
    (batch : List table.Row)
    (rows : List table.Row) : Option (List table.Row) :=
  insertChunks pools table (chunks table.maxRows batch) (deleteByTxids table txids rows)

def Db.write
    (db : Db)
    (pools : List PoolRow)
    (table : Table)
    (txids : List String)
    (batch : List table.Row) : Option Db :=
  (writeRows pools table txids batch (db.rows table)).map (db.setRows table)

/-- `upsert_processed_block`: heights are replaced, but a hash belongs to one
height only. -/
def upsertProcessedBlock
    (rows : List ProcessedBlockRow)
    (row : ProcessedBlockRow) : Option (List ProcessedBlockRow) :=
  let others := rows.filter fun old => old.blockHeight ≠ row.blockHeight
  if row.blockHash ∈ others.map ProcessedBlockRow.blockHash then none
  else some (others ++ [row])

/-! ## What a batch becomes -/

/-- The rows a batch leaves in its table: an upsert keeps the last row of a key,
an insert keeps them all. -/
def written : (table : Table) → List table.Row → List table.Row
  | .alkaneTransaction, batch => batch.foldl upsertTransaction []
  | .decodedProtostone, batch => batch.foldl upsertProtostone []
  | .traceEvent, batch => batch
  | .derived _, batch => batch

theorem foldl_upsertTransaction
    (batch rows : List AlkaneTransactionRow) :
    batch.foldl upsertTransaction rows =
      (rows.filter fun row => row.transactionId ∉
          batch.map AlkaneTransactionRow.transactionId) ++
        batch.foldl upsertTransaction [] := by
  induction batch using List.reverseRecOn generalizing rows with
  | nil => simp
  | append_singleton batch row ih =>
      rw [List.foldl_append, List.foldl_append, ih rows]
      simp only [List.foldl_cons, List.foldl_nil, upsertTransaction, List.filter_append,
        List.append_assoc, List.map_append, List.map_cons, List.map_nil]
      congr 1
      rw [List.filter_filter]
      refine List.filter_congr fun old _ => ?_
      rw [Bool.eq_iff_iff]
      simp [and_comm]

theorem upsertProtostone_append
    {rows others : List DecodedProtostoneRow}
    {row : DecodedProtostoneRow}
    (hrows : ∀ old ∈ rows, protostoneKey old ≠ protostoneKey row) :
    upsertProtostone (rows ++ others) row = rows ++ upsertProtostone others row := by
  have hnot : protostoneKey row ∉ rows.map protostoneKey := by
    intro hmem
    obtain ⟨old, hold, heq⟩ := List.mem_map.mp hmem
    exact hrows old hold heq
  have hkeep : rows.map (fun old =>
      if protostoneKey old = protostoneKey row then { old with decoded := row.decoded }
      else old) = rows := by
    refine (List.map_congr_left fun old hold => ?_).trans (List.map_id rows)
    exact if_neg (hrows old hold)
  unfold upsertProtostone
  simp only [List.map_append, List.mem_append, hnot, false_or]
  split
  · rw [hkeep]
  · rw [List.append_assoc]

theorem foldl_upsertProtostone
    {batch rows : List DecodedProtostoneRow}
    (hfresh : ∀ row ∈ rows, protostoneKey row ∉ batch.map protostoneKey) :
    batch.foldl upsertProtostone rows = rows ++ batch.foldl upsertProtostone [] := by
  induction batch using List.reverseRecOn with
  | nil => simp
  | append_singleton batch row ih =>
      have hrest : ∀ old ∈ rows, protostoneKey old ∉ batch.map protostoneKey := by
        intro old hold hmem
        exact hfresh old hold (by simp [hmem])
      have hrow : ∀ old ∈ rows, protostoneKey old ≠ protostoneKey row := by
        intro old hold heq
        exact hfresh old hold (by simp [heq])
      rw [List.foldl_append, List.foldl_append, ih hrest]
      exact upsertProtostone_append hrow

/-- The effect of an insert or upsert of a whole batch on some rows. -/
def addBatch : (table : Table) → List table.Row → List table.Row → List table.Row
  | .alkaneTransaction, batch, rows => batch.foldl upsertTransaction rows
  | .decodedProtostone, batch, rows => batch.foldl upsertProtostone rows
  | .traceEvent, batch, rows => rows ++ batch
  | .derived _, batch, rows => rows ++ batch

theorem addBatch_append
    (table : Table)
    (first second rows : List table.Row) :
    addBatch table (first ++ second) rows = addBatch table second (addBatch table first rows) := by
  cases table with
  | alkaneTransaction => exact List.foldl_append
  | decodedProtostone => exact List.foldl_append
  | traceEvent => exact (List.append_assoc rows first second).symm
  | derived table => exact (List.append_assoc rows first second).symm

theorem eq_addBatch_of_insertStatement
    {pools : List PoolRow}
    {table : Table}
    {chunk rows rows' : List table.Row}
    (hinsert : insertStatement pools table chunk rows = some rows') :
    rows' = addBatch table chunk rows := by
  cases table with
  | alkaneTransaction =>
      simp only [insertStatement, Option.ite_none_right_eq_some, Option.some.injEq] at hinsert
      exact hinsert.2.symm
  | decodedProtostone =>
      simp only [insertStatement, Option.ite_none_right_eq_some, Option.some.injEq] at hinsert
      exact hinsert.2.symm
  | traceEvent => exact (Option.some.inj hinsert).symm
  | derived table =>
      cases table with
      | poolCreation =>
          simp only [insertStatement, Option.ite_none_right_eq_some, Option.some.injEq]
            at hinsert
          exact hinsert.2.symm
      | poolSwap => exact (Option.some.inj hinsert).symm
      | poolMint => exact (Option.some.inj hinsert).symm
      | poolBurn => exact (Option.some.inj hinsert).symm
      | subfrostWrap => exact (Option.some.inj hinsert).symm
      | subfrostUnwrap => exact (Option.some.inj hinsert).symm

theorem eq_addBatch_of_insertChunks
    {pools : List PoolRow}
    {table : Table}
    {batches : List (List table.Row)}
    {rows rows' : List table.Row}
    (hinsert : insertChunks pools table batches rows = some rows') :
    rows' = addBatch table batches.flatten rows := by
  induction batches generalizing rows with
  | nil =>
      have hrows : rows = rows' := Option.some.inj hinsert
      subst hrows
      cases table <;> simp [addBatch]
  | cons chunk batches ih =>
      simp only [insertChunks, List.foldlM_cons, Option.bind_eq_bind,
        Option.bind_eq_some_iff] at hinsert
      obtain ⟨middle, hchunk, hrest⟩ := hinsert
      rw [ih hrest, eq_addBatch_of_insertStatement hchunk, List.flatten_cons, addBatch_append]

/-- A write leaves the rows of other transactions alone and replaces those of
the given ones by what its batch becomes. -/
theorem eq_of_writeRows
    {pools : List PoolRow}
    {table : Table}
    {txids : List String}
    {batch rows rows' : List table.Row}
    (hwrite : writeRows pools table txids batch rows = some rows')
    (hkeyed : ∀ row ∈ batch, table.transactionId row ∈ txids)
    (hcovers : table = .alkaneTransaction →
      ∀ txid ∈ txids, txid ∈ batch.map table.transactionId) :
    rows' = (rows.filter fun row => table.transactionId row ∉ txids) ++
      written table batch := by
  have hrows := eq_addBatch_of_insertChunks hwrite
  rw [flatten_chunks] at hrows
  subst hrows
  cases table with
  | alkaneTransaction =>
      simp only [addBatch, written, deleteByTxids, if_true]
      rw [foldl_upsertTransaction]
      congr 1
      refine List.filter_congr fun row _ => ?_
      have hsame : row.transactionId ∈ batch.map AlkaneTransactionRow.transactionId ↔
          row.transactionId ∈ txids := by
        refine ⟨fun hmem => ?_, hcovers rfl _⟩
        obtain ⟨new, hnew, heq⟩ := List.mem_map.mp hmem
        rw [← heq]
        exact hkeyed new hnew
      simp only [hsame]
      rfl
  | decodedProtostone =>
      refine foldl_upsertProtostone fun row hrow hmem => ?_
      obtain ⟨new, hnew, heq⟩ := List.mem_map.mp hmem
      have htxid : new.transactionId = row.transactionId := congrArg Prod.fst heq
      have hother := (List.mem_filter.mp hrow).2
      simp only [decide_eq_true_eq] at hother
      apply hother
      change row.transactionId ∈ txids
      rw [← htxid]
      exact hkeyed new hnew
  | traceEvent => rfl
  | derived table => rfl

/-! ## When a batch can be written -/

def Insertable (pools : List PoolRow) :
    (table : Table) → List table.Row → List table.Row → Prop
  | .alkaneTransaction, batch, _ =>
      ∀ chunk ∈ chunks (Table.maxRows .alkaneTransaction) batch,
        (chunk.map AlkaneTransactionRow.transactionId).Nodup
  | .decodedProtostone, batch, _ =>
      ∀ chunk ∈ chunks (Table.maxRows .decodedProtostone) batch,
        (chunk.map protostoneKey).Nodup
  | .derived .poolCreation, batch, others =>
      (∀ row ∈ batch, PoolCreationRow.pool row ∈ pools.map PoolRow.pool) ∧
        (batch.map PoolCreationRow.pool).Nodup ∧
        (∀ row ∈ batch, PoolCreationRow.pool row ∉ others.map PoolCreationRow.pool)
  | _, _, _ => True

theorem Insertable.of_perm
    {pools : List PoolRow}
    {table : Table}
    {batch others others' : List table.Row}
    (hinsertable : Insertable pools table batch others)
    (hperm : others.Perm others') :
    Insertable pools table batch others' := by
  cases table with
  | alkaneTransaction => exact hinsertable
  | decodedProtostone => exact hinsertable
  | traceEvent => exact hinsertable
  | derived table =>
      cases table with
      | poolCreation =>
          obtain ⟨hknown, hnodup, hfresh⟩ := hinsertable
          refine ⟨hknown, hnodup, fun row hrow hmem => hfresh row hrow ?_⟩
          exact (hperm.map PoolCreationRow.pool).mem_iff.mpr hmem
      | poolSwap | poolMint | poolBurn | subfrostWrap | subfrostUnwrap => exact hinsertable

theorem insertChunks_isSome_of_free
    {pools : List PoolRow}
    {table : Table}
    {P : List table.Row → Prop}
    (hfree : ∀ chunk rows,
      (insertStatement pools table chunk rows).isSome = true ↔ P chunk)
    (batches : List (List table.Row))
    (rows : List table.Row) :
    (insertChunks pools table batches rows).isSome = true ↔
      ∀ chunk ∈ batches, P chunk := by
  induction batches generalizing rows with
  | nil => simp [insertChunks]
  | cons chunk batches ih =>
      rw [List.forall_mem_cons, ← hfree chunk rows]
      unfold insertChunks at ih ⊢
      rw [List.foldlM_cons]
      cases insertStatement pools table chunk rows with
      | none => simp
      | some middle => simpa using ih middle

theorem insertChunks_poolCreation_isSome
    {pools : List PoolRow}
    (batches : List (List PoolCreationRow))
    (rows : List PoolCreationRow) :
    (insertChunks pools (.derived .poolCreation) batches rows).isSome = true ↔
      Insertable pools (.derived .poolCreation) batches.flatten rows := by
  induction batches generalizing rows with
  | nil => simp [insertChunks, Insertable]
  | cons chunk batches ih =>
      unfold insertChunks at ih ⊢
      rw [List.foldlM_cons]
      by_cases hchunk : (∀ row ∈ chunk, PoolCreationRow.pool row ∈ pools.map PoolRow.pool) ∧
          (chunk.map PoolCreationRow.pool).Nodup ∧
          (∀ row ∈ chunk, PoolCreationRow.pool row ∉ rows.map PoolCreationRow.pool)
      · have hstep : insertStatement pools (.derived .poolCreation) chunk rows =
            some (rows ++ chunk) := if_pos hchunk
        rw [hstep, Option.bind_eq_bind, Option.bind_some, ih]
        obtain ⟨hknown, hnodup, hfresh⟩ := hchunk
        simp only [Insertable, List.flatten_cons, List.map_append, List.nodup_append,
          List.mem_append, List.mem_map, not_or, not_exists, not_and]
        simp only [List.mem_map, not_exists, not_and] at hfresh
        grind
      · have hstep : insertStatement pools (.derived .poolCreation) chunk rows = none :=
          if_neg hchunk
        rw [hstep]
        simp only [Option.bind_eq_bind, Option.bind_none, Option.isSome_none,
          Bool.false_eq_true, false_iff]
        rintro ⟨hknown, hnodup, hfresh⟩
        rw [List.flatten_cons] at hknown hnodup hfresh
        rw [List.map_append] at hnodup
        exact hchunk ⟨fun row hrow => hknown row (List.mem_append_left _ hrow),
          (List.nodup_append.mp hnodup).1,
          fun row hrow => hfresh row (List.mem_append_left _ hrow)⟩

/-- Whether a write succeeds depends on its batch, on `Pool` and on the rows of
other transactions. -/
theorem writeRows_isSome_iff
    {pools : List PoolRow}
    {table : Table}
    {txids : List String}
    {batch rows : List table.Row} :
    (writeRows pools table txids batch rows).isSome = true ↔
      Insertable pools table batch
        (rows.filter fun row => table.transactionId row ∉ txids) := by
  unfold writeRows
  cases table with
  | alkaneTransaction =>
      refine insertChunks_isSome_of_free (fun chunk rows => ?_) _ _
      simp only [insertStatement]
      split <;> simp_all
  | decodedProtostone =>
      refine insertChunks_isSome_of_free (fun chunk rows => ?_) _ _
      simp only [insertStatement]
      split <;> simp_all
  | traceEvent =>
      refine (insertChunks_isSome_of_free (P := fun _ => True) (fun _ _ => ?_) _ _).trans ?_
      · simp [insertStatement]
      · simp [Insertable]
  | derived table =>
      cases table with
      | poolCreation =>
          refine (insertChunks_poolCreation_isSome _ _).trans ?_
          rw [flatten_chunks]
          exact Iff.rfl
      | poolSwap | poolMint | poolBurn | subfrostWrap | subfrostUnwrap =>
          refine (insertChunks_isSome_of_free (P := fun _ => True) (fun _ _ => ?_) _ _).trans ?_
          · simp [insertStatement]
          · simp [Insertable]

end AlkanesIndexer
