import AlkanesIndexer.PoolRefresh
import AlkanesIndexer.SnapshotHistory
import AlkanesIndexer.TransactionWriters

/-!
# Snapshots of the reserves

The whole refresh of the pools for a tip.  Pools the factory is not known for yet are
inserted, the ids of all fetched pools are looked up for the factory, and the reserves
that differ from the latest snapshot of their pool are inserted at the height of the
tip.  Either insert is one statement, and both do nothing for a row whose key exists.
-/

namespace AlkanesIndexer

open BatchScheduler Sequences SnapshotHistory SqlStatements

namespace PoolSnapshots

open TransactionWriters (SqlValue)

/-! ## Tables -/

structure PoolDetailsResult extends PoolDetails where
  token0Amount : ℕ
  token1Amount : ℕ
  tokenSupply : ℕ
  deriving DecidableEq, Repr

structure PoolValues where
  token0Amount : String
  token1Amount : String
  tokenSupply : String
  deriving DecidableEq, Repr

def PoolDetailsResult.values (details : PoolDetailsResult) : PoolValues where
  token0Amount := toString details.token0Amount
  token1Amount := toString details.token1Amount
  tokenSupply := toString details.tokenSupply

/-- A row of `Pool` with its id. -/
structure PoolRecord where
  id : String
  row : PoolRow
  deriving DecidableEq, Repr

def PoolRecord.pool (record : PoolRecord) : AlkaneId := record.row.pool

/-- A row of `PoolState`; its subject is the id of the pool. -/
abbrev PoolState := Entry String ℤ PoolValues

structure PoolTables where
  pools : List PoolRecord
  states : List PoolState

/-- `gen_random_uuid()`, which does not repeat an id of the table. -/
structure IdSource where
  next : List String → String
  next_notMem : ∀ used, next used ∉ used

/-! ## The refresh -/

/-- What a refresh is called with and meets.  Every listing of a pool gets an answer of
its own. -/
structure Refresh where
  factory : AlkaneId
  tipHeight : ℕ
  listed : Except String (List (AlkaneId × Except String PoolDetailsResult))
  picks : List ℕ
  saves : SaveResult

def fetchAllPoolsWithDetails
    (refresh : Refresh) : Except String (List (AlkaneId × PoolDetailsResult)) :=
  refresh.listed.map fun listings =>
    (bufferUnordered 10 refresh.picks listings).filterMap fun listing =>
      listing.2.toOption.map fun details => (listing.1, details)

def poolInsert : RowInsert PoolRow SqlValue where
  table := "Pool"
  columns := ["factoryBlockId", "factoryTxId", "poolBlockId", "poolTxId", "token0BlockId",
    "token0TxId", "token1BlockId", "token1TxId", "poolName"]
  perRow := 9
  offsets := [1, 2, 3, 4, 5, 6, 7, 8, 9]
  conflict := some (.nothing ["poolBlockId", "poolTxId"])
  binds := fun row =>
    [.text row.factory.1, .text row.factory.2, .text row.pool.1, .text row.pool.2,
      .text row.token0.1, .text row.token0.2, .text row.token1.1, .text row.token1.2,
      .text row.poolName]
  columns_length := rfl
  offsets_eq := rfl
  binds_length := fun _ => rfl

def stateInsert : RowInsert PoolState SqlValue where
  table := "PoolState"
  columns := ["poolId", "blockHeight", "token0Amount", "token1Amount", "tokenSupply"]
  perRow := 5
  offsets := [1, 2, 3, 4, 5]
  conflict := some (.nothing ["poolId", "blockHeight"])
  binds := fun state =>
    [.text state.subject, .integer state.height, .text state.value.token0Amount,
      .text state.value.token1Amount, .text state.value.tokenSupply]
  columns_length := rfl
  offsets_eq := TransactionWriters.five_offsets
  binds_length := fun _ => rfl

/-- One statement for all the rows, or none for no rows. -/
def statementFor {ρ : Type} (builder : RowInsert ρ SqlValue) (rows : List ρ) :
    List (Insert SqlValue) :=
  if rows.isEmpty then [] else [builder.statement rows]

def TooLong {ρ : Type} (builder : RowInsert ρ SqlValue) (rows : List ρ) : Prop :=
  65535 < (builder.statement rows).binds.length

instance {ρ : Type} (builder : RowInsert ρ SqlValue) (rows : List ρ) :
    Decidable (TooLong builder rows) :=
  inferInstanceAs (Decidable (_ < _))

def insertRecord
    (ids : IdSource)
    (pools : List PoolRecord)
    (row : PoolRow) : List PoolRecord :=
  if row.pool ∈ pools.map PoolRecord.pool then pools
  else pools ++ [⟨ids.next (pools.map PoolRecord.id), row⟩]

def getPoolIdsForPairs
    (factory : AlkaneId)
    (pools : List PoolRecord)
    (pairs : List AlkaneId) : List (AlkaneId × String) :=
  (pools.filter fun record => record.row.factory = factory ∧ record.pool ∈ pairs).map
    fun record => (record.pool, record.id)

/-- The snapshot of a listed pool whose values differ from the latest ones. -/
def changedState
    (idMap : List (AlkaneId × String))
    (states : List PoolState)
    (tipHeight : ℕ)
    (item : AlkaneId × PoolDetailsResult) : Option PoolState :=
  (idMap.lookup item.1).bind fun id =>
    if (latest states id).map Entry.value = some item.2.values then none
    else some ⟨id, asI32 tipHeight, item.2.values⟩

inductive RefreshError where
  | fetch (message : String)
  | tooManyParameters
  | transactionFailed
  | commitNotAcknowledged
  deriving DecidableEq, Repr

/-- The tables, the inserts that were issued, whether the transaction was committed,
and the error. -/
structure RefreshReport where
  tables : PoolTables
  issued : List (Insert SqlValue)
  committed : Bool
  error : Option RefreshError

section Upsert

variable
  (ids : IdSource)
  (refresh : Refresh)
  (tables : PoolTables)
  (fetched : List (AlkaneId × PoolDetailsResult))

def newRows : List PoolRow :=
  newPools refresh.factory (tables.pools.map PoolRecord.row)
    (fetched.map fun item => (item.1, item.2.toPoolDetails))

def poolsAfter : List PoolRecord :=
  (newRows refresh tables fetched).foldl (insertRecord ids) tables.pools

def idMap : List (AlkaneId × String) :=
  getPoolIdsForPairs refresh.factory (poolsAfter ids refresh tables fetched)
    (fetched.map Prod.fst)

def newStates : List PoolState :=
  fetched.filterMap
    (changedState (idMap ids refresh tables fetched) tables.states refresh.tipHeight)

def tablesAfter : PoolTables where
  pools := poolsAfter ids refresh tables fetched
  states := insertAll tables.states (newStates ids refresh tables fetched)

def upsertFetched : RefreshReport :=
  let poolInserts := statementFor poolInsert (newRows refresh tables fetched)
  if TooLong poolInsert (newRows refresh tables fetched) then
    ⟨tables, poolInserts, false, some .tooManyParameters⟩
  else
    let stateInserts := statementFor stateInsert (newStates ids refresh tables fetched)
    if TooLong stateInsert (newStates ids refresh tables fetched) then
      ⟨tables, poolInserts ++ stateInserts, false, some .tooManyParameters⟩
    else
      match refresh.saves with
      | .saved => ⟨tablesAfter ids refresh tables fetched, poolInserts ++ stateInserts, true, none⟩
      | .lost => ⟨tables, poolInserts ++ stateInserts, false, some .transactionFailed⟩
      | .unacknowledged =>
          ⟨tablesAfter ids refresh tables fetched, poolInserts ++ stateInserts, true,
            some .commitNotAcknowledged⟩

def fetchAndUpsertPoolsForTip : RefreshReport :=
  match fetchAllPoolsWithDetails refresh with
  | .error message => ⟨tables, [], false, some (.fetch message)⟩
  | .ok fetched =>
      if fetched.isEmpty then ⟨tables, [], false, none⟩
      else upsertFetched ids refresh tables fetched

end Upsert

/-! ## What the schema guarantees -/

/-- The unique columns and the foreign key. -/
structure PoolTables.Valid (tables : PoolTables) : Prop where
  pairs : (tables.pools.map PoolRecord.pool).Nodup
  ids : (tables.pools.map PoolRecord.id).Nodup
  heights : OnePerHeight tables.states
  references : ∀ state ∈ tables.states, state.subject ∈ tables.pools.map PoolRecord.id

section Pools

variable
  {ids : IdSource}
  {refresh : Refresh}
  {tables : PoolTables}
  {fetched : List (AlkaneId × PoolDetailsResult)}
  {pools : List PoolRecord}
  {new : List PoolRow}

variable (ids) in
/-- What the inserts of pools add has rows of the batch, pairs of its own and fresh
ids. -/
theorem foldl_insertRecord_eq_append
    (new : List PoolRow)
    (pools : List PoolRecord) :
    ∃ added, new.foldl (insertRecord ids) pools = pools ++ added ∧
      ∀ record ∈ added, record.row ∈ new ∧ record.pool ∉ pools.map PoolRecord.pool ∧
        record.id ∉ pools.map PoolRecord.id := by
  induction new generalizing pools with
  | nil => exact ⟨[], by simp, nofun⟩
  | cons row new ih =>
      obtain ⟨added, heq, hadded⟩ := ih (insertRecord ids pools row)
      rw [List.foldl_cons, heq]
      unfold insertRecord at hadded ⊢
      by_cases hpair : row.pool ∈ pools.map PoolRecord.pool
      · rw [if_pos hpair] at hadded ⊢
        refine ⟨added, rfl, fun record hrecord => ?_⟩
        have hthis := hadded record hrecord
        exact ⟨List.mem_cons_of_mem _ hthis.1, hthis.2⟩
      · rw [if_neg hpair] at hadded ⊢
        refine ⟨⟨ids.next (pools.map PoolRecord.id), row⟩ :: added, by simp, ?_⟩
        intro record hrecord
        cases List.mem_cons.mp hrecord with
        | inl hfirst =>
            rw [hfirst]
            exact ⟨List.mem_cons_self, hpair, ids.next_notMem _⟩
        | inr hlater =>
            have hthis := hadded record hlater
            rw [List.map_append, List.map_append, List.mem_append, List.mem_append,
              not_or, not_or] at hthis
            exact ⟨List.mem_cons_of_mem _ hthis.1, hthis.2.1.1, hthis.2.2.1⟩

theorem nodup_foldl_insertRecord
    (hpairs : (pools.map PoolRecord.pool).Nodup)
    (hids : (pools.map PoolRecord.id).Nodup) :
    ((new.foldl (insertRecord ids) pools).map PoolRecord.pool).Nodup ∧
      ((new.foldl (insertRecord ids) pools).map PoolRecord.id).Nodup := by
  induction new generalizing pools with
  | nil => exact ⟨hpairs, hids⟩
  | cons row new ih =>
      refine ih ?_ ?_
      · unfold insertRecord
        split
        · exact hpairs
        · next hpair =>
          rw [List.map_append, List.map_singleton, ← List.concat_eq_append]
          exact hpairs.concat hpair
      · unfold insertRecord
        split
        · exact hids
        · rw [List.map_append, List.map_singleton, ← List.concat_eq_append]
          exact hids.concat (ids.next_notMem _)

/-- The rows are those of the table without ids. -/
theorem map_row_foldl_insertRecord
    (new : List PoolRow)
    (pools : List PoolRecord) :
    (new.foldl (insertRecord ids) pools).map PoolRecord.row =
      new.foldl insertPool (pools.map PoolRecord.row) := by
  induction new generalizing pools with
  | nil => rfl
  | cons row new ih =>
      rw [List.foldl_cons, List.foldl_cons, ih]
      congr 1
      have hpairs : (pools.map PoolRecord.row).map PoolRow.pool = pools.map PoolRecord.pool :=
        List.map_map
      unfold insertRecord insertPool
      rw [hpairs]
      by_cases hpair : row.pool ∈ pools.map PoolRecord.pool
      · rw [if_pos hpair, if_pos hpair]
      · rw [if_neg hpair, if_neg hpair, List.map_append]
        rfl

end Pools

/-! ## The latest snapshot of a pool -/

def recordOf (pools : List PoolRecord) (pool : AlkaneId) : Option PoolRecord :=
  pools.find? fun record => record.pool = pool

/-- The latest snapshot of a pool, whichever factory it is recorded for. -/
def poolLatest (tables : PoolTables) (pool : AlkaneId) : Option PoolState :=
  (recordOf tables.pools pool).bind fun record => latest tables.states record.id

def latestValues (tables : PoolTables) (pool : AlkaneId) : Option PoolValues :=
  (poolLatest tables pool).map Entry.value

/-- The pool is recorded for another factory. -/
def Foreign (refresh : Refresh) (tables : PoolTables) (pool : AlkaneId) : Prop :=
  ∃ record ∈ recordOf tables.pools pool, record.row.factory ≠ refresh.factory

/-- The latest snapshot of the pool lies below the tip. -/
def BelowTip (refresh : Refresh) (tables : PoolTables) (pool : AlkaneId) : Prop :=
  ∀ state ∈ poolLatest tables pool, state.height < asI32 refresh.tipHeight

instance (refresh : Refresh) (tables : PoolTables) (pool : AlkaneId) :
    Decidable (Foreign refresh tables pool) :=
  inferInstanceAs (Decidable (∃ record ∈ recordOf tables.pools pool, _))

instance (refresh : Refresh) (tables : PoolTables) (pool : AlkaneId) :
    Decidable (BelowTip refresh tables pool) :=
  inferInstanceAs (Decidable (∀ state ∈ poolLatest tables pool, _))

section Lookup

variable
  {ids : IdSource}
  {refresh : Refresh}
  {tables : PoolTables}
  {fetched : List (AlkaneId × PoolDetailsResult)}
  {pools : List PoolRecord}
  {pool : AlkaneId}
  {record : PoolRecord}

theorem recordOf_eq_some_iff
    (hpairs : (pools.map PoolRecord.pool).Nodup) :
    recordOf pools pool = some record ↔ record ∈ pools ∧ record.pool = pool := by
  constructor
  · intro hrecord
    have hpool := List.find?_some hrecord
    exact ⟨List.mem_of_find?_eq_some hrecord, of_decide_eq_true hpool⟩
  · rintro ⟨hmem, hpool⟩
    cases hfind : recordOf pools pool with
    | none => exact absurd (decide_eq_true hpool) (List.find?_eq_none.mp hfind record hmem)
    | some other =>
        have hother := List.find?_some hfind
        rw [decide_eq_true_eq] at hother
        have hsame := List.inj_on_of_nodup_map hpairs (List.mem_of_find?_eq_some hfind) hmem
          (hother.trans hpool.symm)
        rw [hsame]

theorem recordOf_eq_none_iff :
    recordOf pools pool = none ↔ pool ∉ pools.map PoolRecord.pool := by
  unfold recordOf
  rw [List.find?_eq_none]
  simp

/-- The id of a fetched pool is that of its row, if the row is of the factory. -/
theorem lookup_getPoolIdsForPairs
    (factory : AlkaneId)
    {pairs : List AlkaneId}
    (hpairs : (pools.map PoolRecord.pool).Nodup)
    (hpool : pool ∈ pairs) :
    (getPoolIdsForPairs factory pools pairs).lookup pool =
      ((recordOf pools pool).filter fun record => record.row.factory = factory).map
        PoolRecord.id := by
  unfold getPoolIdsForPairs
  rw [lookup_map, List.find?_filter]
  congr 1
  cases hrecord : recordOf pools pool with
  | none =>
      rw [recordOf_eq_none_iff] at hrecord
      rw [Option.filter_none, List.find?_eq_none]
      intro record hmem hboth
      simp only [decide_eq_true_eq] at hboth
      exact hrecord (hboth.2 ▸ List.mem_map_of_mem hmem)
  | some record =>
      have hthis := (recordOf_eq_some_iff hpairs).mp hrecord
      by_cases hfactory : record.row.factory = factory
      · rw [Option.filter_some, decide_eq_true hfactory, if_pos rfl]
        unfold recordOf at hrecord
        rw [← hrecord]
        refine List.find?_congr fun other hother => ?_
        by_cases hsame : other.pool = pool
        · have heq := List.inj_on_of_nodup_map hpairs hother hthis.1
            (hsame.trans hthis.2.symm)
          simp [heq, hfactory, hthis.2, hpool]
        · simp [hsame]
      · rw [Option.filter_some, decide_eq_false hfactory, if_neg Bool.false_ne_true,
          List.find?_eq_none]
        intro other hother hboth
        simp only [decide_eq_true_eq] at hboth
        have heq := List.inj_on_of_nodup_map hpairs hother hthis.1
          (hboth.2.trans hthis.2.symm)
        exact hfactory (heq ▸ hboth.1.1)

variable (ids refresh tables) in
/-- A fetched pool has a row afterwards: the one it had, or a new one of the factory
with a fresh id. -/
theorem recordOf_poolsAfter
    (hpool : pool ∈ fetched.map Prod.fst) :
    (∃ record, recordOf tables.pools pool = some record ∧
      recordOf (poolsAfter ids refresh tables fetched) pool = some record) ∨
    (recordOf tables.pools pool = none ∧
      ∃ record, recordOf (poolsAfter ids refresh tables fetched) pool = some record ∧
        record.row.factory = refresh.factory ∧
        record.id ∉ tables.pools.map PoolRecord.id) := by
  obtain ⟨added, heq, hadded⟩ := foldl_insertRecord_eq_append ids
    (newRows refresh tables fetched) tables.pools
  have hafter : poolsAfter ids refresh tables fetched = tables.pools ++ added := heq
  have hrecordOf : recordOf (poolsAfter ids refresh tables fetched) pool =
      (recordOf tables.pools pool).or (recordOf added pool) := by
    rw [hafter]
    exact List.find?_append
  cases hrecord : recordOf tables.pools pool with
  | some record =>
      rw [hrecord] at hrecordOf
      exact Or.inl ⟨record, rfl, hrecordOf⟩
  | none =>
      rw [hrecord, Option.none_or] at hrecordOf
      right
      obtain ⟨item, hitem, rfl⟩ := List.mem_map.mp hpool
      have hmissing := recordOf_eq_none_iff.mp hrecord
      have hexists : item.1 ∈ (poolsAfter ids refresh tables fetched).map PoolRecord.pool := by
        have hpools : (poolsAfter ids refresh tables fetched).map PoolRecord.pool =
            ((newRows refresh tables fetched).foldl insertPool
              (tables.pools.map PoolRecord.row)).map PoolRow.pool := by
          rw [← map_row_foldl_insertRecord, List.map_map]
          rfl
        rw [hpools]
        refine pool_mem_foldl_insertPool
          ⟨refresh.factory, item.1, item.2.token0, item.2.token1, item.2.poolName⟩ ?_
        refine List.mem_map.mpr ⟨(item.1, item.2.toPoolDetails), List.mem_filter.mpr ⟨?_, ?_⟩, rfl⟩
        · exact List.mem_map.mpr ⟨item, hitem, rfl⟩
        · refine decide_eq_true fun hmem => hmissing ?_
          have hold := (List.filter_sublist.map PoolRow.pool).subset hmem
          rwa [List.map_map] at hold
      cases hlate : recordOf added item.1 with
      | none =>
          rw [hlate] at hrecordOf
          exact absurd hexists (recordOf_eq_none_iff.mp hrecordOf)
      | some record =>
          have hthis := hadded record (List.mem_of_find?_eq_some hlate)
          obtain ⟨given, _, hrow⟩ := List.mem_map.mp hthis.1
          refine ⟨rfl, record, by rw [hrecordOf, hlate], ?_, hthis.2.2⟩
          rw [← hrow]

variable (ids refresh fetched) in
theorem nodup_poolsAfter
    (hvalid : tables.Valid) :
    ((poolsAfter ids refresh tables fetched).map PoolRecord.pool).Nodup ∧
      ((poolsAfter ids refresh tables fetched).map PoolRecord.id).Nodup :=
  nodup_foldl_insertRecord hvalid.pairs hvalid.ids

theorem id_mem_poolsAfter
    {id : String}
    (hid : id ∈ tables.pools.map PoolRecord.id) :
    id ∈ (poolsAfter ids refresh tables fetched).map PoolRecord.id := by
  obtain ⟨added, heq, _⟩ := foldl_insertRecord_eq_append ids
    (newRows refresh tables fetched) tables.pools
  unfold poolsAfter
  rw [heq, List.map_append]
  exact List.mem_append_left _ hid

/-- The row of a fetched pool afterwards, its snapshots so far, and what the lookup of
the factory finds. -/
theorem exists_recordOf_poolsAfter
    (ids : IdSource)
    (refresh : Refresh)
    (hvalid : tables.Valid)
    (hpool : pool ∈ fetched.map Prod.fst) :
    ∃ record, recordOf (poolsAfter ids refresh tables fetched) pool = some record ∧
      latest tables.states record.id = poolLatest tables pool ∧
      (idMap ids refresh tables fetched).lookup pool =
        if Foreign refresh tables pool then none else some record.id := by
  have hnodup := nodup_poolsAfter ids refresh fetched hvalid
  have hlookup := lookup_getPoolIdsForPairs refresh.factory hnodup.1 hpool
  cases recordOf_poolsAfter ids refresh tables hpool with
  | inl hold =>
      obtain ⟨record, hbefore, hafter⟩ := hold
      rw [hafter] at hlookup
      refine ⟨record, hafter, ?_, ?_⟩
      · unfold poolLatest
        rw [hbefore, Option.bind_some]
      · have hforeign : Foreign refresh tables pool ↔ record.row.factory ≠ refresh.factory := by
          unfold Foreign
          rw [hbefore]
          simp
        unfold idMap
        rw [hlookup]
        by_cases hfactory : record.row.factory = refresh.factory
        · rw [if_neg fun h => hforeign.mp h hfactory]
          simp [hfactory]
        · rw [if_pos (hforeign.mpr hfactory)]
          simp [hfactory]
  | inr hnew =>
      obtain ⟨hbefore, record, hafter, hfactory, hfresh⟩ := hnew
      rw [hafter] at hlookup
      refine ⟨record, hafter, ?_, ?_⟩
      · unfold poolLatest
        rw [hbefore, Option.bind_none, latest_eq_none_iff]
        intro state hstate heq
        exact hfresh (heq ▸ hvalid.references state hstate)
      · have hforeign : ¬ Foreign refresh tables pool := by
          unfold Foreign
          rw [hbefore]
          simp
        unfold idMap
        rw [hlookup, if_neg hforeign]
        simp [hfactory]

theorem recordOf_injective
    {pool' : AlkaneId}
    {record' : PoolRecord}
    (hpairs : (pools.map PoolRecord.pool).Nodup)
    (hids : (pools.map PoolRecord.id).Nodup)
    (hrecord : recordOf pools pool = some record)
    (hrecord' : recordOf pools pool' = some record') :
    record'.id = record.id ↔ pool' = pool := by
  have hmem := (recordOf_eq_some_iff hpairs).mp hrecord
  have hmem' := (recordOf_eq_some_iff hpairs).mp hrecord'
  constructor
  · intro hid
    have hsame := List.inj_on_of_nodup_map hids hmem'.1 hmem.1 hid
    rw [← hmem'.2, ← hmem.2, hsame]
  · rintro rfl
    rw [hrecord] at hrecord'
    rw [Option.some.inj hrecord']

/-- A listing becomes a snapshot if its pool is not another factory's and its values
differ from the latest ones. -/
theorem changedState_eq
    (hvalid : tables.Valid)
    {item : AlkaneId × PoolDetailsResult}
    (hitem : item ∈ fetched)
    (hrecord : recordOf (poolsAfter ids refresh tables fetched) item.1 = some record) :
    changedState (idMap ids refresh tables fetched) tables.states refresh.tipHeight item =
      if ¬ Foreign refresh tables item.1 ∧ latestValues tables item.1 ≠ some item.2.values then
        some ⟨record.id, asI32 refresh.tipHeight, item.2.values⟩
      else none := by
  obtain ⟨record', hrecord', hlatest, hlookup⟩ :=
    exists_recordOf_poolsAfter ids refresh hvalid (List.mem_map_of_mem hitem)
  rw [hrecord] at hrecord'
  cases hrecord'
  unfold changedState latestValues
  rw [hlookup]
  by_cases hforeign : Foreign refresh tables item.1
  · simp [hforeign]
  · rw [if_neg hforeign, Option.bind_some, hlatest]
    by_cases hsame : (poolLatest tables item.1).map Entry.value = some item.2.values
    · simp [hsame]
    · simp [hsame, hforeign]

/-- The first snapshot that the batch has for a pool. -/
theorem find?_newStates
    (hvalid : tables.Valid)
    (hpool : pool ∈ fetched.map Prod.fst)
    (hrecord : recordOf (poolsAfter ids refresh tables fetched) pool = some record) :
    (newStates ids refresh tables fetched).find? (fun state => state.subject = record.id) =
      if Foreign refresh tables pool then none
      else
        (fetched.find? fun item =>
            item.1 = pool ∧ latestValues tables pool ≠ some item.2.values).map
          fun item => ⟨record.id, asI32 refresh.tipHeight, item.2.values⟩ := by
  have hnodup := nodup_poolsAfter ids refresh fetched hvalid
  have heach : ∀ item ∈ fetched,
      (changedState (idMap ids refresh tables fetched) tables.states refresh.tipHeight item).any
          (fun state => state.subject = record.id) =
        decide (¬ Foreign refresh tables pool ∧ item.1 = pool ∧
          latestValues tables pool ≠ some item.2.values) := by
    intro item hitem
    obtain ⟨record', hrecord', _, _⟩ :=
      exists_recordOf_poolsAfter ids refresh hvalid (List.mem_map_of_mem hitem)
    have hiff := recordOf_injective hnodup.1 hnodup.2 hrecord hrecord'
    rw [changedState_eq hvalid hitem hrecord', Bool.eq_iff_iff]
    by_cases hsame : item.1 = pool
    · subst hsame
      have hid : record'.id = record.id := hiff.mpr rfl
      by_cases hforeign : Foreign refresh tables item.1
      · simp [hforeign]
      · by_cases hvalues : latestValues tables item.1 = some item.2.values
        · simp [hvalues]
        · simp [hforeign, hvalues, hid]
    · have hid : record'.id ≠ record.id := fun h => hsame (hiff.mp h)
      split
      · simp [hid, hsame]
      · simp [hsame]
  unfold newStates
  rw [List.find?_filterMap, List.find?_congr heach]
  by_cases hforeign : Foreign refresh tables pool
  · rw [if_pos hforeign]
    have hnone : (fetched.find? fun item => decide (¬ Foreign refresh tables pool ∧
        item.1 = pool ∧ latestValues tables pool ≠ some item.2.values)) = none := by
      rw [List.find?_eq_none]
      intro item _
      simp [hforeign]
    rw [hnone]
    rfl
  · rw [if_neg hforeign]
    simp only [hforeign, not_false_eq_true, true_and]
    cases hfind : fetched.find? fun item =>
        decide (item.1 = pool ∧ latestValues tables pool ≠ some item.2.values) with
    | none => rfl
    | some item =>
        have hfound := List.find?_some hfind
        rw [decide_eq_true_eq] at hfound
        obtain ⟨hsame, hvalues⟩ := hfound
        subst hsame
        rw [Option.bind_some, Option.map_some,
          changedState_eq hvalid (List.mem_of_find?_eq_some hfind) hrecord,
          if_pos ⟨hforeign, hvalues⟩]

theorem height_of_mem_newStates
    {state : PoolState}
    (hstate : state ∈ newStates ids refresh tables fetched) :
    state.height = asI32 refresh.tipHeight := by
  obtain ⟨item, _, hitem⟩ := List.mem_filterMap.mp hstate
  obtain ⟨id, _, hchanged⟩ := Option.bind_eq_some_iff.mp hitem
  rw [Option.ite_none_left_eq_some] at hchanged
  rw [← Option.some.inj hchanged.2]

theorem value_ne_of_mem_newStates
    {state last : PoolState}
    (hstate : state ∈ newStates ids refresh tables fetched)
    (hlast : latest tables.states state.subject = some last) :
    last.value ≠ state.value := by
  obtain ⟨item, _, hitem⟩ := List.mem_filterMap.mp hstate
  obtain ⟨id, _, hchanged⟩ := Option.bind_eq_some_iff.mp hitem
  rw [Option.ite_none_left_eq_some] at hchanged
  rw [← Option.some.inj hchanged.2] at hlast ⊢
  intro hsame
  apply hchanged.1
  rw [hlast, Option.map_some, hsame]

/-- What becomes of the latest values of a pool: where the latest snapshot lies below
the tip, those of the first listing that differ. -/
def expectedValues
    (refresh : Refresh)
    (tables : PoolTables)
    (fetched : List (AlkaneId × PoolDetailsResult))
    (pool : AlkaneId) : Option PoolValues :=
  if ¬ Foreign refresh tables pool ∧ BelowTip refresh tables pool then
    ((fetched.find? fun item =>
        item.1 = pool ∧ latestValues tables pool ≠ some item.2.values).map
      fun item => item.2.values).or (latestValues tables pool)
  else latestValues tables pool

theorem latestValues_tablesAfter
    (ids : IdSource)
    (hvalid : tables.Valid)
    (hpool : pool ∈ fetched.map Prod.fst) :
    latestValues (tablesAfter ids refresh tables fetched) pool =
      expectedValues refresh tables fetched pool := by
  obtain ⟨record, hrecord, hbefore, _⟩ :=
    exists_recordOf_poolsAfter ids refresh hvalid hpool
  have hafter : poolLatest (tablesAfter ids refresh tables fetched) pool =
      latest (insertAll tables.states (newStates ids refresh tables fetched)) record.id := by
    unfold poolLatest tablesAfter
    rw [hrecord, Option.bind_some]
  have hheights : ∀ state ∈ newStates ids refresh tables fetched,
      state.height = asI32 refresh.tipHeight :=
    fun state hstate => height_of_mem_newStates hstate
  have hinsert := latest_insertAll tables.states record.id hheights
  have hbelow : Below tables.states record.id (asI32 refresh.tipHeight) ↔
      BelowTip refresh tables pool := by
    unfold Below BelowTip
    rw [hbefore]
  rw [find?_newStates hvalid hpool hrecord, hbefore] at hinsert
  unfold latestValues expectedValues
  rw [hafter, hinsert]
  by_cases htip : BelowTip refresh tables pool
  · rw [if_pos (hbelow.mpr htip)]
    by_cases hforeign : Foreign refresh tables pool
    · rw [if_pos hforeign, if_neg fun h => h.1 hforeign, Option.none_or]
      rfl
    · rw [if_neg hforeign, if_pos ⟨hforeign, htip⟩]
      cases fetched.find? fun item =>
        decide (item.1 = pool ∧ latestValues tables pool ≠ some item.2.values) <;> rfl
  · rw [if_neg fun h => htip (hbelow.mp h), if_neg fun h => htip h.2]
    rfl

variable (ids refresh tables) in
theorem recordOf_poolsAfter_of_notMem
    (hpool : pool ∉ fetched.map Prod.fst) :
    recordOf (poolsAfter ids refresh tables fetched) pool = recordOf tables.pools pool := by
  obtain ⟨added, heq, hadded⟩ := foldl_insertRecord_eq_append ids
    (newRows refresh tables fetched) tables.pools
  have hnone : recordOf added pool = none := by
    rw [recordOf_eq_none_iff]
    intro hmem
    obtain ⟨record, hrecord, rfl⟩ := List.mem_map.mp hmem
    obtain ⟨given, hgiven, hrow⟩ := List.mem_map.mp (hadded record hrecord).1
    obtain ⟨item, hitem, rfl⟩ := List.mem_map.mp (List.mem_of_mem_filter hgiven)
    refine hpool (List.mem_map.mpr ⟨item, hitem, ?_⟩)
    unfold PoolRecord.pool
    rw [← hrow]
  have hafter : poolsAfter ids refresh tables fetched = tables.pools ++ added := heq
  rw [hafter]
  unfold recordOf at hnone ⊢
  rw [List.find?_append, hnone, Option.or_none]

/-- A pool that was not fetched keeps its latest values. -/
theorem latestValues_of_notMem
    (ids : IdSource)
    (hvalid : tables.Valid)
    (hpool : pool ∉ fetched.map Prod.fst) :
    latestValues (tablesAfter ids refresh tables fetched) pool = latestValues tables pool := by
  have hnodup := nodup_poolsAfter ids refresh fetched hvalid
  have hrecordOf := recordOf_poolsAfter_of_notMem ids refresh tables hpool
  unfold latestValues poolLatest tablesAfter
  dsimp only
  rw [hrecordOf]
  cases hrecord : recordOf tables.pools pool with
  | none => rfl
  | some record =>
      rw [hrecord] at hrecordOf
      have hheights : ∀ state ∈ newStates ids refresh tables fetched,
          state.height = asI32 refresh.tipHeight :=
        fun state hstate => height_of_mem_newStates hstate
      have hinsert := latest_insertAll tables.states record.id hheights
      have hnone : (newStates ids refresh tables fetched).find?
          (fun state => state.subject = record.id) = none := by
        rw [List.find?_eq_none]
        intro state hstate hsubject
        obtain ⟨item, hitem, hchanged⟩ := List.mem_filterMap.mp hstate
        have hmem : item.1 ∈ fetched.map Prod.fst := List.mem_map_of_mem hitem
        obtain ⟨record', hrecord', _, _⟩ :=
          exists_recordOf_poolsAfter ids refresh hvalid hmem
        rw [changedState_eq hvalid hitem hrecord', Option.ite_none_right_eq_some] at hchanged
        rw [← Option.some.inj hchanged.2, decide_eq_true_eq] at hsubject
        have hsame := (recordOf_injective hnodup.1 hnodup.2 hrecordOf hrecord').mp hsubject
        exact hpool (hsame ▸ hmem)
      rw [hnone, Option.none_or, ite_self] at hinsert
      rw [Option.bind_some, Option.bind_some, hinsert]

end Lookup

/-! ## The tables after a refresh -/

section Report

variable {ids : IdSource} {refresh : Refresh} {tables : PoolTables}

theorem report_cases
    (ids : IdSource)
    (refresh : Refresh)
    (tables : PoolTables) :
    ((fetchAndUpsertPoolsForTip ids refresh tables).committed = false ∧
      (fetchAndUpsertPoolsForTip ids refresh tables).tables = tables) ∨
    ((fetchAndUpsertPoolsForTip ids refresh tables).committed = true ∧
      ∃ fetched, fetchAllPoolsWithDetails refresh = .ok fetched ∧
        (fetchAndUpsertPoolsForTip ids refresh tables).tables =
          tablesAfter ids refresh tables fetched) := by
  unfold fetchAndUpsertPoolsForTip
  cases hfetch : fetchAllPoolsWithDetails refresh with
  | error message => exact Or.inl ⟨rfl, rfl⟩
  | ok fetched =>
      dsimp only
      by_cases hempty : fetched.isEmpty = true
      · rw [if_pos hempty]
        exact Or.inl ⟨rfl, rfl⟩
      · rw [if_neg hempty]
        unfold upsertFetched
        dsimp only
        by_cases hpools : TooLong poolInsert (newRows refresh tables fetched)
        · rw [if_pos hpools]
          exact Or.inl ⟨rfl, rfl⟩
        · rw [if_neg hpools]
          by_cases hstates : TooLong stateInsert (newStates ids refresh tables fetched)
          · rw [if_pos hstates]
            exact Or.inl ⟨rfl, rfl⟩
          · rw [if_neg hstates]
            cases refresh.saves with
            | saved => exact Or.inr ⟨rfl, fetched, rfl, rfl⟩
            | lost => exact Or.inl ⟨rfl, rfl⟩
            | unacknowledged => exact Or.inr ⟨rfl, fetched, rfl, rfl⟩

theorem valid_tablesAfter
    (hvalid : tables.Valid)
    (fetched : List (AlkaneId × PoolDetailsResult)) :
    (tablesAfter ids refresh tables fetched).Valid := by
  have hnodup := nodup_poolsAfter ids refresh fetched hvalid
  refine ⟨hnodup.1, hnodup.2, onePerHeight_insertAll hvalid.heights, fun state hstate => ?_⟩
  obtain ⟨added, heq, hsub, _⟩ :=
    insertAll_eq_append tables.states (newStates ids refresh tables fetched)
  unfold tablesAfter at hstate ⊢
  rw [heq, List.mem_append] at hstate
  cases hstate with
  | inl hold => exact id_mem_poolsAfter (hvalid.references state hold)
  | inr hadded =>
      obtain ⟨item, hitem, hchanged⟩ := List.mem_filterMap.mp (hsub.subset hadded)
      obtain ⟨record, hrecord, _, _⟩ :=
        exists_recordOf_poolsAfter ids refresh hvalid (List.mem_map_of_mem hitem)
      rw [changedState_eq hvalid hitem hrecord, Option.ite_none_right_eq_some] at hchanged
      rw [← Option.some.inj hchanged.2]
      exact List.mem_map_of_mem (List.mem_of_find?_eq_some hrecord)

theorem valid_refresh
    (hvalid : tables.Valid) :
    (fetchAndUpsertPoolsForTip ids refresh tables).tables.Valid := by
  cases report_cases ids refresh tables with
  | inl hkept => rwa [hkept.2]
  | inr hdone =>
      obtain ⟨_, fetched, _, hafter⟩ := hdone
      rw [hafter]
      exact valid_tablesAfter hvalid fetched

end Report

/-! ## The two inserts as statements -/

section Statements

/-- The insert of the snapshots does to the stored rows what it does to the table. -/
theorem run_stateInsert
    {states : List PoolState}
    (hstates : states ≠ [])
    (hfits : ¬ TooLong stateInsert states)
    (table : List PoolState) :
    ∃ count, (stateInsert.statement states).run (table.map stateInsert.record) =
      some ((insertAll table states).map stateInsert.record, count) := by
  have hlength : states.length * stateInsert.perRow ≤ 65535 := by
    rw [← stateInsert.length_binds]
    exact Nat.not_lt.mp hfits
  have hkey : ∀ state state' : PoolState,
      ["poolId", "blockHeight"].map (stateInsert.record state) =
        ["poolId", "blockHeight"].map (stateInsert.record state') ↔ state.key = state'.key := by
    intro state state'
    have hrow : ∀ state : PoolState, ["poolId", "blockHeight"].map (stateInsert.record state) =
        [some (.text state.subject), some (.integer state.height)] := fun _ => rfl
    rw [hrow, hrow]
    simp [Entry.key]
  exact stateInsert.run_nothing rfl hkey (fun _ _ hold => if_pos hold)
    (fun _ _ hnew => if_neg hnew) hstates hlength table

/-- The insert of the pools does the same to their rows. -/
theorem run_poolInsert
    {new : List PoolRow}
    (hnew : new ≠ [])
    (hfits : ¬ TooLong poolInsert new)
    (ids : IdSource)
    (pools : List PoolRecord) :
    ∃ count, (poolInsert.statement new).run
        ((pools.map PoolRecord.row).map poolInsert.record) =
      some (((new.foldl (insertRecord ids) pools).map PoolRecord.row).map poolInsert.record,
        count) := by
  have hlength : new.length * poolInsert.perRow ≤ 65535 := by
    rw [← poolInsert.length_binds]
    exact Nat.not_lt.mp hfits
  have hkey : ∀ row row' : PoolRow,
      ["poolBlockId", "poolTxId"].map (poolInsert.record row) =
        ["poolBlockId", "poolTxId"].map (poolInsert.record row') ↔ row.pool = row'.pool := by
    intro row row'
    have hrow : ∀ row : PoolRow, ["poolBlockId", "poolTxId"].map (poolInsert.record row) =
        [some (.text row.pool.1), some (.text row.pool.2)] := fun _ => rfl
    rw [hrow, hrow, Prod.ext_iff]
    simp
  rw [map_row_foldl_insertRecord]
  exact poolInsert.run_nothing rfl hkey (fun _ _ hold => if_pos hold)
    (fun _ _ hnew => if_neg hnew) hnew hlength (pools.map PoolRecord.row)

end Statements

/-! ## The refresh without the reserves

Where every listing of a pool gets the same answer, the rows of `Pool` are those of the
refresh that leaves the reserves out; a batch of snapshots that is too long is a
transaction that is lost. -/

section Refinement

variable {ids : IdSource} {refresh : Refresh} {tables : PoolTables}

def answersOf
    (refresh : Refresh)
    (allPools : Except String (List AlkaneId))
    (details : AlkaneId → Except String PoolDetailsResult)
    (saves : SaveResult) : PoolAnswers where
  allPools := allPools
  poolDetails := fun id => (details id).map PoolDetailsResult.toPoolDetails
  picks := refresh.picks
  saves := saves

theorem fetch_answersOf
    {allPools : Except String (List AlkaneId)}
    {details : AlkaneId → Except String PoolDetailsResult}
    (hlisted : refresh.listed = allPools.map (List.map fun id => (id, details id)))
    (saves : SaveResult) :
    AlkanesIndexer.fetchAllPoolsWithDetails (answersOf refresh allPools details saves) =
      (fetchAllPoolsWithDetails refresh).map
        (List.map fun item => (item.1, item.2.toPoolDetails)) := by
  unfold AlkanesIndexer.fetchAllPoolsWithDetails fetchAllPoolsWithDetails answersOf
  rw [hlisted]
  cases allPools with
  | error message => rfl
  | ok pools =>
      refine congrArg Except.ok ?_
      dsimp only
      rw [bufferUnordered_map, List.filterMap_map, List.map_filterMap]
      refine List.filterMap_congr fun id _ => ?_
      simp only [Function.comp]
      cases details id <;> rfl

theorem tooLong_poolInsert_iff
    {rows : List PoolRow} :
    TooLong poolInsert rows ↔ 65535 < 9 * rows.length := by
  unfold TooLong
  rw [poolInsert.length_binds, Nat.mul_comm]
  rfl

theorem tooLong_stateInsert_iff
    {states : List PoolState} :
    TooLong stateInsert states ↔ 65535 < 5 * states.length := by
  unfold TooLong
  rw [stateInsert.length_binds, Nat.mul_comm]
  rfl

variable (ids refresh tables) in
theorem insertNewPools_newRows
    (fetched : List (AlkaneId × PoolDetailsResult)) :
    insertNewPools (tables.pools.map PoolRecord.row) (newRows refresh tables fetched) =
      if TooLong poolInsert (newRows refresh tables fetched) then none
      else some ((poolsAfter ids refresh tables fetched).map PoolRecord.row) := by
  unfold insertNewPools poolsAfter
  by_cases hlong : TooLong poolInsert (newRows refresh tables fetched)
  · rw [if_pos hlong]
    exact if_neg (Nat.not_le.mpr (tooLong_poolInsert_iff.mp hlong))
  · rw [if_neg hlong, map_row_foldl_insertRecord]
    rw [tooLong_poolInsert_iff, Nat.not_lt] at hlong
    exact if_pos hlong

theorem refines_fetchAndUpsertPools
    (ids : IdSource)
    (tables : PoolTables)
    {allPools : Except String (List AlkaneId)}
    {details : AlkaneId → Except String PoolDetailsResult}
    (hlisted : refresh.listed = allPools.map (List.map fun id => (id, details id))) :
    ∃ saves,
      let report := fetchAndUpsertPoolsForTip ids refresh tables
      let result := fetchAndUpsertPools refresh.factory
        (answersOf refresh allPools details saves) (tables.pools.map PoolRecord.row)
      report.tables.pools.map PoolRecord.row = result.1 ∧
        report.error.isSome = result.2.isSome := by
  have hfetched := fetch_answersOf hlisted
  cases hfetch : fetchAllPoolsWithDetails refresh with
  | error message =>
      refine ⟨.saved, ?_⟩
      rw [hfetch] at hfetched
      unfold fetchAndUpsertPoolsForTip fetchAndUpsertPools
      rw [hfetch, hfetched]
      exact ⟨rfl, rfl⟩
  | ok fetched =>
      rw [hfetch] at hfetched
      cases fetched with
      | nil =>
          refine ⟨.saved, ?_⟩
          unfold fetchAndUpsertPoolsForTip fetchAndUpsertPools
          rw [hfetch, hfetched]
          exact ⟨rfl, rfl⟩
      | cons item fetched =>
          have hreport : fetchAndUpsertPoolsForTip ids refresh tables =
              upsertFetched ids refresh tables (item :: fetched) := by
            unfold fetchAndUpsertPoolsForTip
            rw [hfetch]
            rfl
          have hinsert := insertNewPools_newRows ids refresh tables (item :: fetched)
          rw [hreport]
          unfold upsertFetched fetchAndUpsertPools
          by_cases hpools : TooLong poolInsert (newRows refresh tables (item :: fetched))
          · refine ⟨.saved, ?_⟩
            rw [if_pos hpools] at hinsert
            simp only [newRows, List.map_cons] at hinsert
            rw [hfetched, if_pos hpools]
            simp only [Except.map, List.map_cons]
            rw [hinsert]
            exact ⟨rfl, rfl⟩
          · rw [if_neg hpools] at hinsert
            simp only [newRows, List.map_cons] at hinsert
            by_cases hstates : TooLong stateInsert (newStates ids refresh tables (item :: fetched))
            · refine ⟨.lost, ?_⟩
              rw [hfetched, if_neg hpools, if_pos hstates]
              simp only [Except.map, List.map_cons]
              rw [hinsert]
              exact ⟨rfl, rfl⟩
            · refine ⟨refresh.saves, ?_⟩
              rw [hfetched, if_neg hpools, if_neg hstates]
              simp only [Except.map, List.map_cons, answersOf]
              rw [hinsert]
              cases refresh.saves <;> exact ⟨rfl, rfl⟩

end Refinement

/-- Tables the schema can hold. -/
structure PoolStore extends PoolTables where
  valid : toPoolTables.Valid

def PoolStore.empty : PoolStore where
  pools := []
  states := []
  valid := ⟨List.nodup_nil, List.nodup_nil, List.nodup_nil, nofun⟩

def PoolStore.refresh (ids : IdSource) (store : PoolStore) (refresh : Refresh) : PoolStore where
  toPoolTables := (fetchAndUpsertPoolsForTip ids refresh store.toPoolTables).tables
  valid := valid_refresh store.valid

def PoolStore.run (ids : IdSource) (store : PoolStore) (refreshes : List Refresh) : PoolStore :=
  refreshes.foldl (PoolStore.refresh ids) store

end PoolSnapshots

end AlkanesIndexer
