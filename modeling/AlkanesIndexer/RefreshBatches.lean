import AlkanesIndexer.SnapshotRuns

/-!
# The batches of a refresh

The refresh writes its new pools by one statement and its snapshots by another, however
many there are, while Postgres takes 65535 parameters.  Which refreshes fit is said of
what is fetched and of the tables before.
-/

namespace AlkanesIndexer

open SnapshotHistory SqlStatements

namespace PoolSnapshots

open TransactionWriters (SqlValue)

/-! ## What a refresh has to write -/

def Refresh.fetched (refresh : Refresh) : List (AlkaneId × PoolDetailsResult) :=
  match fetchAllPoolsWithDetails refresh with
  | .ok fetched => fetched
  | .error _ => []

/-- The pool has no row of the factory. -/
def Unrecorded (refresh : Refresh) (tables : PoolTables) (pool : AlkaneId) : Prop :=
  ∀ record ∈ tables.pools, record.row.factory = refresh.factory → record.pool ≠ pool

instance (refresh : Refresh) (tables : PoolTables) (pool : AlkaneId) :
    Decidable (Unrecorded refresh tables pool) :=
  inferInstanceAs (Decidable (∀ record ∈ tables.pools, _))

/-- The pool is not another factory's, and the values differ from its latest ones. -/
def Changed
    (refresh : Refresh)
    (tables : PoolTables)
    (item : AlkaneId × PoolDetailsResult) : Prop :=
  ¬ Foreign refresh tables item.1 ∧ latestValues tables item.1 ≠ some item.2.values

instance (refresh : Refresh) (tables : PoolTables) (item : AlkaneId × PoolDetailsResult) :
    Decidable (Changed refresh tables item) :=
  inferInstanceAs (Decidable (_ ∧ _))

/-- The row of a listing that is not recorded. -/
def poolRowOf (refresh : Refresh) (item : AlkaneId × PoolDetailsResult) : PoolRow where
  factory := refresh.factory
  pool := item.1
  token0 := item.2.token0
  token1 := item.2.token1
  poolName := item.2.poolName

/-- The snapshot of a listing that has changed, under the id that its pool gets. -/
def stateOf
    (ids : IdSource)
    (refresh : Refresh)
    (tables : PoolTables)
    (item : AlkaneId × PoolDetailsResult) : PoolState where
  subject := (recordOf (poolsAfter ids refresh tables refresh.fetched) item.1).elim ""
    PoolRecord.id
  height := asI32 refresh.tipHeight
  value := item.2.values

/-- Every insert is within the limit, together they have each new pool and each changed
snapshot once, and the refresh does not fail on the limit. -/
structure BatchesFit (ids : IdSource) (refresh : Refresh) (tables : PoolTables) : Prop where
  params_le : ∀ insert ∈ (fetchAndUpsertPoolsForTip ids refresh tables).issued,
    insert.binds.length ≤ 65535
  covers : (fetchAndUpsertPoolsForTip ids refresh tables).issued.flatMap Insert.rows =
    ((refresh.fetched.filter fun item => Unrecorded refresh tables item.1).map fun item =>
        poolInsert.record (poolRowOf refresh item)) ++
      ((refresh.fetched.filter (Changed refresh tables)).map fun item =>
        stateInsert.record (stateOf ids refresh tables item))
  error_ne : (fetchAndUpsertPoolsForTip ids refresh tables).error ≠ some .tooManyParameters

/-! ## What it writes -/

section Batches

variable {ids : IdSource} {refresh : Refresh} {tables : PoolTables}

variable (refresh tables) in
theorem newRows_eq
    (fetched : List (AlkaneId × PoolDetailsResult)) :
    newRows refresh tables fetched =
      (fetched.filter fun item => Unrecorded refresh tables item.1).map (poolRowOf refresh) := by
  have hrows : newRows refresh tables fetched = (fetched.filter fun item => item.1 ∉
      (((tables.pools.map PoolRecord.row).filter fun row => row.factory = refresh.factory).map
        PoolRow.pool)).map (poolRowOf refresh) := by
    unfold newRows newPools
    dsimp only
    rw [List.filter_map (f := fun item : AlkaneId × PoolDetailsResult =>
      (item.1, item.2.toPoolDetails)), List.map_map]
    rfl
  have hsame : ∀ item ∈ fetched, (decide (item.1 ∉
      (((tables.pools.map PoolRecord.row).filter fun row => row.factory = refresh.factory).map
        PoolRow.pool))) = decide (Unrecorded refresh tables item.1) := by
    intro item _
    rw [Bool.eq_iff_iff, decide_eq_true_eq, decide_eq_true_eq]
    unfold Unrecorded
    simp only [List.mem_map, List.mem_filter, decide_eq_true_eq, not_exists, not_and]
    constructor
    · intro hnone record hrecord hfactory
      exact hnone record.row ⟨⟨record, hrecord, rfl⟩, hfactory⟩
    · rintro hnone row ⟨⟨record, hrecord, rfl⟩, hfactory⟩
      exact hnone record hrecord hfactory
  rw [hrows, List.filter_congr hsame]

variable (ids refresh) in
theorem newStates_eq
    (hvalid : tables.Valid) :
    newStates ids refresh tables refresh.fetched =
      (refresh.fetched.filter (Changed refresh tables)).map (stateOf ids refresh tables) := by
  have heach : ∀ item ∈ refresh.fetched,
      changedState (idMap ids refresh tables refresh.fetched) tables.states refresh.tipHeight item =
        if Changed refresh tables item then some (stateOf ids refresh tables item) else none := by
    intro item hitem
    obtain ⟨record, hrecord, _, _⟩ :=
      exists_recordOf_poolsAfter ids refresh hvalid (List.mem_map_of_mem hitem)
    rw [changedState_eq hvalid hitem hrecord]
    unfold Changed stateOf
    rw [hrecord]
    rfl
  unfold newStates
  rw [List.filterMap_congr heach, ← List.filterMap_eq_filter, List.map_filterMap]
  refine List.filterMap_congr fun item _ => ?_
  by_cases hchanged : Changed refresh tables item <;> simp [Option.guard, hchanged]

theorem flatMap_rows_statementFor
    {ρ : Type}
    (builder : RowInsert ρ SqlValue)
    (rows : List ρ) :
    (statementFor builder rows).flatMap Insert.rows = rows.map builder.record := by
  unfold statementFor
  cases rows with
  | nil => rfl
  | cons row rows =>
      rw [List.isEmpty_cons, if_neg Bool.false_ne_true, List.flatMap_singleton,
        builder.rows_statement]

theorem eq_of_mem_statementFor
    {ρ : Type}
    {builder : RowInsert ρ SqlValue}
    {rows : List ρ}
    {insert : Insert SqlValue}
    (hinsert : insert ∈ statementFor builder rows) :
    insert = builder.statement rows := by
  unfold statementFor at hinsert
  cases rows with
  | nil => cases hinsert
  | cons row rows =>
      rw [List.isEmpty_cons, if_neg Bool.false_ne_true] at hinsert
      exact List.mem_singleton.mp hinsert

theorem statement_mem_of_tooLong
    {ρ : Type}
    {builder : RowInsert ρ SqlValue}
    {rows : List ρ}
    (hlong : TooLong builder rows) :
    builder.statement rows ∈ statementFor builder rows := by
  unfold statementFor
  cases rows with
  | nil =>
      unfold TooLong at hlong
      rw [builder.length_binds, List.length_nil, Nat.zero_mul] at hlong
      omega
  | cons row rows => exact List.mem_singleton_self _

theorem issued_of_fits
    (hpools : ¬ TooLong poolInsert (newRows refresh tables refresh.fetched))
    (hstates : ¬ TooLong stateInsert (newStates ids refresh tables refresh.fetched)) :
    (fetchAndUpsertPoolsForTip ids refresh tables).issued =
        statementFor poolInsert (newRows refresh tables refresh.fetched) ++
          statementFor stateInsert (newStates ids refresh tables refresh.fetched) ∧
      (fetchAndUpsertPoolsForTip ids refresh tables).error ≠ some .tooManyParameters := by
  unfold Refresh.fetched at hpools hstates ⊢
  unfold fetchAndUpsertPoolsForTip
  cases hfetch : fetchAllPoolsWithDetails refresh with
  | error message => exact ⟨rfl, nofun⟩
  | ok fetched =>
      rw [hfetch] at hpools hstates
      dsimp only at hpools hstates ⊢
      cases fetched with
      | nil => exact ⟨rfl, nofun⟩
      | cons item fetched =>
          rw [List.isEmpty_cons, if_neg Bool.false_ne_true]
          unfold upsertFetched
          dsimp only
          rw [if_neg hpools, if_neg hstates]
          cases refresh.saves with
          | saved => exact ⟨rfl, nofun⟩
          | lost => exact ⟨rfl, nofun⟩
          | unacknowledged => exact ⟨rfl, nofun⟩

variable (ids) in
/-- The insert that is too long is issued: that of the pools before that of the
snapshots. -/
theorem exists_long_insert
    (hlong : TooLong poolInsert (newRows refresh tables refresh.fetched) ∨
      TooLong stateInsert (newStates ids refresh tables refresh.fetched)) :
    ∃ insert ∈ (fetchAndUpsertPoolsForTip ids refresh tables).issued,
      65535 < insert.binds.length := by
  unfold Refresh.fetched at hlong
  unfold fetchAndUpsertPoolsForTip
  cases hfetch : fetchAllPoolsWithDetails refresh with
  | error message =>
      rw [hfetch] at hlong
      unfold TooLong at hlong
      rw [poolInsert.length_binds, stateInsert.length_binds] at hlong
      simp [newRows, newPools, newStates] at hlong
  | ok fetched =>
      rw [hfetch] at hlong
      dsimp only at hlong ⊢
      cases fetched with
      | nil =>
          unfold TooLong at hlong
          rw [poolInsert.length_binds, stateInsert.length_binds] at hlong
          simp [newRows, newPools, newStates] at hlong
      | cons item fetched =>
          rw [List.isEmpty_cons, if_neg Bool.false_ne_true]
          unfold upsertFetched
          dsimp only
          by_cases hpools : TooLong poolInsert (newRows refresh tables (item :: fetched))
          · rw [if_pos hpools]
            exact ⟨_, statement_mem_of_tooLong hpools, hpools⟩
          · have hstates := hlong.resolve_left hpools
            rw [if_neg hpools, if_pos hstates]
            exact ⟨_, List.mem_append_right _ (statement_mem_of_tooLong hstates), hstates⟩

end Batches

/-! ## Which refreshes fit -/

/-- Nine parameters for each listing that is not recorded, and five for each that has
changed. -/
theorem batchesFit_iff
    (ids : IdSource)
    (refresh : Refresh)
    (store : PoolStore) :
    BatchesFit ids refresh store.toPoolTables ↔
      9 * refresh.fetched.countP (fun item => Unrecorded refresh store.toPoolTables item.1) ≤
          65535 ∧
        5 * refresh.fetched.countP (Changed refresh store.toPoolTables) ≤ 65535 := by
  have hrows := newRows_eq refresh store.toPoolTables refresh.fetched
  have hstates := newStates_eq ids refresh store.valid
  have hpoolsFit : ¬ TooLong poolInsert (newRows refresh store.toPoolTables refresh.fetched) ↔
      9 * refresh.fetched.countP (fun item => Unrecorded refresh store.toPoolTables item.1) ≤
        65535 := by
    rw [tooLong_poolInsert_iff, hrows, List.length_map, List.countP_eq_length_filter, Nat.not_lt]
  have hstatesFit :
      ¬ TooLong stateInsert (newStates ids refresh store.toPoolTables refresh.fetched) ↔
        5 * refresh.fetched.countP (Changed refresh store.toPoolTables) ≤ 65535 := by
    rw [tooLong_stateInsert_iff, hstates, List.length_map, List.countP_eq_length_filter,
      Nat.not_lt]
  rw [← hpoolsFit, ← hstatesFit]
  constructor
  · intro hfit
    rw [← not_or]
    intro hlong
    obtain ⟨insert, hinsert, hlt⟩ := exists_long_insert _ hlong
    exact absurd (hfit.params_le insert hinsert) (Nat.not_le.mpr hlt)
  · rintro ⟨hpools, hchanged⟩
    obtain ⟨hissued, herror⟩ := issued_of_fits hpools hchanged
    refine ⟨fun insert hinsert => ?_, ?_, herror⟩
    · rw [hissued, List.mem_append] at hinsert
      cases hinsert with
      | inl hpool =>
          rw [eq_of_mem_statementFor hpool]
          exact Nat.not_lt.mp hpools
      | inr hstate =>
          rw [eq_of_mem_statementFor hstate]
          exact Nat.not_lt.mp hchanged
    · rw [hissued, List.flatMap_append, flatMap_rows_statementFor, flatMap_rows_statementFor,
        hrows, hstates, List.map_map, List.map_map]
      rfl

/-- A factory with a number of pools. -/
def crowdedRefresh (count : ℕ) : Refresh where
  factory := ("4", "65522")
  tipHeight := 900000
  listed := .ok ((List.range count).map fun n => (("2", toString n), .ok (detailsOf 5)))
  picks := []
  saves := .saved

theorem fetched_crowdedRefresh
    (count : ℕ) :
    (crowdedRefresh count).fetched =
      (List.range count).map fun n => (("2", toString n), detailsOf 5) := by
  have hfetch : (crowdedRefresh count).fetched =
      ((List.range count).map fun n =>
        ((("2", toString n), .ok (detailsOf 5)) :
          AlkaneId × Except String PoolDetailsResult)).filterMap
            fun listing => listing.2.toOption.map fun details => (listing.1, details) := rfl
  rw [hfetch, List.filterMap_map]
  exact congrFun (List.filterMap_eq_map (f := fun n : ℕ => (("2", toString n), detailsOf 5))) _

theorem crowdedRefresh_not_fit :
    ¬ BatchesFit growingIds (crowdedRefresh 7282) PoolStore.empty.toPoolTables := by
  intro hfit
  have hall : ((crowdedRefresh 7282).fetched.filter fun item =>
      Unrecorded (crowdedRefresh 7282) PoolStore.empty.toPoolTables item.1) =
        (crowdedRefresh 7282).fetched :=
    List.filter_eq_self.mpr fun _ _ => decide_eq_true nofun
  have hlength : (newRows (crowdedRefresh 7282) PoolStore.empty.toPoolTables
      (crowdedRefresh 7282).fetched).length = 7282 := by
    rw [newRows_eq, List.length_map, hall, fetched_crowdedRefresh, List.length_map,
      List.length_range]
  have hlong : TooLong poolInsert (newRows (crowdedRefresh 7282) PoolStore.empty.toPoolTables
      (crowdedRefresh 7282).fetched) := by
    rw [tooLong_poolInsert_iff, hlength]
    decide
  obtain ⟨insert, hinsert, hlt⟩ := exists_long_insert growingIds (Or.inl hlong)
  exact absurd (hfit.params_le insert hinsert) (Nat.not_le.mpr hlt)

end PoolSnapshots

end AlkanesIndexer
