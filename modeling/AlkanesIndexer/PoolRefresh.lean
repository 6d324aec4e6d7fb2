import AlkanesIndexer.BatchScheduler
import AlkanesIndexer.IndexerLoops
import AlkanesIndexer.Tables

/-!
# Refreshing the pools

At every new tip the pools of the factory are listed, their details are fetched
ten at a time, and those which `Pool` does not have are added.  A pool whose
details cannot be fetched is passed over.  The reserves, which go to `PoolState`,
are left out; whatever fails there counts as a failure of the database.
-/

namespace AlkanesIndexer

open BatchScheduler

structure PoolDetails where
  token0 : AlkaneId
  token1 : AlkaneId
  poolName : String
  deriving DecidableEq, Repr

/-- What a refresh meets: the factory's answer, the details of each pool, the order
in which the requests for them complete, and how its transaction ends. -/
structure PoolAnswers where
  allPools : Except String (List AlkaneId)
  poolDetails : AlkaneId → Except String PoolDetails
  picks : List ℕ
  saves : SaveResult

def fetchAllPoolsWithDetails
    (answers : PoolAnswers) : Except String (List (AlkaneId × PoolDetails)) :=
  answers.allPools.map fun ids =>
    (bufferUnordered 10 answers.picks ids).filterMap fun id =>
      (answers.poolDetails id).toOption.map fun details => (id, details)

/-- `on conflict ("poolBlockId", "poolTxId") do nothing`. -/
def insertPool (pools : List PoolRow) (row : PoolRow) : List PoolRow :=
  if row.pool ∈ pools.map PoolRow.pool then pools else pools ++ [row]

/-- One statement with nine parameters for each row, of which Postgres takes no
more than 65535. -/
def insertNewPools (pools new : List PoolRow) : Option (List PoolRow) :=
  if 9 * new.length ≤ 65535 then some (new.foldl insertPool pools) else none

def newPools
    (factory : AlkaneId)
    (pools : List PoolRow)
    (fetched : List (AlkaneId × PoolDetails)) : List PoolRow :=
  let existing := (pools.filter fun row => row.factory = factory).map PoolRow.pool
  (fetched.filter fun item => item.1 ∉ existing).map fun item => {
    factory := factory
    pool := item.1
    token0 := item.2.token0
    token1 := item.2.token1
    poolName := item.2.poolName }

/-- `fetch_and_upsert_pools_for_tip`: the table afterwards, and the error. -/
def fetchAndUpsertPools
    (factory : AlkaneId)
    (answers : PoolAnswers)
    (pools : List PoolRow) : List PoolRow × Option String :=
  match fetchAllPoolsWithDetails answers with
  | .error error => (pools, some error)
  | .ok [] => (pools, none)
  | .ok fetched =>
      match insertNewPools pools (newPools factory pools fetched) with
      | none => (pools, some "too many parameters")
      | some pools' =>
          match answers.saves with
          | .saved => (pools', none)
          | .lost => (pools, some "transaction failed")
          | .unacknowledged => (pools', some "commit not acknowledged")

/-- The ids a refresh has listed and got the details of. -/
def PoolAnswers.detailed (answers : PoolAnswers) : List AlkaneId :=
  match fetchAllPoolsWithDetails answers with
  | .error _ => []
  | .ok fetched => fetched.map Prod.fst

theorem mem_detailed_iff
    {answers : PoolAnswers}
    {id : AlkaneId} :
    id ∈ answers.detailed ↔
      ∃ ids, answers.allPools = .ok ids ∧ id ∈ ids ∧
        ∃ details, answers.poolDetails id = .ok details := by
  unfold PoolAnswers.detailed fetchAllPoolsWithDetails
  cases hall : answers.allPools with
  | error error => simp [Except.map]
  | ok ids =>
      have hperm := bufferUnordered_perm 10 answers.picks ids
      simp only [Except.map, List.mem_map, List.mem_filterMap, Option.map_eq_some_iff,
        Except.ok.injEq, exists_eq_left']
      constructor
      · rintro ⟨_, ⟨id, hid, details, hdetails, rfl⟩, rfl⟩
        refine ⟨hperm.mem_iff.mp hid, details, ?_⟩
        cases hanswer : answers.poolDetails id with
        | error error => simp [hanswer, Except.toOption] at hdetails
        | ok details' => simpa [hanswer, Except.toOption] using hdetails
      · rintro ⟨hid, details, hdetails⟩
        refine ⟨(id, details), ⟨id, hperm.mem_iff.mpr hid, details, ?_, rfl⟩, rfl⟩
        rw [hdetails]
        rfl

/-! ## The table only grows -/

theorem prefix_insertPool
    (pools : List PoolRow)
    (row : PoolRow) :
    pools <+: insertPool pools row := by
  unfold insertPool
  split
  · exact List.prefix_rfl
  · exact List.prefix_append _ _

theorem prefix_foldl_insertPool
    (new pools : List PoolRow) :
    pools <+: new.foldl insertPool pools := by
  induction new generalizing pools with
  | nil => exact List.prefix_rfl
  | cons row rest ih => exact (prefix_insertPool pools row).trans (ih _)

theorem pool_mem_insertPool
    (pools : List PoolRow)
    (row : PoolRow) :
    row.pool ∈ (insertPool pools row).map PoolRow.pool := by
  unfold insertPool
  split
  · next hmem => exact hmem
  · simp

theorem pool_mem_foldl_insertPool
    {new pools : List PoolRow}
    (row : PoolRow)
    (hrow : row ∈ new) :
    row.pool ∈ (new.foldl insertPool pools).map PoolRow.pool := by
  induction new generalizing pools with
  | nil => cases hrow
  | cons first rest ih =>
      rw [List.foldl_cons]
      rcases List.mem_cons.mp hrow with rfl | hrest
      · exact ((prefix_foldl_insertPool rest _).map _).subset (pool_mem_insertPool pools row)
      · exact ih hrest

section Refresh

variable {factory : AlkaneId} {answers : PoolAnswers} {pools : List PoolRow}

theorem prefix_fetchAndUpsertPools :
    pools <+: (fetchAndUpsertPools factory answers pools).1 := by
  unfold fetchAndUpsertPools
  split
  · exact List.prefix_rfl
  · exact List.prefix_rfl
  · split
    · exact List.prefix_rfl
    · next pools' hinsert =>
      have hinitial : pools <+: pools' := by
        simp only [insertNewPools, Option.ite_none_right_eq_some, Option.some.injEq] at hinsert
        rw [← hinsert.2]
        exact prefix_foldl_insertPool _ _
      split
      · exact hinitial
      · exact List.prefix_rfl
      · exact hinitial

theorem detailed_subset_of_refresh
    (herror : (fetchAndUpsertPools factory answers pools).2 = none) :
    answers.detailed ⊆ (fetchAndUpsertPools factory answers pools).1.map PoolRow.pool := by
  intro id hid
  unfold PoolAnswers.detailed at hid
  unfold fetchAndUpsertPools at herror ⊢
  cases hfetch : fetchAllPoolsWithDetails answers with
  | error error => simp [hfetch] at hid
  | ok fetched =>
      simp only [hfetch] at hid herror ⊢
      cases fetched with
      | nil => cases hid
      | cons first rest =>
          dsimp only at herror ⊢
          cases hinsert : insertNewPools pools (newPools factory pools (first :: rest)) with
          | none => simp [hinsert] at herror
          | some pools' =>
              simp only [hinsert] at herror ⊢
              have hpools' : id ∈ pools'.map PoolRow.pool := by
                simp only [insertNewPools, Option.ite_none_right_eq_some,
                  Option.some.injEq] at hinsert
                rw [← hinsert.2]
                obtain ⟨item, hitem, rfl⟩ := List.mem_map.mp hid
                by_cases hexisting :
                    item.1 ∈ (pools.filter fun row => row.factory = factory).map PoolRow.pool
                · have hold := (List.filter_sublist.map PoolRow.pool).subset hexisting
                  exact ((prefix_foldl_insertPool _ _).map _).subset hold
                · refine pool_mem_foldl_insertPool
                    ⟨factory, item.1, item.2.token0, item.2.token1, item.2.poolName⟩ ?_
                  refine List.mem_map.mpr ⟨item, List.mem_filter.mpr ⟨hitem, ?_⟩, rfl⟩
                  simpa using hexisting
              cases hsaves : answers.saves with
              | saved => exact hpools'
              | lost => simp [hsaves] at herror
              | unacknowledged => simp [hsaves] at herror

end Refresh

end AlkanesIndexer
