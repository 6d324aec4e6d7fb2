import AlkanesIndexer.CleanReindex
import AlkanesIndexer.HeightCoherence
import AlkanesIndexer.KeyedRows

/-!
# The commands on the tables of a block

Besides the loops of the indexer, `reprocess` runs the pipeline on one block, `swaps` runs
its first two stages, and `dbctl purge-block` deletes the rows of a height.  Whatever an
attempt of either kind has committed when it ends, it is a set of stages, so what the
command has done to the tables is one of two things: it has put the rows of its
transactions in place of the old ones in some tables, or it has deleted a height.
-/

namespace AlkanesIndexer

open KeyedRows

/-! ## The swaps command -/

/-- The transactions made by `swaps`, in their order. -/
def swapStages (data : BlockData) : List Stage :=
  if data.txs.any txHasOpReturn then [.raw, .derived .poolSwap] else []

def writeSwaps (attempt : Attempt) (db : Db) (data : BlockData) : Outcome :=
  let run := runStages attempt data (swapStages data) (.start db)
  { error := run.2
    db := run.1.db
    committed := run.1.committed
    batches := run.1.batches
    published := false }

/-- `main` of `swaps`. -/
def runSwaps (attempt : Attempt) (height : ℕ) (db : Db) : Outcome :=
  match fetchBlock attempt.rpc attempt.schedule height with
  | .error message => ⟨some (.fetch message), db, [], fun _ => [], false⟩
  | .ok data => writeSwaps attempt db data

section Swaps

variable (attempt : Attempt) (db : Db) (data : BlockData)

theorem swapStages_nodup :
    (swapStages data).Nodup := by
  unfold swapStages
  split <;> decide

theorem preloadsFor_swapStages :
    data.PreloadsFor (swapStages data) db := by
  unfold BlockData.PreloadsFor swapStages
  split
  · exact .inr (.inl rfl)
  · exact .inr (.inr (by simp))

theorem not_skipped_of_mem_swapStages
    {pools : DerivedTable → List PoolRow}
    {stage : Stage}
    (hstage : stage ∈ swapStages data) :
    data.skipped pools stage = false := by
  unfold swapStages at hstage
  split at hstage
  · rcases List.mem_pair.mp hstage with rfl | rfl <;> rfl
  · exact absurd hstage List.not_mem_nil

/-- What `swaps` has committed when it ends is a part of its stages, all of them if it
succeeds, and the database is what these have made of it. -/
theorem writeSwaps_effect :
    (writeSwaps attempt db data).committed <+: swapStages data ∧
      ((writeSwaps attempt db data).error = none →
        (writeSwaps attempt db data).committed = swapStages data) ∧
      (writeSwaps attempt db data).db =
        data.after attempt.pools (writeSwaps attempt db data).committed db := by
  obtain ⟨done, heffect⟩ := runStages_effect attempt data (.start db) (swapStages data)
    (swapStages_nodup data) (preloadsFor_swapStages db data)
  have hall : (done.filter fun stage => !data.skipped attempt.pools stage) = done := by
    refine List.filter_eq_self.mpr fun stage hstage => ?_
    rw [not_skipped_of_mem_swapStages data (heffect.isPrefix.subset hstage)]
    rfl
  have hcommitted : (writeSwaps attempt db data).committed = [] ++ _ := heffect.committed_eq
  have hdb : (writeSwaps attempt db data).db = _ := heffect.db_eq
  rw [hall, List.nil_append] at hcommitted
  rw [hall] at hdb
  rw [hcommitted]
  exact ⟨heffect.isPrefix, heffect.complete, hdb⟩

end Swaps

/-- A successful attempt writes every table it has rows for. -/
theorem batch_eq_nil_of_not_written
    {data : BlockData}
    {attempt : Attempt}
    {table : Table}
    (hnone : ¬ (table.stage ∈ data.stages ∧ data.skipped attempt.pools table.stage = false)) :
    data.batch attempt.pools table = [] := by
  cases hreturn : data.txs.any txHasOpReturn with
  | false => exact batch_eq_nil attempt data (data.results_nil hreturn) table
  | true =>
      refine batch_of_skipped _ (Bool.eq_true_of_not_eq_false fun hskipped => hnone ⟨?_, hskipped⟩)
      exact stage_mem_stages data hreturn table

/-! ## Writing the same block again -/

section Again

variable (data : BlockData) (pools : DerivedTable → List PoolRow) (db : Db)

/-- What a second attempt at the block commits decides the tables it has committed; the
stages of the first remain where it has committed nothing. -/
theorem after_after
    (first second : List Stage) :
    data.after pools second (data.after pools first db) =
      data.after pools (first ++ second) db := by
  ext1
  · funext table
    rw [after_rows, after_rows, otherRows_after, after_rows]
    by_cases hfirst : table.stage ∈ first <;> by_cases hsecond : table.stage ∈ second <;>
      simp [hfirst, hsecond]
  · rw [after_processedBlocks, after_processedBlocks, after_processedBlocks]
    by_cases hfirst : Stage.processedBlock ∈ first <;>
      by_cases hsecond : Stage.processedBlock ∈ second <;>
        simp [hfirst, hsecond, List.filter_append, List.filter_filter,
          BlockData.processedBlockRow]

theorem after_congr
    {first second : List Stage}
    (hmem : ∀ stage, stage ∈ first ↔ stage ∈ second) :
    data.after pools first db = data.after pools second db := by
  unfold BlockData.after
  simp only [hmem]

/-- The rows of one transaction behind some stages. -/
theorem rowsOf_after
    (stages : List Stage)
    (txid : String)
    (table : Table) :
    rowsOf table.transactionId ((data.after pools stages db).rows table) txid =
      if txid ∈ data.txids ∧ table.stage ∈ stages then
        rowsOf table.transactionId (written table (data.batch pools table)) txid
      else rowsOf table.transactionId (db.rows table) txid := by
  rw [after_rows]
  by_cases hstage : table.stage ∈ stages
  · rw [if_pos hstage]
    refine (rowsOf_replace fun row hrow => written_mem_txids data pools table hrow).trans ?_
    simp only [hstage, and_true]
  · rw [if_neg hstage, if_neg fun h => hstage h.2]

end Again

end AlkanesIndexer
