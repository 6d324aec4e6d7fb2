import AlkanesIndexer.CleanReindex

/-!
# Retried attempts

An attempt that fails leaves the stages it has committed behind, and the next
one starts over on top of them.  Every stage of the last attempt replaces what
the earlier ones have written, and a stage it leaves out was left out by them as
well: whatever an event yields with some pools known, it yields with more.
-/

namespace AlkanesIndexer

/-- What a block consists of, in any order. -/
structure ChainData where
  txs : List JsonValue
  results : List TxDecodeTraceResult

/-- An attempt that gets hold of the block finds this chain data. -/
def Attempt.Finds (attempt : Attempt) (height : ℕ) (chain : ChainData) : Prop :=
  ∀ data, fetchBlock attempt.rpc attempt.schedule height = .ok data →
    data.txs.Perm chain.txs ∧ data.results.Perm chain.results

/-- `Pool` has only gained rows between two attempts. -/
def PoolsGrow (earlier later : Attempt) : Prop :=
  ∀ table, earlier.pools table ⊆ later.pools table

/-- The database after some attempts, one after the other. -/
def retry (height : ℕ) (emitPublish : Bool) (attempts : List Attempt) (db : Db) : Db :=
  attempts.foldl (fun db attempt =>
    (processBlockSequential attempt height emitPublish db).db) db

/-! ## More pools, more rows -/

theorem nothingToWrite_of_subset
    {data data' : BlockData}
    {pools pools' : List PoolRow}
    {table : DerivedTable}
    (hresults : data.results.Perm data'.results)
    (hpools : pools ⊆ pools')
    (hnothing : NothingToWrite data' pools' table) :
    NothingToWrite data pools table := by
  -- the events of an input are found in the other block as well
  have hinputs : ∀ input ∈ data.inputs, ∃ input' ∈ data'.inputs,
      input'.events = input.events := by
    intro input hinput
    obtain ⟨placed, hplaced, rfl⟩ := List.mem_map.mp hinput
    have hresult : placed.1 ∈ data.results :=
      List.mem_of_getElem? (List.mem_zipIdx_iff_getElem?.mp hplaced)
    obtain ⟨i, hi⟩ := List.mem_iff_getElem?.mp (hresults.mem_iff.mp hresult)
    exact ⟨_, List.mem_map.mpr ⟨(placed.1, i), List.mk_mem_zipIdx_iff_getElem?.mpr hi, rfl⟩, rfl⟩
  have hids : pools.map PoolRow.pool ⊆ pools'.map PoolRow.pool := List.map_subset _ hpools
  cases table with
  | poolSwap => exact hnothing
  | poolCreation =>
      intro input hinput event hevent
      obtain ⟨input', hinput', heq⟩ := hinputs input hinput
      rw [← heq] at hevent ⊢
      exact hnothing input' hinput' event hevent
  | poolMint | poolBurn =>
      intro input hinput event hevent hinvoke hnames hpool
      obtain ⟨input', hinput', heq⟩ := hinputs input hinput
      rw [← heq] at hevent
      exact hnothing input' hinput' event hevent hinvoke hnames (hids hpool)
  | subfrostWrap | subfrostUnwrap =>
      intro input hinput event hevent
      obtain ⟨input', hinput', heq⟩ := hinputs input hinput
      rw [← heq] at hevent
      exact hnothing input' hinput' event hevent

theorem skipped_of_subset
    {data data' : BlockData}
    {pools pools' : DerivedTable → List PoolRow}
    {stage : Stage}
    (hresults : data.results.Perm data'.results)
    (hpools : ∀ table, pools table ⊆ pools' table)
    (hskipped : data'.skipped pools' stage = true) :
    data.skipped pools stage = true := by
  cases stage with
  | raw => cases hskipped
  | processedBlock => cases hskipped
  | derived table =>
      rw [skipped_derived_iff] at hskipped ⊢
      exact nothingToWrite_of_subset hresults (hpools table) hskipped

/-! ## Earlier attempts -/

/-- What the earlier attempts leave as it was: the rows of other transactions,
the tables the last attempt does not write, and the marks of other heights. -/
structure Untouched (last : Attempt) (data : BlockData) (start db : Db) : Prop where
  others : ∀ table, db.otherRows table data.txids = start.otherRows table data.txids
  unwritten : ∀ table : Table,
    table.stage ∉ data.stages ∨ data.skipped last.pools table.stage = true →
      db.rows table = start.rows table
  heights : db.processedBlocks.filter (fun row => row.blockHeight ≠ data.height) =
    start.processedBlocks.filter fun row => row.blockHeight ≠ data.height

theorem mem_stages_of_mem_committed
    {attempt : Attempt}
    {emitPublish : Bool}
    {db : Db}
    {data : BlockData}
    {stage : Stage}
    (hcommitted : stage ∈ (writeBlock attempt emitPublish db data).committed) :
    stage ∈ data.stages ∧ data.skipped attempt.pools stage = false := by
  obtain ⟨done, hinitial, _, heq⟩ := writeBlock_effect attempt emitPublish db data
  rw [heq] at hcommitted
  obtain ⟨hdone, hskipped⟩ := List.mem_filter.mp hcommitted
  exact ⟨hinitial.subset hdone, by simpa using hskipped⟩

theorem untouched_processBlockSequential
    {attempt last : Attempt}
    {height : ℕ}
    (emitPublish : Bool)
    {chain : ChainData}
    {data : BlockData}
    {start db : Db}
    (hfetch : fetchBlock last.rpc last.schedule height = .ok data)
    (hlast : last.Finds height chain)
    (hfinds : attempt.Finds height chain)
    (hgrow : PoolsGrow attempt last)
    (huntouched : Untouched last data start db) :
    Untouched last data start (processBlockSequential attempt height emitPublish db).db := by
  cases hattempt : fetchBlock attempt.rpc attempt.schedule height with
  | error message =>
      simpa [processBlockSequential, hattempt] using huntouched
  | ok data' =>
      obtain ⟨htxs, hresults⟩ := hlast data hfetch
      obtain ⟨htxs', hresults'⟩ := hfinds data' hattempt
      have hperm : data'.results.Perm data.results := hresults'.trans hresults.symm
      have hheight : data'.height = data.height := by
        rw [(height_of_fetchBlock hattempt).1, (height_of_fetchBlock hfetch).1]
      have htxids : ∀ txid, txid ∈ data'.txids ↔ txid ∈ data.txids := fun txid =>
        (hperm.map _).mem_iff
      have hstages : data'.stages = data.stages := by
        unfold BlockData.stages
        rw [(htxs'.trans htxs.symm).any_eq]
      have hothers : ∀ (db : Db) (table : Table),
          db.otherRows table data'.txids = db.otherRows table data.txids := by
        intro db table
        apply List.filter_congr
        intro row _
        simp [htxids]
      rw [processBlockSequential_of_fetch attempt emitPublish db hattempt, writeBlock_db]
      constructor
      · intro table
        rw [← hothers, otherRows_after, hothers, huntouched.others]
      · intro table hleft
        rw [after_rows, if_neg]
        · exact huntouched.unwritten table hleft
        · intro hcommitted
          obtain ⟨hstage, hwritten⟩ := mem_stages_of_mem_committed hcommitted
          rcases hleft with hnot | hskipped
          · exact hnot (hstages ▸ hstage)
          · rw [skipped_of_subset hperm hgrow hskipped] at hwritten
            cases hwritten
      · rw [after_processedBlocks]
        split
        · simpa [hheight, BlockData.processedBlockRow, List.filter_append,
            List.filter_filter] using huntouched.heights
        · exact huntouched.heights

theorem untouched_retry
    {attempts : List Attempt}
    {last : Attempt}
    {height : ℕ}
    {emitPublish : Bool}
    {chain : ChainData}
    {data : BlockData}
    {start db : Db}
    (hfetch : fetchBlock last.rpc last.schedule height = .ok data)
    (hlast : last.Finds height chain)
    (hfinds : ∀ attempt ∈ attempts, attempt.Finds height chain)
    (hgrow : ∀ attempt ∈ attempts, PoolsGrow attempt last)
    (huntouched : Untouched last data start db) :
    Untouched last data start (retry height emitPublish attempts db) := by
  induction attempts generalizing db with
  | nil => exact huntouched
  | cons attempt rest ih =>
      have hstep := untouched_processBlockSequential emitPublish hfetch hlast
        (hfinds attempt List.mem_cons_self) (hgrow attempt List.mem_cons_self) huntouched
      exact ih (fun other hmem => hfinds other (List.mem_cons_of_mem _ hmem))
        (fun other hmem => hgrow other (List.mem_cons_of_mem _ hmem)) hstep

/-! ## The last attempt -/

theorem stageReady_iff_of_untouched
    {last : Attempt}
    {data : BlockData}
    {start db : Db}
    (huntouched : Untouched last data start db)
    (stage : Stage) :
    StageReady last data db stage ↔ StageReady last data start stage := by
  cases stage with
  | raw => simp only [StageReady, huntouched.others]
  | derived table => simp only [StageReady, huntouched.others]
  | processedBlock => simp only [StageReady, BlockData.HashFree, huntouched.heights]

/-- On what the earlier attempts have left, the last one does what it would have
done without them. -/
theorem writeBlock_eq_of_untouched
    {last : Attempt}
    {emitPublish : Bool}
    {data : BlockData}
    {start db : Db}
    (huntouched : Untouched last data start db)
    (hsuccess : (writeBlock last emitPublish db data).error = none) :
    (writeBlock last emitPublish start data).error = none ∧
      (writeBlock last emitPublish start data).db = (writeBlock last emitPublish db data).db := by
  have hstart : (writeBlock last emitPublish start data).error = none := by
    rw [writeBlock_error_eq_none_iff] at hsuccess ⊢
    intro stage hstage
    exact (stageReady_iff_of_untouched huntouched stage).mp (hsuccess stage hstage)
  refine ⟨hstart, ?_⟩
  rw [writeBlock_db, writeBlock_db, writeBlock_committed _ _ _ _ hstart,
    writeBlock_committed _ _ _ _ hsuccess]
  ext1
  · funext table
    rw [after_rows, after_rows, huntouched.others]
    split
    · rfl
    · next hnot =>
      refine (huntouched.unwritten table ?_).symm
      by_contra hboth
      rw [not_or, not_not, Bool.not_eq_true] at hboth
      exact hnot (List.mem_filter.mpr ⟨hboth.1, by simp [hboth.2]⟩)
  · rw [after_processedBlocks, after_processedBlocks, huntouched.heights]
    have hmark : Stage.processedBlock ∈
        data.stages.filter fun stage => !data.skipped last.pools stage := by
      refine List.mem_filter.mpr ⟨?_, rfl⟩
      unfold BlockData.stages
      split <;> simp
    rw [if_pos hmark, if_pos hmark]

/-- Before its first commit an attempt changes nothing. -/
def HarmlessBeforeCommit (outcome : Outcome) (db : Db) : Prop :=
  outcome.committed = [] → outcome.db = db

/-- The mark of the block is written only when everything else has been
committed. -/
structure MarkedLast (attempt : Attempt) (height : ℕ) (outcome : Outcome) (db : Db) : Prop where
  unmarked : .processedBlock ∉ outcome.committed →
    outcome.db.processedBlocks = db.processedBlocks
  complete : .processedBlock ∈ outcome.committed →
    ∃ data, fetchBlock attempt.rpc attempt.schedule height = .ok data ∧
      ∀ stage ∈ data.stages,
        stage ∈ outcome.committed ∨ data.skipped attempt.pools stage = true

theorem harmlessBeforeCommit
    (attempt : Attempt)
    (height : ℕ)
    (emitPublish : Bool)
    (db : Db) :
    HarmlessBeforeCommit (processBlockSequential attempt height emitPublish db) db := by
  unfold HarmlessBeforeCommit processBlockSequential
  split
  · intro _
    rfl
  · intro hnone
    rw [writeBlock_db, hnone, after_nil]

theorem markedLast
    (attempt : Attempt)
    (height : ℕ)
    (emitPublish : Bool)
    (db : Db) :
    MarkedLast attempt height (processBlockSequential attempt height emitPublish db) db := by
  cases hfetch : fetchBlock attempt.rpc attempt.schedule height with
  | error message =>
      constructor
      · intro _
        simp [processBlockSequential, hfetch]
      · intro hmark
        simp [processBlockSequential, hfetch] at hmark
  | ok data =>
      rw [processBlockSequential_of_fetch attempt emitPublish db hfetch]
      constructor
      · intro hmark
        rw [writeBlock_db, after_processedBlocks, if_neg hmark]
      · intro hmark
        refine ⟨data, hfetch, fun stage hstage => ?_⟩
        rw [committed_of_processedBlock_mem attempt emitPublish db data hmark]
        cases hskipped : data.skipped attempt.pools stage with
        | true => exact Or.inr rfl
        | false => exact Or.inl (List.mem_filter.mpr ⟨hstage, by simp [hskipped]⟩)

/-- Attempts on one chain leave no trace but the last one's, whatever was stored
before. -/
theorem failed_attempts_harmless
    {attempts : List Attempt}
    {last : Attempt}
    {height : ℕ}
    {emitPublish : Bool}
    {chain : ChainData}
    {db : Db}
    (hfinds : ∀ attempt ∈ attempts ++ [last], attempt.Finds height chain)
    (hgrow : (attempts ++ [last]).Pairwise PoolsGrow)
    (hsuccess : (processBlockSequential last height emitPublish
      (retry height emitPublish attempts db)).error = none) :
    (∀ (attempt : Attempt) (before : Db),
        HarmlessBeforeCommit (processBlockSequential attempt height emitPublish before) before ∧
          MarkedLast attempt height
            (processBlockSequential attempt height emitPublish before) before) ∧
      (processBlockSequential last height emitPublish db).error = none ∧
      retry height emitPublish (attempts ++ [last]) db =
        (processBlockSequential last height emitPublish db).db := by
  refine ⟨fun attempt before => ⟨harmlessBeforeCommit attempt height emitPublish before,
    markedLast attempt height emitPublish before⟩, ?_⟩
  obtain ⟨data, hfetch⟩ := exists_data_of_error_eq_none _ _ _ hsuccess
  have huntouched : Untouched last data db (retry height emitPublish attempts db) := by
    apply untouched_retry hfetch
    · exact hfinds last (List.mem_append_right _ (List.mem_singleton_self last))
    · exact fun attempt hmem => hfinds attempt (List.mem_append_left _ hmem)
    · exact fun attempt hmem =>
        (List.pairwise_append.mp hgrow).2.2 attempt hmem last (List.mem_singleton_self last)
    · exact ⟨fun _ => rfl, fun _ _ => rfl, rfl⟩
  rw [processBlockSequential_of_fetch last emitPublish _ hfetch] at hsuccess
  obtain ⟨hstart, hdb⟩ := writeBlock_eq_of_untouched huntouched hsuccess
  rw [processBlockSequential_of_fetch last emitPublish db hfetch]
  refine ⟨hstart, ?_⟩
  rw [retry, List.foldl_append]
  change (processBlockSequential last height emitPublish
    (retry height emitPublish attempts db)).db = _
  rw [processBlockSequential_of_fetch last emitPublish _ hfetch, hdb]

def interruptedAttempt : Attempt :=
  { mintingAttempt with fails := fun site => site = .read (.derived .poolBurn) }

set_option maxRecDepth 4000 in
theorem interruptedAttempt_harmless :
    (processBlockSequential interruptedAttempt 5 false .empty).committed =
        [.raw, .derived .poolSwap, .derived .poolMint] ∧
      retry 5 false [interruptedAttempt, mintingAttempt] .empty =
        (processBlockSequential mintingAttempt 5 false .empty).db := by
  refine ⟨by decide, ?_⟩
  have hfinds : ∀ attempt ∈ [interruptedAttempt] ++ [mintingAttempt],
      attempt.Finds 5 ⟨mintingData.txs, mintingData.results⟩ := by
    intro attempt hattempt data hfetch
    have hsame : fetchBlock attempt.rpc attempt.schedule 5 = .ok mintingData := by
      rcases List.mem_cons.mp hattempt with rfl | hlast
      · exact mintingAttempt_fetches
      · rw [List.mem_singleton.mp hlast]
        exact mintingAttempt_fetches
    rw [hsame] at hfetch
    cases hfetch
    exact ⟨List.Perm.refl _, List.Perm.refl _⟩
  have hgrow : ([interruptedAttempt] ++ [mintingAttempt]).Pairwise PoolsGrow := by
    refine List.pairwise_pair.mpr fun table => ?_
    exact List.Subset.refl _
  exact (failed_attempts_harmless hfinds hgrow (by decide)).2.2

end AlkanesIndexer
