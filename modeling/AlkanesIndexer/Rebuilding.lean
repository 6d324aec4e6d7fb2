import AlkanesIndexer.Commands
import AlkanesIndexer.ReorgTracking

/-!
# What the tables hold after any commands

The tables are rewritten by transaction and purged by height.  So the rows of a transaction
are those of the last attempt that committed the table with it among its transactions,
unless their height has been purged since; and a purge with a successful attempt behind it
restores its height, whatever was left there before.
-/

namespace AlkanesIndexer

open KeyedRows

/-- What is done to the tables of the blocks.  The loops and `reprocess` process blocks; a
purge can be interrupted, and is rolled back then; the pool refresh adds to `PoolState`. -/
inductive IndexCommand where
  | processBlock (attempt : Attempt) (height : ℕ) (emitPublish : Bool)
  | swaps (attempt : Attempt) (height : ℕ)
  | purgeBlock (height : ℤ) (interrupted : Bool)
  | poolStates (heights : List ℕ)

/-- The attempts at a height. -/
def IndexCommand.Indexes (height : ℤ) : IndexCommand → Prop
  | .processBlock _ attempted _ => asI32 attempted = height
  | .swaps _ attempted => asI32 attempted = height
  | .purgeBlock _ _ => False
  | .poolStates _ => False

/-- What a command comes to: stages of a block are committed, or a height is purged. -/
inductive TableEffect where
  | writes (data : BlockData) (pools : DerivedTable → List PoolRow) (stages : List Stage)
  | purges (height : ℤ)
  | nothing

namespace TableEffect

/-- The rows of one transaction in one table. -/
def on
    (txid : String)
    (table : Table)
    (rows : List table.Row) : TableEffect → List table.Row
  | writes data pools stages =>
      if txid ∈ data.txids ∧ table.stage ∈ stages then
        rowsOf table.transactionId (written table (data.batch pools table)) txid
      else rows
  | purges height => rows.filter fun row => asI32 (table.blockHeight row) ≠ height
  | nothing => rows

def Writes (txid : String) (table : Table) : TableEffect → Prop
  | writes data _ stages => txid ∈ data.txids ∧ table.stage ∈ stages
  | purges _ => False
  | nothing => False

/-- On rows of one height a purge does all or nothing. -/
theorem on_cases
    {effect : TableEffect}
    {txid : String}
    {table : Table}
    {rows : List table.Row}
    {height : ℕ}
    (hwrites : ¬ effect.Writes txid table)
    (hheight : ∀ row ∈ rows, table.blockHeight row = height) :
    effect = .purges (asI32 height) ∧ effect.on txid table rows = [] ∨
      effect ≠ .purges (asI32 height) ∧ effect.on txid table rows = rows := by
  cases effect with
  | writes data pools stages => exact .inr ⟨by simp, if_neg hwrites⟩
  | purges purged =>
      by_cases heq : purged = asI32 height
      · refine .inl ⟨by rw [heq], List.filter_eq_nil_iff.mpr fun row hrow => ?_⟩
        simp [hheight row hrow, heq]
      · refine .inr ⟨by simpa using heq, List.filter_eq_self.mpr fun row hrow => ?_⟩
        simpa [hheight row hrow] using Ne.symm heq
  | nothing => exact .inr ⟨by simp, rfl⟩

end TableEffect

/-- The stages that an attempt at a height has committed. -/
def effectOf (attempt : Attempt) (height : ℕ) (committed : List Stage) : TableEffect :=
  match fetchBlock attempt.rpc attempt.schedule height with
  | .error _ => .nothing
  | .ok data => .writes data attempt.pools committed

namespace Store

def perform (store : Store) : IndexCommand → Store
  | .processBlock attempt height emitPublish =>
      { store with db := (processBlockSequential attempt height emitPublish store.db).db }
  | .swaps attempt height => { store with db := (runSwaps attempt height store.db).db }
  | .purgeBlock height interrupted =>
      if interrupted then store else (store.purgeBlock height).getD store
  | .poolStates heights => { store with poolState := store.poolState ++ heights }

def effect (store : Store) : IndexCommand → TableEffect
  | .processBlock attempt height emitPublish =>
      effectOf attempt height (processBlockSequential attempt height emitPublish store.db).committed
  | .swaps attempt height => effectOf attempt height (runSwaps attempt height store.db).committed
  | .purgeBlock height interrupted =>
      if interrupted then .nothing
      else if (store.purgeBlock height).isSome then .purges height
      else .nothing
  | .poolStates _ => .nothing

def performAll (store : Store) (commands : List IndexCommand) : Store :=
  commands.foldl perform store

/-- The effects of some commands, one after another. -/
def effects (store : Store) : List IndexCommand → List TableEffect
  | [] => []
  | command :: rest => store.effect command :: (store.perform command).effects rest

/-- The rows of a transaction. -/
def cell (store : Store) (txid : String) (table : Table) : List table.Row :=
  rowsOf table.transactionId (store.db.rows table) txid

/-! ## One command -/

section Perform

variable {store : Store} {attempt : Attempt} {height : ℕ}

theorem cell_after
    (data : BlockData)
    (pools : DerivedTable → List PoolRow)
    (stages : List Stage)
    (txid : String)
    (table : Table) :
    cell { store with db := data.after pools stages store.db } txid table =
      (TableEffect.writes data pools stages).on txid table (store.cell txid table) :=
  rowsOf_after data pools store.db stages txid table

/-- An attempt of either kind puts the stages it has committed in the tables. -/
theorem db_of_processBlock
    (emitPublish : Bool) :
    let outcome := processBlockSequential attempt height emitPublish store.db
    (∃ message, fetchBlock attempt.rpc attempt.schedule height = .error message ∧
        outcome.db = store.db) ∨
      ∃ data, fetchBlock attempt.rpc attempt.schedule height = .ok data ∧
        outcome.db = data.after attempt.pools outcome.committed store.db := by
  cases hfetch : fetchBlock attempt.rpc attempt.schedule height with
  | error message => exact .inl ⟨message, rfl, by simp [processBlockSequential, hfetch]⟩
  | ok data =>
      refine .inr ⟨data, rfl, ?_⟩
      rw [processBlockSequential_of_fetch attempt emitPublish store.db hfetch]
      exact writeBlock_db attempt emitPublish store.db data

theorem db_of_swaps :
    let outcome := runSwaps attempt height store.db
    (∃ message, fetchBlock attempt.rpc attempt.schedule height = .error message ∧
        outcome.db = store.db) ∨
      ∃ data, fetchBlock attempt.rpc attempt.schedule height = .ok data ∧
        outcome.db = data.after attempt.pools outcome.committed store.db := by
  cases hfetch : fetchBlock attempt.rpc attempt.schedule height with
  | error message => exact .inl ⟨message, rfl, by simp [runSwaps, hfetch]⟩
  | ok data =>
      refine .inr ⟨data, rfl, ?_⟩
      simp only [runSwaps, hfetch]
      exact (writeSwaps_effect attempt store.db data).2.2

theorem cell_of_db
    {outcome : Outcome}
    (hdb : (∃ message, fetchBlock attempt.rpc attempt.schedule height = .error message ∧
        outcome.db = store.db) ∨
      ∃ data, fetchBlock attempt.rpc attempt.schedule height = .ok data ∧
        outcome.db = data.after attempt.pools outcome.committed store.db)
    (txid : String)
    (table : Table) :
    cell { store with db := outcome.db } txid table =
      (effectOf attempt height outcome.committed).on txid table (store.cell txid table) := by
  unfold effectOf
  rcases hdb with ⟨message, hfetch, hdb⟩ | ⟨data, hfetch, hdb⟩
  · simp only [hfetch, hdb]
    rfl
  · simp only [hfetch, hdb]
    exact cell_after data attempt.pools _ txid table

theorem cell_perform
    (command : IndexCommand)
    (txid : String)
    (table : Table) :
    (store.perform command).cell txid table =
      (store.effect command).on txid table (store.cell txid table) := by
  cases command with
  | processBlock attempt height emitPublish =>
      exact cell_of_db (db_of_processBlock emitPublish) txid table
  | swaps attempt height => exact cell_of_db db_of_swaps txid table
  | purgeBlock height interrupted =>
      cases interrupted with
      | true => rfl
      | false =>
          change cell ((store.purgeBlock height).getD store) txid table =
            (if (store.purgeBlock height).isSome then TableEffect.purges height
              else .nothing).on txid table (store.cell txid table)
          cases hpurge : store.purgeBlock height with
          | none => rfl
          | some purged =>
              change rowsOf _ (purged.db.rows table) txid = _
              rw [rows_of_purgeBlock hpurge, rowsOf_filter]
              rfl
  | poolStates heights => rfl

theorem coherent_of_db
    {outcome : Outcome}
    (hcoherent : store.Coherent)
    (hdb : (∃ message, fetchBlock attempt.rpc attempt.schedule height = .error message ∧
        outcome.db = store.db) ∨
      ∃ data, fetchBlock attempt.rpc attempt.schedule height = .ok data ∧
        outcome.db = data.after attempt.pools outcome.committed store.db) :
    Coherent { store with db := outcome.db } := by
  rcases hdb with ⟨_, _, hdb⟩ | ⟨data, _, hdb⟩
  · rw [hdb]
    exact hcoherent
  · rw [hdb]
    exact coherent_after data attempt.pools hcoherent _

theorem coherent_perform
    (hcoherent : store.Coherent)
    (command : IndexCommand) :
    (store.perform command).Coherent := by
  cases command with
  | processBlock attempt height emitPublish =>
      exact coherent_of_db hcoherent (db_of_processBlock emitPublish)
  | swaps attempt height => exact coherent_of_db hcoherent db_of_swaps
  | purgeBlock height interrupted => exact coherent_step hcoherent (.purgeBlock height interrupted)
  | poolStates heights => exact coherent_step hcoherent (.poolStates heights)

theorem coherent_performAll
    (hcoherent : store.Coherent)
    (commands : List IndexCommand) :
    (store.performAll commands).Coherent := by
  induction commands generalizing store with
  | nil => exact hcoherent
  | cons command rest ih => exact ih (coherent_perform hcoherent command)

end Perform

/-! ## The last write -/

theorem performAll_concat
    (store : Store)
    (commands : List IndexCommand)
    (command : IndexCommand) :
    store.performAll (commands ++ [command]) = (store.performAll commands).perform command := by
  rw [performAll, performAll, List.foldl_append]
  rfl

theorem effects_concat
    (store : Store)
    (commands : List IndexCommand)
    (command : IndexCommand) :
    store.effects (commands ++ [command]) =
      store.effects commands ++ [(store.performAll commands).effect command] := by
  induction commands generalizing store with
  | nil => rfl
  | cons first rest ih => exact congrArg (List.cons _) (ih (store.perform first))

/-- The rows of a transaction after any commands, failed ones and purges among them: what
the last write of the table has put there, if the height has not been purged since. -/
theorem cell_of_commands
    (commands : List IndexCommand)
    (txid : String)
    (table : Table) :
    (∀ effect ∈ empty.effects commands, ¬ effect.Writes txid table) ∧
        (empty.performAll commands).cell txid table = [] ∨
      ∃ earlier data pools stages later,
        empty.effects commands = earlier ++ .writes data pools stages :: later ∧
        txid ∈ data.txids ∧ table.stage ∈ stages ∧
        (∀ effect ∈ later, ¬ effect.Writes txid table) ∧
        (.purges (asI32 data.height) ∈ later → (empty.performAll commands).cell txid table = []) ∧
        (.purges (asI32 data.height) ∉ later →
          (empty.performAll commands).cell txid table =
            rowsOf table.transactionId (written table (data.batch pools table)) txid) := by
  induction commands using List.reverseRecOn with
  | nil => exact .inl ⟨fun _ heffect => absurd heffect List.not_mem_nil, rfl⟩
  | append_singleton commands command ih =>
      rw [effects_concat, performAll_concat, cell_perform]
      generalize (empty.performAll commands).effect command = effect
      generalize (empty.performAll commands).cell txid table = rows at ih
      by_cases hwrites : effect.Writes txid table
      · right
        cases effect with
        | writes data pools stages =>
            exact ⟨_, data, pools, stages, [], rfl, hwrites.1, hwrites.2,
              fun _ heffect => absurd heffect List.not_mem_nil,
              fun hpurge => absurd hpurge List.not_mem_nil, fun _ => if_pos hwrites⟩
        | purges height => exact hwrites.elim
        | nothing => exact hwrites.elim
      · rcases ih with ⟨hnone, rfl⟩ | ⟨earlier, data, pools, stages, later, heq, htxid, hstage,
          hlater, hpurged, hkept⟩
        · left
          refine ⟨?_, ?_⟩
          · intro effect' hmem
            rcases List.mem_append.mp hmem with hmem | hmem
            · exact hnone effect' hmem
            · rwa [List.mem_singleton.mp hmem]
          · cases effect with
            | writes data pools stages => exact if_neg hwrites
            | purges height => rfl
            | nothing => rfl
        · right
          have hheight : ∀ row ∈ rows, table.blockHeight row = data.height := by
            intro row hrow
            by_cases hmem : .purges (asI32 data.height) ∈ later
            · rw [hpurged hmem] at hrow
              exact absurd hrow List.not_mem_nil
            · rw [hkept hmem] at hrow
              exact written_blockHeight data pools table (List.mem_filter.mp hrow).1
          have hcases := TableEffect.on_cases hwrites hheight
          refine ⟨earlier, data, pools, stages, later ++ [effect], ?_, htxid, hstage, ?_, ?_, ?_⟩
          · rw [heq, List.append_assoc, List.cons_append]
          · intro effect' hmem
            rcases List.mem_append.mp hmem with hmem | hmem
            · exact hlater effect' hmem
            · rwa [List.mem_singleton.mp hmem]
          · intro hmem
            rcases hcases with ⟨_, hnil⟩ | ⟨hne, hsame⟩
            · exact hnil
            · rw [hsame]
              exact hpurged ((List.mem_append.mp hmem).resolve_right
                fun hlast => hne (List.mem_singleton.mp hlast).symm)
          · intro hmem
            rcases hcases with ⟨rfl, _⟩ | ⟨_, hsame⟩
            · exact absurd (List.mem_append_right _ (List.mem_singleton_self _)) hmem
            · rw [hsame]
              exact hkept fun hmem' => hmem (List.mem_append_left _ hmem')

/-! ## Purging and processing again -/

/-- Nothing is left of a height. -/
structure Cleared (height : ℤ) (store : Store) : Prop where
  rows : ∀ table, ∀ row ∈ store.db.rows table, asI32 (table.blockHeight row) ≠ height
  processedBlocks : ∀ row ∈ store.db.processedBlocks, asI32 row.blockHeight ≠ height

section Cleared

variable {height : ℤ} {store : Store}

theorem cleared_of_purgeBlock
    {purged : Store}
    (hpurge : store.purgeBlock height = some purged) :
    purged.Cleared height where
  rows := fun table row hrow => by
    rw [rows_of_purgeBlock hpurge] at hrow
    exact of_decide_eq_true (List.mem_filter.mp hrow).2
  processedBlocks := (others_of_purgeBlock hpurge).2.1

theorem processedBlocks_deleteRows
    (table : Table) :
    (store.deleteRows table height).db.processedBlocks = store.db.processedBlocks :=
  rfl

theorem processedBlocks_foldl_deleteRows
    (tables : List Table)
    (store : Store) :
    (tables.foldl (fun store table => store.deleteRows table height)
      store).db.processedBlocks = store.db.processedBlocks := by
  induction tables generalizing store with
  | nil => rfl
  | cons first rest ih => rw [List.foldl_cons, ih, processedBlocks_deleteRows]

theorem processedBlocks_deleteBlockMetadata :
    (store.deleteBlockMetadata height).db.processedBlocks =
      store.db.processedBlocks.filter fun row => asI32 row.blockHeight ≠ height :=
  rfl

theorem processedBlocks_of_purgeBlock
    {purged : Store}
    (hpurge : store.purgeBlock height = some purged) :
    purged.db.processedBlocks =
      store.db.processedBlocks.filter fun row => asI32 row.blockHeight ≠ height := by
  rw [eq_of_purgeBlock hpurge, processedBlocks_deleteBlockMetadata, processedBlocks_deleteRows]
  simp only [beforeTransactions, deleteClockIn, processedBlocks_foldl_deleteRows]

theorem Cleared.purgeBlock
    {purged : Store}
    {other : ℤ}
    (hcleared : store.Cleared height)
    (hpurge : store.purgeBlock other = some purged) :
    purged.Cleared height where
  rows := fun table row hrow => by
    rw [rows_of_purgeBlock hpurge] at hrow
    exact hcleared.rows table row (List.mem_filter.mp hrow).1
  processedBlocks := fun row hrow => by
    rw [processedBlocks_of_purgeBlock hpurge] at hrow
    exact hcleared.processedBlocks row (List.mem_filter.mp hrow).1

theorem Cleared.of_db
    {attempt : Attempt}
    {attempted : ℕ}
    {outcome : Outcome}
    (hcleared : store.Cleared height)
    (hother : asI32 attempted ≠ height)
    (hdb : (∃ message, fetchBlock attempt.rpc attempt.schedule attempted = .error message ∧
        outcome.db = store.db) ∨
      ∃ data, fetchBlock attempt.rpc attempt.schedule attempted = .ok data ∧
        outcome.db = data.after attempt.pools outcome.committed store.db) :
    Cleared height { store with db := outcome.db } := by
  rcases hdb with ⟨_, _, hdb⟩ | ⟨data, hfetch, hdb⟩
  · rw [hdb]
    exact hcleared
  · have hheight : data.height = attempted := (height_of_fetchBlock hfetch).1
    rw [← hheight] at hother
    constructor
    · intro table row hrow
      change row ∈ outcome.db.rows table at hrow
      rw [hdb, after_rows] at hrow
      split at hrow
      · rcases List.mem_append.mp hrow with hold | hnew
        · exact hcleared.rows table row (List.mem_filter.mp hold).1
        · rwa [written_blockHeight data attempt.pools table hnew]
      · exact hcleared.rows table row hrow
    · intro row hrow
      change row ∈ outcome.db.processedBlocks at hrow
      rw [hdb, after_processedBlocks] at hrow
      split at hrow
      · rcases List.mem_append.mp hrow with hold | hnew
        · exact hcleared.processedBlocks row (List.mem_filter.mp hold).1
        · rwa [List.mem_singleton.mp hnew]
      · exact hcleared.processedBlocks row hrow

theorem cleared_perform
    (hcleared : store.Cleared height)
    {command : IndexCommand}
    (hother : ¬ command.Indexes height) :
    (store.perform command).Cleared height := by
  cases command with
  | processBlock attempt attempted emitPublish =>
      exact hcleared.of_db hother (db_of_processBlock emitPublish)
  | swaps attempt attempted => exact hcleared.of_db hother db_of_swaps
  | purgeBlock other interrupted =>
      cases interrupted with
      | true => exact hcleared
      | false =>
          change Cleared height ((store.purgeBlock other).getD store)
          cases hpurge : store.purgeBlock other with
          | none => exact hcleared
          | some purged => exact hcleared.purgeBlock hpurge
  | poolStates heights => exact ⟨hcleared.rows, hcleared.processedBlocks⟩

theorem cleared_performAll
    (hcleared : store.Cleared height)
    {commands : List IndexCommand}
    (hothers : ∀ command ∈ commands, ¬ command.Indexes height) :
    (store.performAll commands).Cleared height := by
  induction commands generalizing store with
  | nil => exact hcleared
  | cons command rest ih =>
      obtain ⟨hcommand, hrest⟩ := List.forall_mem_cons.mp hothers
      exact ih (cleared_perform hcleared hcommand) hrest

theorem written_nil
    (table : Table) :
    written table [] = [] := by
  cases table <;> rfl

/-- In a store without rows of the height a successful attempt leaves there what it has
computed, and leaves the rows of other heights and other transactions alone. -/
theorem rebuilt_of_cleared
    {attempt : Attempt}
    {attempted : ℕ}
    {emitPublish : Bool}
    {data : BlockData}
    (hcleared : store.Cleared (asI32 attempted))
    (hfetch : fetchBlock attempt.rpc attempt.schedule attempted = .ok data)
    (hsuccess : (processBlockSequential attempt attempted emitPublish store.db).error = none) :
    let outcome := processBlockSequential attempt attempted emitPublish store.db
    (∀ table,
      ((outcome.db.rows table).filter fun row =>
          asI32 (table.blockHeight row) = asI32 attempted) =
        written table (outcome.batches table) ∧
      ((outcome.db.rows table).filter fun row =>
          asI32 (table.blockHeight row) ≠ asI32 attempted ∧
            table.transactionId row ∉ data.txids) =
        (store.db.rows table).filter fun row => table.transactionId row ∉ data.txids) ∧
      (outcome.db.processedBlocks.filter fun row => asI32 row.blockHeight = asI32 attempted) =
        [data.processedBlockRow] := by
  have hheight : data.height = attempted := (height_of_fetchBlock hfetch).1
  subst hheight
  have hmarked := marked_of_error_eq_none hsuccess
  simp only [processBlockSequential_of_fetch attempt emitPublish store.db hfetch]
    at hsuccess hmarked ⊢
  have hother : ∀ table, ∀ row ∈ store.db.rows table,
      asI32 (table.blockHeight row) ≠ asI32 data.height := hcleared.rows
  refine ⟨fun table => ?_, ?_⟩
  · rw [writeBlock_batches attempt emitPublish store.db data hsuccess, rows_writeBlock hsuccess]
    split
    next =>
      rw [List.filter_append, List.filter_append]
      constructor
      · rw [List.filter_eq_nil_iff.mpr, List.nil_append, List.filter_eq_self.mpr]
        · intro row hrow
          simp [written_blockHeight data attempt.pools table hrow]
        · intro row hrow
          simpa using hother table row (List.mem_filter.mp hrow).1
      · have hown : (written table (data.batch attempt.pools table)).filter (fun row =>
            asI32 (table.blockHeight row) ≠ asI32 data.height ∧
              table.transactionId row ∉ data.txids) = [] :=
          List.filter_eq_nil_iff.mpr fun row hrow => by
            simp [written_mem_txids data attempt.pools table hrow]
        rw [hown, List.append_nil]
        refine List.filter_eq_self.mpr fun row hrow => ?_
        obtain ⟨hmem, hforeign⟩ := List.mem_filter.mp hrow
        simpa [hother table row hmem] using hforeign
    next hnone =>
      rw [batch_eq_nil_of_not_written hnone]
      constructor
      · rw [written_nil]
        exact List.filter_eq_nil_iff.mpr fun row hrow => by simpa using hother table row hrow
      · refine List.filter_congr fun row hrow => ?_
        simp [hother table row hrow]
  · rw [writeBlock_db, after_processedBlocks, if_pos hmarked, List.filter_append,
      List.filter_eq_nil_iff.mpr fun row hrow => by
        simpa using hcleared.processedBlocks row (List.mem_filter.mp hrow).1]
    simp [BlockData.processedBlockRow]

end Cleared

/-- Whatever was done to the tables before, a purge of a height goes through, and the next
successful attempt at it, however late, leaves exactly its own rows there. -/
theorem rebuilt_of_purge
    (commands : List IndexCommand)
    {attempted : ℕ} :
    ∃ purged, (empty.performAll commands).purgeBlock (asI32 attempted) = some purged ∧
      ∀ later attempt emitPublish data,
        (∀ command ∈ later, ¬ IndexCommand.Indexes (asI32 attempted) command) →
        fetchBlock attempt.rpc attempt.schedule attempted = .ok data →
        let before := (purged.performAll later).db
        let outcome := processBlockSequential attempt attempted emitPublish before
        outcome.error = none →
        (∀ table,
          ((outcome.db.rows table).filter fun row =>
              asI32 (table.blockHeight row) = asI32 attempted) =
            written table (outcome.batches table) ∧
          ((outcome.db.rows table).filter fun row =>
              asI32 (table.blockHeight row) ≠ asI32 attempted ∧
                table.transactionId row ∉ data.txids) =
            (before.rows table).filter fun row => table.transactionId row ∉ data.txids) ∧
          (outcome.db.processedBlocks.filter fun row =>
              asI32 row.blockHeight = asI32 attempted) = [data.processedBlockRow] := by
  have hpurge := purgeBlock_of_coherent (asI32 attempted)
    (coherent_performAll coherent_empty commands)
  refine ⟨_, hpurge, fun later attempt emitPublish data hlater hfetch hsuccess => ?_⟩
  have hcleared := cleared_performAll (cleared_of_purgeBlock hpurge) hlater
  exact rebuilt_of_cleared hcleared hfetch hsuccess

/-- The mint that a second attempt alone leaves in place is gone after a purge. -/
theorem mintedBlock_rebuilt :
    ∃ purged data,
      (empty.performAll [.processBlock mintingAttempt 5 false]).purgeBlock (asI32 (5 : ℕ)) =
        some purged ∧
      fetchBlock idleAttempt.rpc idleAttempt.schedule 5 = .ok data ∧
      ∀ table, ((processBlockSequential idleAttempt 5 false purged.db).db.rows table).filter
          (fun row => asI32 (table.blockHeight row) = asI32 (5 : ℕ)) =
        written table ((processBlockSequential idleAttempt 5 false purged.db).batches table) := by
  obtain ⟨purged, hpurge, hrebuilt⟩ : ∃ purged,
      (empty.performAll [.processBlock mintingAttempt 5 false]).purgeBlock (asI32 (5 : ℕ)) =
        some purged ∧ _ :=
    rebuilt_of_purge [.processBlock mintingAttempt 5 false]
  obtain ⟨data, hfetch⟩ := exists_data_of_error_eq_none _ _ _ idleAttempt_succeeds
  have hsuccess : (((empty.performAll [.processBlock mintingAttempt 5 false]).purgeBlock
      (asI32 (5 : ℕ))).map fun purged =>
        (processBlockSequential idleAttempt 5 false purged.db).error) = some none := by
    decide +kernel
  rw [hpurge] at hsuccess
  exact ⟨purged, data, hpurge, hfetch, fun table =>
    ((hrebuilt [] idleAttempt false data (fun _ hlater => absurd hlater List.not_mem_nil) hfetch
      (Option.some.inj hsuccess)).1 table).1⟩

end Store

end AlkanesIndexer
