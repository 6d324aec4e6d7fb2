import AlkanesIndexer.CleanReindex
import AlkanesIndexer.ConcurrentReindex
import AlkanesIndexer.PoolRefresh
import AlkanesIndexer.TipFollowing

/-!
# Which pools the decoders know

A mint or a burn is indexed only if its pool is in `Pool` when the block is
processed.  A refresh precedes every processing, but it may fail, and it may pass
over pools.  The rows of a recorded block are therefore those of the events whose
pool has been found by then.
-/

namespace AlkanesIndexer

open Runs

/-! ## One row for each event of a known pool -/

def liquidityKey (row : LiquidityRow) : String × AlkaneId := (row.transactionId, row.pool)

/-- The candidate events of a block which name one of the given pools. -/
def knownInvokes
    (isCandidate : JsonValue → Bool)
    (pools : List PoolRow)
    (inputs : List TxInput) : List (String × AlkaneId) :=
  inputs.flatMap fun input => input.events.filterMap fun event =>
    if isCandidate event && namesPool (poolIdOf event) &&
        poolIdOf event ∈ pools.map PoolRow.pool then
      some (input.transactionId, poolIdOf event)
    else none

theorem rowsOfInput_keys_perm
    {decoder : LiquidityDecoder}
    {pools : List PoolRow}
    {decoded : DecodedByTxVout}
    {height : ℕ}
    {inputs : List TxInput}
    {input : TxInput}
    (hinput : input ∈ inputs) :
    ((decoder.rowsOfInput (blockTokenMap decoder.isCandidate pools inputs) decoded height
        input).map liquidityKey).Perm
      (input.events.filterMap fun event =>
        if decoder.isCandidate event && namesPool (poolIdOf event) &&
            poolIdOf event ∈ pools.map PoolRow.pool then
          some (input.transactionId, poolIdOf event)
        else none) := by
  unfold LiquidityDecoder.rowsOfInput
  rw [List.map_filterMap]
  apply ordered_filterMap_perm
  intro placed i hplaced
  have hat : (placed, i) ∈ (orderedEvents input.events).zipIdx :=
    List.mem_zipIdx_iff_getElem?.mpr hplaced
  have hmem : placed.1 ∈ input.events := mem_of_mem_ordered hat
  unfold LiquidityDecoder.liquidityRowAt
  by_cases hcandidate : decoder.isCandidate placed.1 = true ∧ namesPool (poolIdOf placed.1) = true
  · obtain ⟨hcandidate, hnames⟩ := hcandidate
    rw [blockTokenMap_of_candidate pools hinput hmem hcandidate hnames]
    simp only [hcandidate, hnames, Bool.and_true, Bool.true_and, if_true, decide_eq_true_eq]
    cases htokens : poolTokens pools (poolIdOf placed.1) with
    | none =>
        rw [if_neg]
        · rfl
        · rw [← poolTokens_isSome_iff, htokens]
          simp
    | some tokens =>
        rw [if_pos]
        · rfl
        · rw [← poolTokens_isSome_iff, htokens]
          rfl
  · have hnone : (decoder.isCandidate placed.1 && namesPool (poolIdOf placed.1)) = false := by
      simpa using hcandidate
    simp [hnone]

/-- The rows of a block are those of its events of known pools, one for each. -/
theorem rows_keys_perm
    (decoder : LiquidityDecoder)
    (pools : List PoolRow)
    (decoded : DecodedByTxVout)
    (height : ℕ)
    (inputs : List TxInput) :
    ((decoder.rows pools decoded height inputs).map liquidityKey).Perm
      (knownInvokes decoder.isCandidate pools inputs) := by
  unfold LiquidityDecoder.rows knownInvokes
  rw [List.map_flatMap]
  apply List.Perm.flatMap_left
  intro input hinput
  exact rowsOfInput_keys_perm hinput

def Outcome.rowsWritten
    (outcome : Outcome)
    (table : DerivedTable)
    (txids : List String) : List table.Row :=
  if .derived table ∈ outcome.committed then outcome.db.rowsOf (.derived table) txids else []

/-- A processing that records its block has put the whole batch of every derived
table into it. -/
theorem rowsWritten_of_marked
    {attempt : Attempt}
    {emitPublish : Bool}
    {db : Db}
    {data : BlockData}
    (hmarked : .processedBlock ∈ (writeBlock attempt emitPublish db data).committed)
    (table : DerivedTable) :
    (writeBlock attempt emitPublish db data).rowsWritten table data.txids =
      data.batch attempt.pools (.derived table) := by
  have hcommitted := committed_of_processedBlock_mem attempt emitPublish db data hmarked
  unfold Outcome.rowsWritten
  by_cases hmem : .derived table ∈ (writeBlock attempt emitPublish db data).committed
  · have hbatch : (data.batch attempt.pools (.derived table)).filter (fun row =>
        decide (table.transactionId row ∈ data.txids)) =
          data.batch attempt.pools (.derived table) := by
      rw [List.filter_eq_self]
      intro row hrow
      exact decide_eq_true (data.mem_txids_of_mem_batch attempt.pools hrow).1
    have hother := filter_otherRows_eq_nil data db (.derived table)
    have hstage : (Table.derived table).stage ∈
        (writeBlock attempt emitPublish db data).committed := hmem
    rw [if_pos hmem, writeBlock_db, Db.rowsOf, after_rows, if_pos hstage, List.filter_append,
      hother, List.nil_append]
    exact hbatch
  · rw [if_neg hmem]
    rw [hcommitted, List.mem_filter, not_and] at hmem
    by_cases hstage : .derived table ∈ data.stages
    · -- nothing was computed for the table
      have hskipped : data.skipped attempt.pools (.derived table) = true := by
        simpa using hmem hstage
      simp only [BlockData.skipped, Bool.and_eq_true, List.isEmpty_iff] at hskipped
      exact hskipped.2.symm
    · have hreturn : data.txs.any txHasOpReturn = false := by
        by_contra htrue
        exact hstage (stage_mem_stages data (by simpa using htrue) (.derived table))
      exact (batch_eq_nil attempt data (data.results_nil hreturn) (.derived table)).symm

def OneRowEach (rows : List LiquidityRow) (invokes : List (String × AlkaneId)) : Prop :=
  (rows.map liquidityKey).Perm invokes

/-! ## The indexer with its pools -/

/-- What has come of the refreshes: the table, the ids that successful ones have
listed and got the details of, and how many have ended. -/
structure Knowledge where
  pools : List PoolRow
  listed : List AlkaneId
  refreshes : ℕ

/-- A processing that has ended, with what was known when it began and what the
factory lists when it ends. -/
structure Finished where
  session : Session
  height : ℕ
  attempt : Attempt
  before : Knowledge
  factoryPools : List AlkaneId
  outcome : Outcome

structure Indexer where
  loops : Loops
  known : Knowledge
  factoryPools : List AlkaneId
  begun : Session → Option Knowledge
  finished : List Finished

inductive IndexerAction where
  | factoryChanges (pools : List AlkaneId)
  | pollerTip (answer : Option ℕ)
  | pollerRefreshed (answers : PoolAnswers)
  | coordinatorTip (answer : Option ℕ)
  | coordinatorRead (ok : Bool)
  | coordinatorSaved (result : SaveResult)
  | begins (session : Session)
  | processed (session : Session) (attempt : Attempt) (db : Db)

/-- The height a session is processing. -/
def Loops.current (loops : Loops) : Session → Option ℕ
  | .poller => loops.poller.current
  | .coordinator => loops.coordinator.current

def Session.processed : Session → Bool → LoopAction
  | .poller => .pollerProcessed
  | .coordinator => .coordinatorProcessed

namespace Knowledge

variable (factory : AlkaneId) (answers : PoolAnswers)

def refreshed (known : Knowledge) : Knowledge :=
  let refresh := fetchAndUpsertPools factory answers known.pools
  { pools := refresh.1
    listed := if refresh.2.isNone then known.listed ++ answers.detailed else known.listed
    refreshes := known.refreshes + 1 }

end Knowledge

namespace Indexer

def start
    (progress : Option ℕ)
    (pools : List PoolRow)
    (factoryPools : List AlkaneId) :
    Indexer where
  loops := { Loops.start with progress := progress }
  known := ⟨pools, [], 0⟩
  factoryPools := factoryPools
  begun := fun _ => none
  finished := []

/-- A list that was answered is the factory's. -/
def Lists (indexer : Indexer) (answers : PoolAnswers) : Prop :=
  match answers.allPools with
  | .ok ids => ids = indexer.factoryPools
  | .error _ => True

instance (indexer : Indexer) (answers : PoolAnswers) : Decidable (indexer.Lists answers) :=
  match h : answers.allPools with
  | .ok ids => decidable_of_iff (ids = indexer.factoryPools) (by simp only [Lists, h])
  | .error _ => isTrue (by simp only [Lists, h])

/-- Each reader of `Pool` finds it as it is at some time between the beginning and
the end of the processing. -/
def ReadsPools (indexer : Indexer) (before : Knowledge) (attempt : Attempt) : Prop :=
  ∀ table ∈ DerivedTable.all,
    before.pools ⊆ attempt.pools table ∧ attempt.pools table ⊆ indexer.known.pools

instance (indexer : Indexer) (before : Knowledge) (attempt : Attempt) :
    Decidable (indexer.ReadsPools before attempt) :=
  inferInstanceAs (Decidable (∀ table ∈ DerivedTable.all, _ ∧ _))

def advance
    (startHeight : Option ℕ)
    (indexer : Indexer)
    (action : LoopAction) : Option Indexer :=
  (indexer.loops.step startHeight action).map fun loops => { indexer with loops := loops }

/-- The database a processing finds is arbitrary: the other session may have
written to it. -/
def step (startHeight : Option ℕ) (factory : AlkaneId) (indexer : Indexer) :
    IndexerAction → Option Indexer
  | .factoryChanges pools => some { indexer with factoryPools := pools }
  | .pollerTip answer => indexer.advance startHeight (.pollerTip answer)
  | .pollerRefreshed answers =>
      if indexer.Lists answers then
        (indexer.advance startHeight .pollerRefreshed).map fun next =>
          { next with known := indexer.known.refreshed factory answers }
      else none
  | .coordinatorTip answer => indexer.advance startHeight (.coordinatorTip answer)
  | .coordinatorRead ok => indexer.advance startHeight (.coordinatorRead ok)
  | .coordinatorSaved result => indexer.advance startHeight (.coordinatorSaved result)
  | .begins session =>
      if (indexer.loops.current session).isSome ∧ indexer.begun session = none then
        some { indexer with begun := Function.update indexer.begun session (some indexer.known) }
      else none
  | .processed session attempt db =>
      (indexer.loops.current session).bind fun height =>
        (indexer.begun session).bind fun before =>
          if indexer.ReadsPools before attempt then
            let outcome :=
              processBlockSequential attempt height (decide (session = .poller)) db
            (indexer.advance startHeight (session.processed outcome.error.isNone)).map fun next =>
              { next with
                begun := Function.update indexer.begun session none
                finished := indexer.finished ++
                  [⟨session, height, attempt, before, indexer.factoryPools, outcome⟩] }
          else none


def run
    (startHeight : Option ℕ)
    (factory : AlkaneId)
    (indexer : Indexer)
    (actions : List IndexerAction) : Option Indexer :=
  Runs.run (step startHeight factory) indexer actions

end Indexer

/-! ## What is known over a run -/

/-- The poller has passed a refresh. -/
def Loops.PastRefresh (loops : Loops) : Prop :=
  loops.poller.lastHeight ≠ none ∨ loops.poller.current ≠ none ∨
    loops.poller.signalled = true ∨ loops.coordinator ≠ .waiting

theorem pastRefresh_of_current
    {loops : Loops}
    {session : Session}
    (hcurrent : (loops.current session).isSome = true) :
    loops.PastRefresh := by
  cases session with
  | poller =>
      right
      left
      intro hnone
      simp [Loops.current, hnone] at hcurrent
  | coordinator =>
      right
      right
      right
      intro hwaiting
      simp [Loops.current, hwaiting, CoordinatorPhase.current] at hcurrent

theorem pastRefresh_step
    {startHeight : Option ℕ}
    {loops loops' : Loops}
    {action : LoopAction}
    (hstep : loops.step startHeight action = some loops')
    (hpast : loops'.PastRefresh) :
    loops.PastRefresh ∨ action = .pollerRefreshed := by
  cases steps_of_step hstep with
  | pollerTip answer poller' htip =>
      left
      obtain ⟨hwaiting, ⟨_, rfl⟩ | ⟨height, _, hcases⟩⟩ := tip_cases htip
      · exact hpast
      · rcases hcases with ⟨_, rfl⟩ | ⟨prev, hprev, _⟩
        · rcases hpast with hlast | hcurrent | hsignalled | hcoordinator
          · exact Or.inl hlast
          · exact absurd rfl hcurrent
          · exact Or.inr (Or.inr (Or.inl hsignalled))
          · exact Or.inr (Or.inr (Or.inr hcoordinator))
        · left
          simp [hprev]
  | pollerRefreshed => exact Or.inr rfl
  | pollerProcessed ok height poller' hcurrent =>
      left
      right
      left
      simp [hcurrent]
  | coordinatorTip answer phase' hsignalled =>
      left
      exact Or.inr (Or.inr (Or.inl (Bool.and_eq_true_iff.mp hsignalled).2))
  | coordinatorRead ok start phase' _ hread =>
      left
      obtain ⟨tip, hphase, _⟩ := read_cases hread
      right
      right
      right
      simp [hphase]
  | coordinatorProcessed ok height phase' _ hprocessed =>
      left
      obtain ⟨height, tip, hphase, _⟩ := coordinatorProcessed_cases hprocessed
      right
      right
      right
      simp [hphase]
  | coordinatorSaved result saved hsaved =>
      left
      obtain ⟨height, tip, hphase, _⟩ := saved_cases hsaved
      right
      right
      right
      simp [hphase]

def Knowledge.Sound (known : Knowledge) : Prop :=
  known.listed ⊆ known.pools.map PoolRow.pool

theorem sound_refreshed
    (factory : AlkaneId)
    (answers : PoolAnswers)
    {known : Knowledge}
    (hsound : known.Sound) :
    (known.refreshed factory answers).Sound := by
  have hgrows : known.pools.map PoolRow.pool ⊆
      (known.refreshed factory answers).pools.map PoolRow.pool :=
    (prefix_fetchAndUpsertPools.map PoolRow.pool).subset
  intro id hid
  unfold Knowledge.refreshed at hid
  dsimp only at hid
  split at hid
  · next herror =>
    rcases List.mem_append.mp hid with hold | hnew
    · exact hgrows (hsound hold)
    · exact detailed_subset_of_refresh (Option.isNone_iff_eq_none.mp herror) hnew
  · exact hgrows (hsound hid)

/-- A processing began after a refresh, found what was in the table when it began,
and did what an attempt does. -/
structure Finished.Sound (finished : Finished) : Prop where
  before : finished.before.Sound
  refreshed : 0 < finished.before.refreshes
  reads : ∀ table, finished.before.pools ⊆ finished.attempt.pools table
  ran : ∃ emitPublish db, finished.outcome =
    processBlockSequential finished.attempt finished.height emitPublish db

structure Indexer.Sound (indexer : Indexer) : Prop where
  known : indexer.known.Sound
  past : indexer.loops.PastRefresh → 0 < indexer.known.refreshes
  begun : ∀ session before, indexer.begun session = some before →
    before.Sound ∧ 0 < before.refreshes
  finished : ∀ finished ∈ indexer.finished, finished.Sound

namespace Indexer

variable {startHeight : Option ℕ} {factory : AlkaneId} {indexer indexer' : Indexer}

theorem sound_start
    (progress : Option ℕ)
    (pools : List PoolRow)
    (factoryPools : List AlkaneId) :
    (start progress pools factoryPools).Sound where
  known := List.nil_subset _
  past := by simp [start, Loops.PastRefresh, Loops.start, Poller.start, Poller.current]
  begun := by simp [start]
  finished := by simp [start]

theorem eq_of_advance
    {action : LoopAction}
    (hadvance : indexer.advance startHeight action = some indexer') :
    ∃ loops, indexer.loops.step startHeight action = some loops ∧
      indexer' = { indexer with loops := loops } := by
  simp only [advance, Option.map_eq_some_iff] at hadvance
  obtain ⟨loops, hloops, rfl⟩ := hadvance
  exact ⟨loops, hloops, rfl⟩

theorem sound_advance
    {action : LoopAction}
    (hsound : indexer.Sound)
    (hnot : action ≠ .pollerRefreshed)
    (hadvance : indexer.advance startHeight action = some indexer') :
    indexer'.Sound := by
  obtain ⟨loops, hloops, rfl⟩ := eq_of_advance hadvance
  refine ⟨hsound.known, fun hpast => ?_, hsound.begun, hsound.finished⟩
  rcases pastRefresh_step hloops hpast with hbefore | hrefreshed
  · exact hsound.past hbefore
  · exact absurd hrefreshed hnot

theorem sound_step
    {action : IndexerAction}
    (hsound : indexer.Sound)
    (hstep : indexer.step startHeight factory action = some indexer') :
    indexer'.Sound := by
  cases action with
  | factoryChanges pools =>
      cases hstep
      exact ⟨hsound.known, hsound.past, hsound.begun, hsound.finished⟩
  | pollerTip answer => exact sound_advance hsound (by simp) hstep
  | coordinatorTip answer => exact sound_advance hsound (by simp) hstep
  | coordinatorRead ok => exact sound_advance hsound (by simp) hstep
  | coordinatorSaved result => exact sound_advance hsound (by simp) hstep
  | pollerRefreshed answers =>
      simp only [step, Option.ite_none_right_eq_some, Option.map_eq_some_iff] at hstep
      obtain ⟨_, next, hadvance, rfl⟩ := hstep
      obtain ⟨loops, _, rfl⟩ := eq_of_advance hadvance
      refine ⟨sound_refreshed factory answers hsound.known, fun _ => ?_, hsound.begun,
        hsound.finished⟩
      exact Nat.succ_pos _
  | begins session =>
      simp only [step, Option.ite_none_right_eq_some, Option.some.injEq] at hstep
      obtain ⟨⟨hcurrent, _⟩, rfl⟩ := hstep
      refine ⟨hsound.known, hsound.past, ?_, hsound.finished⟩
      intro other before hbegun
      by_cases hsame : other = session
      · subst hsame
        simp only [Function.update_self, Option.some.injEq] at hbegun
        rw [← hbegun]
        exact ⟨hsound.known, hsound.past (pastRefresh_of_current hcurrent)⟩
      · simp only [Function.update_of_ne hsame] at hbegun
        exact hsound.begun other before hbegun
  | processed session attempt db =>
      simp only [step, Option.bind_eq_some_iff, Option.ite_none_right_eq_some,
        Option.map_eq_some_iff] at hstep
      obtain ⟨height, hcurrent, before, hbegun, hreads, next, hadvance, rfl⟩ := hstep
      have hnext := sound_advance hsound (by cases session <;> simp [Session.processed]) hadvance
      obtain ⟨loops, _, rfl⟩ := eq_of_advance hadvance
      obtain ⟨hbefore, hrefreshes⟩ := hsound.begun session before hbegun
      refine ⟨hnext.known, hnext.past, ?_, ?_⟩
      · intro other before' hother
        by_cases hsame : other = session
        · subst hsame
          simp at hother
        · simp only [Function.update_of_ne hsame] at hother
          exact hsound.begun other before' hother
      · intro finished hfinished
        rcases List.mem_append.mp hfinished with hold | hnew
        · exact hsound.finished finished hold
        · rw [List.mem_singleton.mp hnew]
          exact ⟨hbefore, hrefreshes, fun table => (hreads table table.mem_all).1, _, _, rfl⟩

theorem sound_run
    {actions : List IndexerAction}
    (hsound : indexer.Sound)
    (hrun : run startHeight factory indexer actions = some indexer') :
    indexer'.Sound :=
  invariant_of_run (fun _ _ _ => sound_step) hsound hrun

end Indexer

/-- A processing that records its block has written one row for every mint and
every burn of a pool it found in `Pool`.  It began after a refresh had ended, and
found every pool which a successful refresh before it had listed with its
details. -/
theorem known_pools_have_rows
    {startHeight progress : Option ℕ}
    {factory : AlkaneId}
    {pools : List PoolRow}
    {factoryPools : List AlkaneId}
    {actions : List IndexerAction}
    {indexer : Indexer}
    (hrun : Indexer.run startHeight factory (.start progress pools factoryPools) actions =
      some indexer)
    {finished : Finished}
    (hfinished : finished ∈ indexer.finished)
    (hrecorded : .processedBlock ∈ finished.outcome.committed) :
    ∃ data, fetchBlock finished.attempt.rpc finished.attempt.schedule finished.height =
        .ok data ∧
      OneRowEach (finished.outcome.rowsWritten .poolMint data.txids)
        (knownInvokes isDelegateInvokeMint (finished.attempt.pools .poolMint) data.inputs) ∧
      OneRowEach (finished.outcome.rowsWritten .poolBurn data.txids)
        (knownInvokes isDelegateInvokeBurn (finished.attempt.pools .poolBurn) data.inputs) ∧
      0 < finished.before.refreshes ∧
      ∀ table, finished.before.listed ⊆ (finished.attempt.pools table).map PoolRow.pool := by
  have hsound := Indexer.sound_run (Indexer.sound_start progress pools factoryPools) hrun
  obtain ⟨hbefore, hrefreshed, hreads, emitPublish, db, hran⟩ :=
    hsound.finished finished hfinished
  rw [hran] at hrecorded
  cases hfetch : fetchBlock finished.attempt.rpc finished.attempt.schedule finished.height with
  | error message => simp [processBlockSequential, hfetch] at hrecorded
  | ok data =>
      rw [processBlockSequential_of_fetch _ _ _ hfetch] at hrecorded hran
      refine ⟨data, rfl, ?_, ?_, hrefreshed, fun table => ?_⟩
      · rw [OneRowEach, hran, rowsWritten_of_marked hrecorded .poolMint]
        exact rows_keys_perm mintDecoder _ _ _ _
      · rw [OneRowEach, hran, rowsWritten_of_marked hrecorded .poolBurn]
        exact rows_keys_perm burnDecoder _ _ _ _
      · intro id hid
        exact List.map_subset PoolRow.pool (hreads table) (hbefore hid)

/-! ## A refresh that fails -/

/-- The factory lists one pool, and the block at the first tip calls its mint. -/
def minting (answers : PoolAnswers) (pools : List PoolRow) : List IndexerAction :=
  [.pollerTip (some 5), .pollerRefreshed answers, .begins .poller,
    .processed .poller { mintingAttempt with pools := fun _ => pools } .empty]

def mintingIndexer : Indexer := .start none [] [("2", "10")]

def timedOut : PoolAnswers where
  allPools := .error "timeout"
  poolDetails := fun _ => .error "timeout"
  picks := []
  saves := .saved

def served : PoolAnswers where
  allPools := .ok [("2", "10")]
  poolDetails := fun _ => .ok ⟨("2", "0"), ("32", "0"), "DIESEL / frBTC"⟩
  picks := []
  saves := .saved

def mintingFinished (pools : List PoolRow) (known : Knowledge) : Finished where
  session := .poller
  height := 5
  attempt := { mintingAttempt with pools := fun _ => pools }
  before := known
  factoryPools := [("2", "10")]
  outcome := processBlockSequential { mintingAttempt with pools := fun _ => pools } 5 true .empty

theorem mint_of_mintingData :
    ∃ input ∈ mintingData.inputs, ∃ event ∈ input.events, isDelegateInvokeMint event = true ∧
      namesPool (poolIdOf event) = true ∧ poolIdOf event = ("2", "10") := by
  decide

set_option maxRecDepth 4000 in
/-- The block is recorded without a row for the mint of a pool which the factory
lists. -/
theorem timedOut_mint_lost :
    ∃ indexer finished data,
      Indexer.run none ("4", "1") mintingIndexer (minting timedOut []) = some indexer ∧
      finished ∈ indexer.finished ∧ .processedBlock ∈ finished.outcome.committed ∧
      fetchBlock finished.attempt.rpc finished.attempt.schedule finished.height = .ok data ∧
      (∃ input ∈ data.inputs, ∃ event ∈ input.events, isDelegateInvokeMint event = true ∧
        namesPool (poolIdOf event) = true ∧ poolIdOf event ∈ finished.factoryPools) ∧
      finished.outcome.db.rows (.derived .poolMint) = [] := by
  refine ⟨_, mintingFinished [] ⟨[], [], 1⟩, mintingData, rfl, List.mem_singleton_self _,
    by decide, mintingAttempt_fetches, ?_, by decide⟩
  obtain ⟨input, hinput, event, hevent, hmint, hnames, hpool⟩ := mint_of_mintingData
  refine ⟨input, hinput, event, hevent, hmint, hnames, ?_⟩
  rw [hpool]
  decide

set_option maxRecDepth 4000 in
theorem served_mint_kept :
    ∃ indexer finished,
      Indexer.run none ("4", "1") mintingIndexer (minting served [mintedPool]) = some indexer ∧
      finished ∈ indexer.finished ∧
      OneRowEach (finished.outcome.rowsWritten .poolMint mintingData.txids)
        [("a1", ("2", "10"))] := by
  have hrun : ∃ indexer,
      Indexer.run none ("4", "1") mintingIndexer (minting served [mintedPool]) = some indexer ∧
        mintingFinished [mintedPool] ⟨[mintedPool], [("2", "10")], 1⟩ ∈ indexer.finished :=
    ⟨_, rfl, List.mem_singleton_self _⟩
  obtain ⟨indexer, hrun, hfinished⟩ := hrun
  obtain ⟨data, hfetch, hmints, _⟩ := known_pools_have_rows hrun hfinished (by decide)
  have hdata : data = mintingData := by
    have hsame := hfetch.symm.trans mintingAttempt_fetches
    exact Except.ok.inj hsame
  subst hdata
  refine ⟨indexer, _, hrun, hfinished, ?_⟩
  have hinvokes : knownInvokes isDelegateInvokeMint [mintedPool] mintingData.inputs =
      [("a1", ("2", "10"))] := by
    decide
  rw [← hinvokes]
  exact hmints

end AlkanesIndexer
