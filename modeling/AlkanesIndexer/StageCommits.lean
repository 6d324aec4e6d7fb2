import AlkanesIndexer.Commands
import AlkanesIndexer.CommutingRuns

/-!
# Stages that commute

Each stage of a block is a transaction of its own.  Stages of new blocks without common
transactions change places without a trace: the rows of the one have other keys than the
rows of the other, and neither takes a unique key that the other needs.
-/

namespace AlkanesIndexer

open KeyedRows Runs

/-- A call of `process_block_sequential`. -/
structure BlockCall where
  attempt : Attempt
  height : ℕ
  emitPublish : Bool

namespace BlockCall

def Fetches (call : BlockCall) (data : BlockData) : Prop :=
  fetchBlock call.attempt.rpc call.attempt.schedule call.height = .ok data

/-- Two blocks at different heights without a common transaction. -/
def Apart (first second : BlockCall) : Prop :=
  first.height ≠ second.height ∧
    ∀ data data', first.Fetches data → second.Fetches data' → data.txids.Disjoint data'.txids

theorem Apart.symm
    {first second : BlockCall}
    (hapart : first.Apart second) :
    second.Apart first :=
  ⟨hapart.1.symm, fun data data' hdata hdata' => (hapart.2 data' data hdata' hdata).symm⟩

end BlockCall

/-- A stage of a call. -/
abbrev StageCall := BlockCall × Stage

namespace StageCall

/-- The database behind a stage that succeeds. -/
def perform (db : Db) (event : StageCall) : Option Db :=
  match fetchBlock event.1.attempt.rpc event.1.attempt.schedule event.1.height with
  | .error _ => none
  | .ok data =>
      let result := runStage event.1.attempt data (.start db) event.2
      if result.2.isNone then some result.1.db else none

/-- The stage, unless it is left out. -/
def written (event : StageCall) (data : BlockData) : List Stage :=
  [event.2].filter fun stage => !data.skipped event.1.attempt.pools stage

open Classical in
/-- What the stage does if the protostones of its block are in the database. -/
noncomputable def commit (db : Db) (event : StageCall) : Option Db :=
  match fetchBlock event.1.attempt.rpc event.1.attempt.schedule event.1.height with
  | .error _ => none
  | .ok data =>
      if StageReady event.1.attempt data db event.2 then
        some (data.after event.1.attempt.pools (event.written data) db)
      else none

/-- Two stages of one block, or stages of two blocks that are apart. -/
def Compatible (first second : StageCall) : Prop :=
  first.1 = second.1 ∧ first.2 ≠ second.2 ∨ first.1.Apart second.1

/-- What the stage records is not on record. -/
structure New (db : Db) (event : StageCall) : Prop where
  creations : event.2 = .derived .poolCreation → ∀ data, event.1.Fetches data →
    ∀ row ∈ db.rows (.derived .poolCreation), PoolCreationRow.transactionId row ∉ data.txids
  marker : event.2 = .processedBlock →
    ∀ row ∈ db.processedBlocks, row.blockHeight ≠ event.1.height

def Independent (db : Db) (events : List StageCall) : Prop :=
  events.Pairwise Compatible ∧ ∀ event ∈ events, event.New db

end StageCall

/-- The same rows in another order. -/
structure SameRows (db db' : Db) : Prop where
  rows : ∀ table, (db.rows table).Perm (db'.rows table)
  processedBlocks : db.processedBlocks.Perm db'.processedBlocks

theorem SameRows.refl
    (db : Db) :
    SameRows db db :=
  ⟨fun _ => .rfl, .rfl⟩

theorem SameRows.symm
    {db db' : Db}
    (hsame : SameRows db db') :
    SameRows db' db :=
  ⟨fun table => (hsame.rows table).symm, hsame.processedBlocks.symm⟩

theorem SameRows.trans
    {first second third : Db}
    (hfirst : SameRows first second)
    (hsecond : SameRows second third) :
    SameRows first third :=
  ⟨fun table => (hfirst.rows table).trans (hsecond.rows table),
    hfirst.processedBlocks.trans hsecond.processedBlocks⟩

/-- The unique key that a stage needs: the pools it creates, or the hash of its block. -/
def KeyFree
    (data : BlockData)
    (pools : DerivedTable → List PoolRow)
    (db : Db) : Stage → Prop
  | .derived .poolCreation =>
      ∀ row ∈ data.batch pools (.derived .poolCreation),
        ∀ other ∈ db.otherRows (.derived .poolCreation) data.txids,
          PoolCreationRow.pool other ≠ PoolCreationRow.pool row
  | .processedBlock => data.HashFree db
  | _ => True

/-! ## The keys of a stage -/

section Keys

variable
  {attempt : Attempt}
  {data : BlockData}
  {pools : DerivedTable → List PoolRow}
  {db db' : Db}
  {stage : Stage}

theorem keyFree_of_ready
    (hready : StageReady attempt data db stage) :
    KeyFree data attempt.pools db stage := by
  cases stage with
  | raw => trivial
  | processedBlock => exact hready.2
  | derived table =>
      cases table with
      | poolCreation =>
          intro row hrow other hother heq
          rcases hready.2 with hskipped | ⟨_, _, _, hfree⟩
          · have hnil : data.batch attempt.pools (.derived .poolCreation) = [] :=
              batch_of_skipped (.derived .poolCreation) hskipped
            rw [hnil] at hrow
            exact List.not_mem_nil hrow
          · exact hfree row hrow (List.mem_map.mpr ⟨other, hother, heq⟩)
      | poolSwap => trivial
      | poolMint => trivial
      | poolBurn => trivial
      | subfrostWrap => trivial
      | subfrostUnwrap => trivial

/-- The rest of what a stage needs does not depend on the database. -/
theorem ready_of_keyFree
    (hready : StageReady attempt data db stage)
    (hfree : KeyFree data attempt.pools db' stage) :
    StageReady attempt data db' stage := by
  cases stage with
  | raw => exact hready
  | processedBlock => exact ⟨hready.1, hfree⟩
  | derived table =>
      refine ⟨hready.1, hready.2.imp_right fun hinsertable => ⟨hinsertable.1, ?_⟩⟩
      cases table with
      | poolCreation =>
          obtain ⟨_, hknown, hnodup, _⟩ := hinsertable
          refine ⟨hknown, hnodup, fun row hrow hmem => ?_⟩
          obtain ⟨other, hother, heq⟩ := List.mem_map.mp hmem
          exact hfree row hrow other hother heq
      | poolSwap => trivial
      | poolMint => trivial
      | poolBurn => trivial
      | subfrostWrap => trivial
      | subfrostUnwrap => trivial

theorem KeyFree.mono
    (hfree : KeyFree data pools db stage)
    (hrows : ∀ row ∈ db'.rows (.derived .poolCreation), row ∈ db.rows (.derived .poolCreation))
    (hmarkers : ∀ row ∈ db'.processedBlocks, row ∈ db.processedBlocks) :
    KeyFree data pools db' stage := by
  cases stage with
  | raw => trivial
  | processedBlock =>
      intro hmem
      obtain ⟨marker, hmarker, heq⟩ := List.mem_map.mp hmem
      obtain ⟨hold, hheight⟩ := List.mem_filter.mp hmarker
      exact hfree (List.mem_map.mpr
        ⟨marker, List.mem_filter.mpr ⟨hmarkers marker hold, hheight⟩, heq⟩)
  | derived table =>
      cases table with
      | poolCreation =>
          intro row hrow other hother
          obtain ⟨hmem, hforeign⟩ := List.mem_filter.mp hother
          exact hfree row hrow other (List.mem_filter.mpr ⟨hrows other hmem, hforeign⟩)
      | poolSwap => trivial
      | poolMint => trivial
      | poolBurn => trivial
      | subfrostWrap => trivial
      | subfrostUnwrap => trivial

end Keys

/-! ## What a stage leaves -/

section After

variable {data : BlockData} {pools : DerivedTable → List PoolRow} {db db' : Db}

theorem sameRows_after
    (hsame : SameRows db db')
    (stages : List Stage) :
    SameRows (data.after pools stages db) (data.after pools stages db') where
  rows := fun table => by
    rw [after_rows, after_rows]
    split
    · exact ((hsame.rows table).filter _).append_right _
    · exact hsame.rows table
  processedBlocks := by
    rw [after_processedBlocks, after_processedBlocks]
    split
    · exact (hsame.processedBlocks.filter _).append_right _
    · exact hsame.processedBlocks

/-- The creations after a stage are those from before and those of the block. -/
theorem creation_after_cases
    {stages : List Stage}
    {row : PoolCreationRow}
    (hrow : row ∈ (data.after pools stages db).rows (.derived .poolCreation)) :
    row ∈ db.rows (.derived .poolCreation) ∨
      .derived .poolCreation ∈ stages ∧ row ∈ data.batch pools (.derived .poolCreation) := by
  rw [after_rows] at hrow
  split at hrow
  next hstage =>
    exact (List.mem_append.mp hrow).imp (fun hold => (List.mem_filter.mp hold).1)
      fun hown => ⟨hstage, hown⟩
  next => exact .inl hrow

theorem marker_after_cases
    {stages : List Stage}
    {row : ProcessedBlockRow}
    (hrow : row ∈ (data.after pools stages db).processedBlocks) :
    row ∈ db.processedBlocks ∨ .processedBlock ∈ stages ∧ row = data.processedBlockRow := by
  rw [after_processedBlocks] at hrow
  split at hrow
  next hstage =>
    exact (List.mem_append.mp hrow).imp (fun hold => (List.mem_filter.mp hold).1)
      fun hown => ⟨hstage, List.mem_singleton.mp hown⟩
  next => exact .inl hrow

/-- The protostones of a block stay where they are when another block is written. -/
theorem preloads_after_disjoint
    {data data' : BlockData}
    (hdisjoint : data.txids.Disjoint data'.txids)
    (hpreloads : data'.Preloads db)
    (pools : DerivedTable → List PoolRow)
    (stages : List Stage) :
    data'.Preloads (data.after pools stages db) := by
  have hfilter : ((data.after pools stages db).rows .decodedProtostone).filter
        (fun row => decide (DecodedProtostoneRow.transactionId row ∈ data'.txids)) =
      (db.rows .decodedProtostone).filter
        fun row => decide (DecodedProtostoneRow.transactionId row ∈ data'.txids) := by
    rw [after_rows]
    split
    · have hnone : (written .decodedProtostone (data.batch pools .decodedProtostone)).filter
          (fun row => decide (DecodedProtostoneRow.transactionId row ∈ data'.txids)) = [] :=
        List.filter_eq_nil_iff.mpr fun row hrow hmem =>
          hdisjoint (written_mem_txids data pools .decodedProtostone hrow) (of_decide_eq_true hmem)
      rw [List.filter_append, hnone, List.append_nil, Db.otherRows, List.filter_filter]
      refine List.filter_congr fun row _ => ?_
      by_cases hmem : DecodedProtostoneRow.transactionId row ∈ data'.txids
      · have hother : Table.transactionId .decodedProtostone row ∉ data.txids :=
          fun hown => hdisjoint hown hmem
        simp [hmem, hother]
      · simp [hmem]
    · rfl
  unfold BlockData.Preloads getDecodedProtostonesByTxidVout at hpreloads ⊢
  rw [hfilter]
  exact hpreloads

theorem preloadsFor_after_disjoint
    {data data' : BlockData}
    {stages' : List Stage}
    (hdisjoint : data.txids.Disjoint data'.txids)
    (hpreloads : data'.PreloadsFor stages' db)
    (pools : DerivedTable → List PoolRow)
    (stages : List Stage) :
    data'.PreloadsFor stages' (data.after pools stages db) :=
  hpreloads.imp_left fun hdb => preloads_after_disjoint hdisjoint hdb pools stages

end After

namespace StageCall

section Commit

variable
  {first second event other : StageCall}
  {db db' : Db}
  {data data' : BlockData}

theorem mem_written_iff
    {stage : Stage} :
    stage ∈ event.written data ↔
      stage = event.2 ∧ data.skipped event.1.attempt.pools stage = false := by
  rw [written, List.mem_filter, List.mem_singleton, Bool.not_eq_eq_eq_not, Bool.not_true]

theorem commit_eq_some_iff :
    event.commit db = some db' ↔
      ∃ data, event.1.Fetches data ∧ StageReady event.1.attempt data db event.2 ∧
        db' = data.after event.1.attempt.pools (event.written data) db := by
  unfold commit BlockCall.Fetches
  cases fetchBlock event.1.attempt.rpc event.1.attempt.schedule event.1.height with
  | error message => simp
  | ok data => simp [eq_comm]

/-- A stage whose block has its protostones in the database is what `commit` says. -/
theorem perform_eq_commit
    (hfetch : event.1.Fetches data)
    (hpreloads : ∀ table, event.2 = .derived table → data.Preloads db) :
    event.perform db = event.commit db := by
  obtain ⟨call, stage⟩ := event
  unfold BlockCall.Fetches at hfetch
  dsimp only at hfetch hpreloads
  obtain ⟨done, heffect⟩ :=
    runStage_effect call.attempt data (.start db) stage hpreloads
  have hready : (runStage call.attempt data (.start db) stage).2 = none ↔
      StageReady call.attempt data db stage := runStage_eq_none_iff stage hpreloads
  unfold perform commit
  simp only [hfetch]
  by_cases hnone : (runStage call.attempt data (.start db) stage).2 = none
  · have hdb := heffect.db_eq
    rw [heffect.complete hnone] at hdb
    rw [if_pos (hready.mp hnone), hnone, Option.isNone_none, if_pos rfl, hdb]
    rfl
  · rw [if_neg fun h => hnone (hready.mpr h),
      if_neg fun h => hnone (Option.isNone_iff_eq_none.mp h)]

theorem Compatible.symm
    (hcompatible : first.Compatible second) :
    second.Compatible first :=
  hcompatible.imp (fun h => ⟨h.1.symm, h.2.symm⟩) BlockCall.Apart.symm

/-- A stage leaves what is new for a compatible one new. -/
theorem New.after
    (hnew : other.New db)
    (hcompatible : event.Compatible other)
    (hfetch : event.1.Fetches data) :
    other.New (data.after event.1.attempt.pools (event.written data) db) where
  creations hstage data' hfetch' row hrow := by
    rcases creation_after_cases hrow with hold | ⟨hwritten, hown⟩
    · exact hnew.creations hstage data' hfetch' row hold
    · rcases hcompatible with ⟨_, hne⟩ | hapart
      · exact absurd ((mem_written_iff.mp hwritten).1.symm.trans hstage.symm) hne
      · exact hapart.2 data data' hfetch hfetch' (data.mem_txids_of_mem_batch _ hown).1
  marker hstage row hrow := by
    have hheight : data.height = event.1.height := (height_of_fetchBlock hfetch).1
    rcases marker_after_cases hrow with hold | ⟨hwritten, rfl⟩
    · exact hnew.marker hstage row hold
    · rcases hcompatible with ⟨_, hne⟩ | hapart
      · exact absurd ((mem_written_iff.mp hwritten).1.symm.trans hstage.symm) hne
      · change data.height ≠ other.1.height
        rw [hheight]
        exact hapart.1

/-- A key that is free behind a new stage was free before. -/
theorem New.keyFree
    {pools : DerivedTable → List PoolRow}
    {stage : Stage}
    (hnew : event.New db)
    (hfetch : event.1.Fetches data)
    (hfree : KeyFree data' pools
      (data.after event.1.attempt.pools (event.written data) db) stage) :
    KeyFree data' pools db stage := by
  have hheight : data.height = event.1.height := (height_of_fetchBlock hfetch).1
  refine hfree.mono (fun row hrow => ?_) fun row hrow => ?_
  · rw [after_rows]
    split
    next hwritten =>
      refine List.mem_append_left _ (List.mem_filter.mpr ⟨hrow, decide_eq_true ?_⟩)
      exact hnew.creations (mem_written_iff.mp hwritten).1.symm data hfetch row hrow
    next => exact hrow
  · rw [after_processedBlocks]
    split
    next hwritten =>
      refine List.mem_append_left _ (List.mem_filter.mpr ⟨hrow, decide_eq_true ?_⟩)
      rw [hheight]
      exact hnew.marker (mem_written_iff.mp hwritten).1.symm row hrow
    next => exact hrow

/-- The second of two stages has not taken the key of the first. -/
theorem keyFree_of_apart
    (hapart : first.1.Apart second.1)
    (hfetch : first.1.Fetches data)
    (hfetch' : second.1.Fetches data')
    (hfirst : KeyFree data first.1.attempt.pools db first.2)
    (hsecond : KeyFree data' second.1.attempt.pools
      (data.after first.1.attempt.pools (first.written data) db) second.2) :
    KeyFree data first.1.attempt.pools
      (data'.after second.1.attempt.pools (second.written data') db) first.2 := by
  obtain ⟨call, stage⟩ := first
  obtain ⟨call', stage'⟩ := second
  dsimp only at *
  cases stage with
  | raw => trivial
  | processedBlock =>
      have hheight : data.height = call.height := (height_of_fetchBlock hfetch).1
      have hheight' : data'.height = call'.height := (height_of_fetchBlock hfetch').1
      intro hmem
      obtain ⟨marker, hmarker, heq⟩ := List.mem_map.mp hmem
      obtain ⟨htaken, hother⟩ := List.mem_filter.mp hmarker
      rcases marker_after_cases htaken with hold | ⟨hwritten, rfl⟩
      · exact hfirst (List.mem_map.mpr ⟨marker, List.mem_filter.mpr ⟨hold, hother⟩, heq⟩)
      · obtain rfl : Stage.processedBlock = stage' := (mem_written_iff.mp hwritten).1
        refine hsecond (List.mem_map.mpr ⟨data.processedBlockRow, ?_, heq.symm⟩)
        refine List.mem_filter.mpr ⟨?_, decide_eq_true ?_⟩
        · rw [after_processedBlocks, if_pos (mem_written_iff.mpr ⟨rfl, rfl⟩)]
          exact List.mem_append_right _ (List.mem_singleton_self _)
        · change data.height ≠ data'.height
          rw [hheight, hheight']
          exact hapart.1
  | derived table =>
      cases table with
      | poolCreation =>
          intro row hrow taken htaken heq
          obtain ⟨hmem, hforeign⟩ := List.mem_filter.mp htaken
          rcases creation_after_cases hmem with hold | ⟨hwritten, hown⟩
          · exact hfirst row hrow taken (List.mem_filter.mpr ⟨hold, hforeign⟩) heq
          · obtain rfl : Stage.derived .poolCreation = stage' := (mem_written_iff.mp hwritten).1
            refine hsecond taken hown row (List.mem_filter.mpr ⟨?_, decide_eq_true ?_⟩) heq.symm
            · have hkept : Table.stage (.derived .poolCreation) ∈
                  written (call, .derived .poolCreation) data := by
                refine mem_written_iff.mpr ⟨rfl, Bool.eq_false_iff.mpr fun hskipped => ?_⟩
                rw [batch_of_skipped (.derived .poolCreation) hskipped] at hrow
                exact List.not_mem_nil hrow
              rw [after_rows, if_pos hkept]
              exact List.mem_append_right _ hrow
            · exact hapart.2 data data' hfetch hfetch' (data.mem_txids_of_mem_batch _ hrow).1
      | poolSwap => trivial
      | poolMint => trivial
      | poolBurn => trivial
      | subfrostWrap => trivial
      | subfrostUnwrap => trivial

theorem sameRows_swap
    {call call' : BlockCall}
    (hapart : call.Apart call')
    (hfetch : call.Fetches data)
    (hfetch' : call'.Fetches data')
    (pools pools' : DerivedTable → List PoolRow)
    (stages stages' : List Stage) :
    SameRows (data'.after pools' stages' (data.after pools stages db))
      (data.after pools stages (data'.after pools' stages' db)) where
  rows := fun table => by
    simp only [after_rows, Db.otherRows]
    by_cases hstage : table.stage ∈ stages <;> by_cases hstage' : table.stage ∈ stages'
    · simp only [if_pos hstage, if_pos hstage']
      exact replace_perm_comm _ (fun row hrow => written_mem_txids data pools table hrow)
        (fun row hrow => written_mem_txids data' pools' table hrow)
        (hapart.2 data data' hfetch hfetch')
    · simp only [if_pos hstage, if_neg hstage']
      exact .rfl
    · simp only [if_neg hstage, if_pos hstage']
      exact .rfl
    · simp only [if_neg hstage, if_neg hstage']
      exact .rfl
  processedBlocks := by
    have hheight : data.height = call.height := (height_of_fetchBlock hfetch).1
    have hheight' : data'.height = call'.height := (height_of_fetchBlock hfetch').1
    have hdisjoint : [data.height].Disjoint [data'.height] := by
      simpa [hheight, hheight'] using hapart.1.symm
    simp only [after_processedBlocks]
    split_ifs
    · have hrow : ∀ data : BlockData, ∀ row ∈ [data.processedBlockRow],
          row.blockHeight ∈ [data.height] := by
        simp [BlockData.processedBlockRow]
      have hcomm := replace_perm_comm db.processedBlocks (hrow data) (hrow data') hdisjoint
      simpa only [replace, List.mem_singleton] using hcomm
    · exact .rfl
    · exact .rfl
    · exact .rfl

theorem Fetches_unique
    {call : BlockCall}
    (hfetch : call.Fetches data)
    (hfetch' : call.Fetches data') :
    data = data' :=
  Except.ok.inj (hfetch.symm.trans hfetch')

theorem commuting_commit :
    Commuting commit SameRows Independent where
  refl := SameRows.refl
  trans := SameRows.trans
  congr := by
    intro db db' next event hsame hcommit
    obtain ⟨data, hfetch, hready, rfl⟩ := commit_eq_some_iff.mp hcommit
    have hfree := (keyFree_of_ready hready).mono
      (fun row => (hsame.rows (.derived .poolCreation)).mem_iff.mpr)
      (fun row => hsame.processedBlocks.mem_iff.mpr)
    exact ⟨_, commit_eq_some_iff.mpr ⟨data, hfetch, ready_of_keyFree hready hfree, rfl⟩,
      sameRows_after hsame _⟩
  fits_perm := fun hperm hindependent =>
    ⟨(hperm.pairwise_iff Compatible.symm).mp hindependent.1,
      fun event hevent => hindependent.2 event (hperm.mem_iff.mpr hevent)⟩
  fits_next := by
    intro db event events next hindependent hcommit
    obtain ⟨data, hfetch, _, rfl⟩ := commit_eq_some_iff.mp hcommit
    obtain ⟨hpairwise, hnew⟩ := hindependent
    obtain ⟨hcompatible, hrest⟩ := List.pairwise_cons.mp hpairwise
    exact ⟨hrest, fun other hother =>
      (hnew other (List.mem_cons_of_mem _ hother)).after (hcompatible other hother) hfetch⟩
  swap := by
    intro db first second events middle last hindependent hfirst hsecond
    obtain ⟨data, hfetch, hready, rfl⟩ := commit_eq_some_iff.mp hfirst
    obtain ⟨data', hfetch', hready', rfl⟩ := commit_eq_some_iff.mp hsecond
    obtain ⟨hpairwise, hnew⟩ := hindependent
    rcases (List.pairwise_cons.mp hpairwise).1 second List.mem_cons_self with ⟨hcall, _⟩ | hapart
    · obtain ⟨call, stage⟩ := first
      obtain ⟨call', stage'⟩ := second
      dsimp only at hcall
      subst hcall
      obtain rfl := Fetches_unique hfetch hfetch'
      have hready₂ := (stageReady_after_iff _ stage').mp hready'
      have hready₁ : StageReady call.attempt data
          (data.after call.attempt.pools (written (call, stage') data) db) stage :=
        (stageReady_after_iff _ stage).mpr hready
      refine ⟨_, _, commit_eq_some_iff.mpr ⟨data, hfetch, hready₂, rfl⟩,
        commit_eq_some_iff.mpr ⟨data, hfetch, hready₁, rfl⟩, ?_⟩
      have hsame : data.after call.attempt.pools (written (call, stage') data)
            (data.after call.attempt.pools (written (call, stage) data) db) =
          data.after call.attempt.pools (written (call, stage) data)
            (data.after call.attempt.pools (written (call, stage') data) db) := by
        rw [after_after, after_after]
        exact after_congr data _ db fun other => by rw [List.mem_append, List.mem_append, or_comm]
      rw [hsame]
      exact SameRows.refl _
    · have hfree := keyFree_of_ready hready'
      have hready₂ := ready_of_keyFree hready'
        ((hnew first List.mem_cons_self).keyFree hfetch hfree)
      have hready₁ := ready_of_keyFree hready
        (keyFree_of_apart hapart hfetch hfetch' (keyFree_of_ready hready) hfree)
      exact ⟨_, _, commit_eq_some_iff.mpr ⟨data', hfetch', hready₂, rfl⟩,
        commit_eq_some_iff.mpr ⟨data, hfetch, hready₁, rfl⟩,
        sameRows_swap hapart hfetch hfetch' _ _ _ _⟩

end Commit

end StageCall

end AlkanesIndexer
