import AlkanesIndexer.PipelineEffects

/-!
# Creations which cannot be inserted

`PoolCreation` has a foreign key into `Pool` and a unique index on the pool, but
creations are recognised by their traces alone.  This file says which traces
violate the constraints, and that such a block is refused by every attempt that
gets as far as its creations.
-/

namespace AlkanesIndexer

/-- What the foreign key and the unique index of `PoolCreation` ask of a batch
beside the rows which stay. -/
structure CreationConstraints
    (pools : List PoolRow)
    (others batch : List PoolCreationRow) : Prop where
  foreign_key : ∀ row ∈ batch, row.pool ∈ pools.map PoolRow.pool
  unique_in_batch : (batch.map PoolCreationRow.pool).Nodup
  unique_in_table : ∀ row ∈ batch, ∀ other ∈ others, other.pool ≠ row.pool

theorem creationConstraints_iff_insertable
    {pools : List PoolRow}
    {others batch : List PoolCreationRow} :
    CreationConstraints pools others batch ↔
      Insertable pools (.derived .poolCreation) batch others := by
  have hfresh : (∀ row ∈ batch, ∀ other ∈ others, other.pool ≠ row.pool) ↔
      ∀ row ∈ batch, PoolCreationRow.pool row ∉ others.map PoolCreationRow.pool := by
    simp
  constructor
  · rintro ⟨hknown, hnodup, hother⟩
    exact ⟨hknown, hnodup, hfresh.mp hother⟩
  · rintro ⟨hknown, hnodup, hother⟩
    exact ⟨hknown, hnodup, hfresh.mpr hother⟩

/-! ## Completed creations -/

/-- An opcode-0 delegatecall which brings two tokens and whose preferred return
keeps some of both and pays more of the called contract's own token than came
in. -/
def completesCreation (events : List JsonValue) (event : JsonValue) : Bool :=
  isDelegateInvokeCreate event && namesPool (poolIdOf event) &&
    (PoolCreation.creationTokens event).any fun tokens =>
      (PoolCreation.creditedReturn events tokens event).any fun ret =>
        PoolCreation.tokenTotal (responseAlkanes ret.1) tokens.1 <
            PoolCreation.tokenTotal (incomingAlkanes event) tokens.1 &&
          PoolCreation.tokenTotal (responseAlkanes ret.1) tokens.2 <
            PoolCreation.tokenTotal (incomingAlkanes event) tokens.2 &&
          PoolCreation.tokenTotal (incomingAlkanes event) (poolIdOf event) <
            PoolCreation.tokenTotal (responseAlkanes ret.1) (poolIdOf event)

theorem isSome_creationOf
    (tokens : AlkaneId × AlkaneId)
    (invoke ret : JsonValue) :
    (PoolCreation.creationOf tokens invoke ret).isSome =
      (PoolCreation.tokenTotal (responseAlkanes ret) tokens.1 <
          PoolCreation.tokenTotal (incomingAlkanes invoke) tokens.1 &&
        PoolCreation.tokenTotal (responseAlkanes ret) tokens.2 <
          PoolCreation.tokenTotal (incomingAlkanes invoke) tokens.2 &&
        PoolCreation.tokenTotal (incomingAlkanes invoke) (poolIdOf invoke) <
          PoolCreation.tokenTotal (responseAlkanes ret) (poolIdOf invoke)) := by
  rw [Bool.eq_iff_iff, PoolCreation.creationOf]
  split
  · next hzero =>
    simp only [Bool.or_eq_true, decide_eq_true_eq] at hzero
    simp only [Option.isSome_none, Bool.false_eq_true, Bool.and_eq_true, decide_eq_true_eq,
      false_iff]
    omega
  · next hpositive =>
    simp only [Bool.or_eq_true, decide_eq_true_eq] at hpositive
    simp only [Option.isSome_some, Bool.and_eq_true, decide_eq_true_eq, true_iff]
    omega

theorem completesCreation_eq
    (events : List JsonValue)
    (event : JsonValue) :
    completesCreation events event = (PoolCreation.creationOfEvent events event).isSome := by
  unfold completesCreation PoolCreation.creationOfEvent
  cases isDelegateInvokeCreate event && namesPool (poolIdOf event) with
  | false => rfl
  | true =>
      cases PoolCreation.creationTokens event with
      | none => rfl
      | some tokens =>
          simp only [Bool.true_and, Option.any_some, if_true, Option.bind_some]
          cases PoolCreation.creditedReturn events tokens event with
          | none => rfl
          | some ret =>
              rw [Option.any_some, Option.bind_some, isSome_creationOf]

/-- The contracts called by the completed creations of a block, each as often as
it is. -/
def createdPools (data : BlockData) : List AlkaneId :=
  data.inputs.flatMap fun input =>
    (input.events.filter (completesCreation input.events)).map poolIdOf

theorem filterMap_creationOfEvent
    (events candidates : List JsonValue) :
    (candidates.filterMap fun event =>
        (PoolCreation.creationOfEvent events event).map DecodedPoolCreation.pool) =
      (candidates.filter (completesCreation events)).map poolIdOf := by
  induction candidates with
  | nil => rfl
  | cons event rest ih =>
      rw [List.filterMap_cons, List.filter_cons, completesCreation_eq, ih]
      cases hcreation : PoolCreation.creationOfEvent events event with
      | none => rfl
      | some creation => simp [PoolCreation.pool_of_creationOfEvent hcreation]

theorem creationBatch_pools_perm
    (data : BlockData)
    (pools : DerivedTable → List PoolRow) :
    ((data.batch pools (.derived .poolCreation)).map PoolCreationRow.pool).Perm
      (createdPools data) := by
  change ((creationRows data.decoded data.height data.inputs).map PoolCreationRow.pool).Perm _
  rw [creationRows, List.map_flatMap, createdPools]
  apply List.Perm.flatMap_left
  intro input _
  have hperm := (PoolCreation.detectPoolCreationsForTx_perm input.events).map
    fun found => found.1.pool
  rw [List.map_filterMap] at hperm
  rw [List.map_map, ← filterMap_creationOfEvent]
  simpa [Option.map_map, Function.comp_def, PoolCreation.creationRow] using hperm

/-! ## Traces that fit the table -/

/-- Every completed creation calls a pool of `Pool`, no two of them the same one,
and none a pool whose creation is on record for another transaction. -/
structure CreationsFit (data : BlockData) (pools : List PoolRow) (db : Db) : Prop where
  known : ∀ pool ∈ createdPools data, pool ∈ pools.map PoolRow.pool
  once : (createdPools data).Nodup
  unclaimed : ∀ pool ∈ createdPools data, ∀ row ∈ db.rows (.derived .poolCreation),
    PoolCreationRow.pool row = pool → PoolCreationRow.transactionId row ∈ data.txids

theorem creationConstraints_batch_iff
    {data : BlockData}
    {pools : DerivedTable → List PoolRow}
    {db : Db} :
    CreationConstraints (pools .poolCreation)
        (db.otherRows (.derived .poolCreation) data.txids)
        (data.batch pools (.derived .poolCreation)) ↔
      CreationsFit data (pools .poolCreation) db := by
  have hperm := creationBatch_pools_perm data pools
  have hforall : ∀ fits : AlkaneId → Prop,
      (∀ row ∈ data.batch pools (.derived .poolCreation), fits (PoolCreationRow.pool row)) ↔
        ∀ pool ∈ createdPools data, fits pool := by
    intro fits
    rw [← List.forall_mem_map]
    exact ⟨fun hall pool hmem => hall pool (hperm.mem_iff.mpr hmem),
      fun hall pool hmem => hall pool (hperm.mem_iff.mp hmem)⟩
  have hothers : ∀ pool, (∀ other ∈ db.otherRows (.derived .poolCreation) data.txids,
      PoolCreationRow.pool other ≠ pool) ↔
        ∀ row ∈ db.rows (.derived .poolCreation), PoolCreationRow.pool row = pool →
          PoolCreationRow.transactionId row ∈ data.txids := by
    intro pool
    constructor
    · intro hnone row hrow heq
      by_contra hother
      exact hnone row (List.mem_filter.mpr ⟨hrow, decide_eq_true hother⟩) heq
    · intro howned other hother heq
      obtain ⟨hmem, hnot⟩ := List.mem_filter.mp hother
      have hin := howned other hmem heq
      simp only [decide_eq_true_eq] at hnot
      exact hnot hin
  constructor
  · rintro ⟨hknown, hnodup, hfresh⟩
    refine ⟨(hforall _).mp hknown, hperm.nodup_iff.mp hnodup, fun pool hpool => ?_⟩
    exact (hothers pool).mp ((hforall fun pool => ∀ other ∈
      db.otherRows (.derived .poolCreation) data.txids,
        PoolCreationRow.pool other ≠ pool).mp hfresh pool hpool)
  · rintro ⟨hknown, hnodup, hunclaimed⟩
    refine ⟨(hforall fun pool => pool ∈ (pools .poolCreation).map PoolRow.pool).mpr hknown,
      hperm.nodup_iff.mpr hnodup, ?_⟩
    exact (hforall fun pool => ∀ other ∈
      db.otherRows (.derived .poolCreation) data.txids,
        PoolCreationRow.pool other ≠ pool).mpr fun pool hpool =>
          (hothers pool).mpr (hunclaimed pool hpool)

/-! ## Refused blocks -/

section Refused

variable {attempt : Attempt} {data : BlockData} {db : Db} {execution : Execution}

theorem commitStage_eq_constraint_iff
    {stage other : Stage}
    {result : Option Db} :
    (commitStage attempt stage result execution).2 = some (.constraint other) ↔
      other = stage ∧ attempt.fails (.statement stage) = false ∧ result.isSome = false := by
  unfold commitStage
  cases attempt.fails (.statement stage) <;> cases result <;>
    cases attempt.fails (.commit stage) <;> cases attempt.fails (.acknowledge stage) <;>
    simp [eq_comm]

theorem stage_of_constraint
    {stage other : Stage}
    (herror : (runStage attempt data execution stage).2 = some (.constraint other)) :
    other = stage := by
  cases stage with
  | raw => exact (commitStage_eq_constraint_iff.mp herror).1
  | processedBlock => exact (commitStage_eq_constraint_iff.mp herror).1
  | derived table =>
      change (runDerived attempt data table execution).2 = _ at herror
      unfold runDerived at herror
      split at herror
      · cases herror
      · dsimp only at herror
        split at herror
        · cases herror
        · exact (commitStage_eq_constraint_iff.mp herror).1

theorem runStages_eq_of_some
    {stage : Stage}
    {rest : List Stage}
    {error : PipelineError}
    (herror : (runStage attempt data execution stage).2 = some error) :
    (runStages attempt data (stage :: rest) execution).2 = some error := by
  rw [runStages]
  rcases hrun : runStage attempt data execution stage with ⟨execution', _ | error'⟩
  · simp [hrun] at herror
  · simpa [hrun] using herror

theorem runStages_eq_of_none
    {stage : Stage}
    {rest : List Stage}
    (hnone : (runStage attempt data execution stage).2 = none) :
    runStages attempt data (stage :: rest) execution =
      runStages attempt data rest (runStage attempt data execution stage).1 := by
  rw [runStages]
  rcases hrun : runStage attempt data execution stage with ⟨execution', _ | error'⟩
  · rfl
  · simp [hrun] at hnone

theorem mem_stages_of_constraint
    {stages : List Stage}
    {other : Stage}
    (herror : (runStages attempt data stages execution).2 = some (.constraint other)) :
    other ∈ stages := by
  induction stages generalizing execution with
  | nil => cases herror
  | cons stage rest ih =>
      cases hstage : (runStage attempt data execution stage).2 with
      | none =>
          rw [runStages_eq_of_none hstage] at herror
          exact List.mem_cons_of_mem _ (ih herror)
      | some error =>
          rw [runStages_eq_of_some hstage, Option.some.injEq] at herror
          rw [herror] at hstage
          rw [stage_of_constraint hstage]
          exact List.mem_cons_self

theorem creationStage_error_iff
    (hpreloads : data.Preloads execution.db)
    (hread : attempt.fails (.read (.derived .poolCreation)) = false)
    (hstatement : attempt.fails (.statement (.derived .poolCreation)) = false) :
    (runStage attempt data execution (.derived .poolCreation)).2 =
        some (.constraint (.derived .poolCreation)) ↔
      ¬ CreationsFit data (attempt.pools .poolCreation) execution.db := by
  rw [← creationConstraints_batch_iff, creationConstraints_iff_insertable]
  change (runDerived attempt data .poolCreation execution).2 = _ ↔ _
  unfold runDerived
  rw [if_neg (by simp [hread])]
  dsimp only
  rw [derivedBatch_eq_batch hpreloads]
  split
  · next hskip =>
    have hnil : data.batch attempt.pools (.derived .poolCreation) = [] := by
      simpa [DerivedTable.skipsEmptyBatch] using hskip
    simp [hnil, Insertable]
  · rw [commitStage_eq_constraint_iff, ← write_isSome_iff, Bool.not_eq_true]
    simp [hstatement]

/-- An attempt that gets as far as inserting the creations. -/
structure ReachesCreations (attempt : Attempt) (data : BlockData) (db : Db) : Prop where
  raw : StageReady attempt data db .raw
  swaps : StageReady attempt data db (.derived .poolSwap)
  read : attempt.fails (.read (.derived .poolCreation)) = false
  statement : attempt.fails (.statement (.derived .poolCreation)) = false

theorem writeBlock_error_iff
    (hreaches : ReachesCreations attempt data db)
    (emitPublish : Bool) :
    (writeBlock attempt emitPublish db data).error =
        some (.constraint (.derived .poolCreation)) ↔
      ¬ CreationsFit data (attempt.pools .poolCreation) db := by
  change (runStages attempt data data.stages (.start db)).2 = _ ↔ _
  cases hreturn : data.txs.any txHasOpReturn with
  | false =>
      have hnot : Stage.derived .poolCreation ∉ data.stages := by
        simp [BlockData.stages, hreturn]
      have hfits : CreationsFit data (attempt.pools .poolCreation) db := by
        have hnone : createdPools data = [] := by
          simp [createdPools, BlockData.inputs, data.results_nil hreturn]
        constructor <;> simp [hnone]
      exact ⟨fun herror => absurd (mem_stages_of_constraint herror) hnot,
        fun hnotFits => absurd hfits hnotFits⟩
  | true =>
      have hstages : data.stages = .raw :: .derived .poolSwap :: .derived .poolCreation ::
          [.derived .poolMint, .derived .poolBurn, .derived .subfrostWrap,
            .derived .subfrostUnwrap, .processedBlock] := by
        rw [BlockData.stages, if_pos hreturn]
        rfl
      have hraw : (runStage attempt data (.start db) .raw).2 = none :=
        (runStage_eq_none_iff .raw (by simp)).mpr hreaches.raw
      obtain ⟨afterRaw, hafterRaw⟩ : ∃ execution,
          (runStage attempt data (.start db) .raw).1 = execution := ⟨_, rfl⟩
      obtain ⟨done, hrawEffect⟩ := runStage_effect attempt data (.start db) .raw (by simp)
      have hrawDb := hrawEffect.db_eq
      rw [hafterRaw, hrawEffect.complete hraw] at hrawDb
      have hpreloads : data.Preloads afterRaw.db := by
        rw [hrawDb]
        exact preloads_after _ (Or.inl (by simp [BlockData.skipped]))
      have hswaps : (runStage attempt data afterRaw (.derived .poolSwap)).2 = none := by
        rw [runStage_eq_none_iff _ fun _ _ => hpreloads, hrawDb]
        exact (stageReady_after_iff _ _).mpr hreaches.swaps
      obtain ⟨afterSwaps, hafterSwaps⟩ : ∃ execution,
          (runStage attempt data afterRaw (.derived .poolSwap)).1 = execution := ⟨_, rfl⟩
      obtain ⟨done', hswapEffect⟩ := runStage_effect attempt data afterRaw
        (.derived .poolSwap) fun _ _ => hpreloads
      have hswapsDb := hswapEffect.db_eq
      rw [hafterSwaps, hswapEffect.complete hswaps] at hswapsDb
      have hpreloads' : data.Preloads afterSwaps.db := by
        rw [hswapsDb]
        exact preloads_after _ (Or.inr hpreloads)
      have hrows : afterSwaps.db.rows (.derived .poolCreation) =
          db.rows (.derived .poolCreation) := by
        rw [hswapsDb, after_rows, if_neg (by simp [Table.stage]), hrawDb, after_rows,
          if_neg (by simp [Table.stage])]
        rfl
      have hfits : CreationsFit data (attempt.pools .poolCreation) afterSwaps.db ↔
          CreationsFit data (attempt.pools .poolCreation) db := by
        constructor <;> rintro ⟨hknown, honce, hunclaimed⟩ <;>
          exact ⟨hknown, honce, by simpa [hrows] using hunclaimed⟩
      have hstage := creationStage_error_iff hpreloads' hreaches.read hreaches.statement
      rw [hstages, runStages_eq_of_none hraw, hafterRaw, runStages_eq_of_none hswaps,
        hafterSwaps, ← hfits, ← hstage]
      cases herror : (runStage attempt data afterSwaps (.derived .poolCreation)).2 with
      | some error => rw [runStages_eq_of_some herror]
      | none =>
          rw [runStages_eq_of_none herror]
          refine ⟨fun hlater => ?_, fun hcreation => by cases hcreation⟩
          have hmem := mem_stages_of_constraint hlater
          simp at hmem

end Refused

/-- The batch of a block satisfies the constraints exactly when its traces fit the
table, and where they do not, every attempt that gets as far as the creations is
refused. -/
theorem creationConstraints_iff_creationsFit
    {attempt : Attempt}
    {height : ℕ}
    {emitPublish : Bool}
    {db : Db}
    {data : BlockData}
    (hfetch : fetchBlock attempt.rpc attempt.schedule height = .ok data) :
    (CreationConstraints (attempt.pools .poolCreation)
        (db.otherRows (.derived .poolCreation) data.txids)
        (data.batch attempt.pools (.derived .poolCreation)) ↔
      CreationsFit data (attempt.pools .poolCreation) db) ∧
    (ReachesCreations attempt data db →
      ((processBlockSequential attempt height emitPublish db).error =
          some (.constraint (.derived .poolCreation)) ↔
        ¬ CreationsFit data (attempt.pools .poolCreation) db)) := by
  refine ⟨creationConstraints_batch_iff, fun hreaches => ?_⟩
  rw [processBlockSequential_of_fetch attempt emitPublish db hfetch]
  exact writeBlock_error_iff hreaches emitPublish

/-! ## A contract that looks like a pool -/

def lookalikeAttempt : Attempt :=
  .smooth (.serving "lookalike" [("a1",
    [invokeTrace ("0x2", "0x63") "0x0"
        [alkaneEntry ("2", "0") 1000, alkaneEntry ("32", "0") 500],
      returnTrace [alkaneEntry ("2", "99") 700]])]) []

set_option maxRecDepth 4000 in
def lookalikeData : BlockData :=
  (fetchBlock lookalikeAttempt.rpc lookalikeAttempt.schedule 5).toOption.get (by decide)

set_option maxRecDepth 4000 in
theorem lookalikeAttempt_refused :
    (processBlockSequential lookalikeAttempt 5 false .empty).error =
      some (.constraint (.derived .poolCreation)) := by
  decide

theorem lookalikeAttempt_fetches :
    fetchBlock lookalikeAttempt.rpc lookalikeAttempt.schedule 5 = .ok lookalikeData := by
  have hrefused := lookalikeAttempt_refused
  unfold processBlockSequential at hrefused
  cases hfetch : fetchBlock lookalikeAttempt.rpc lookalikeAttempt.schedule 5 with
  | error message => simp [hfetch] at hrefused
  | ok data => simp [lookalikeData, hfetch, Except.toOption]

set_option maxRecDepth 4000 in
/-- The block is refused although all its calls succeed. -/
theorem lookalike_violates_constraints :
    (processBlockSequential lookalikeAttempt 5 false .empty).error =
        some (.constraint (.derived .poolCreation)) ∧
      ¬ CreationConstraints (lookalikeAttempt.pools .poolCreation)
        (Db.empty.otherRows (.derived .poolCreation) lookalikeData.txids)
        (lookalikeData.batch lookalikeAttempt.pools (.derived .poolCreation)) := by
  refine ⟨lookalikeAttempt_refused, fun hconstraints => ?_⟩
  have hknown := hconstraints.foreign_key
  exact absurd hknown (by decide)

theorem lookalike_constraints_iff :
    (CreationConstraints (lookalikeAttempt.pools .poolCreation)
        (Db.empty.otherRows (.derived .poolCreation) lookalikeData.txids)
        (lookalikeData.batch lookalikeAttempt.pools (.derived .poolCreation)) ↔
      CreationsFit lookalikeData (lookalikeAttempt.pools .poolCreation) .empty) ∧
    (ReachesCreations lookalikeAttempt lookalikeData .empty →
      ((processBlockSequential lookalikeAttempt 5 false .empty).error =
          some (.constraint (.derived .poolCreation)) ↔
        ¬ CreationsFit lookalikeData (lookalikeAttempt.pools .poolCreation) .empty)) :=
  creationConstraints_iff_creationsFit lookalikeAttempt_fetches

end AlkanesIndexer
