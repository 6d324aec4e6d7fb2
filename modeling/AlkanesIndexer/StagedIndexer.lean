import AlkanesIndexer.PoolKnowledge

/-!
# The indexer stage by stage

The stages of both loops are steps of their own on one database, which other
clients write to as well.  `process_block_sequential` ends with the notification
of its height, which only the poller asks for.
-/

namespace AlkanesIndexer

open Runs

/-! ## The steps -/

/-- `emit_publish` of the contexts which the two loops make. -/
def Session.emitPublish : Session → Bool
  | .poller => true
  | .coordinator => false

def LoopAction.seenTip : LoopAction → Option ℕ
  | .pollerTip answer => answer
  | _ => none

/-- A fetched block on its way through the stages of its processing. -/
structure Processing where
  attempt : Attempt
  data : BlockData
  remaining : List Stage
  execution : Execution

inductive Milestone where
  | began
  | recorded
  | published
  deriving DecidableEq, Repr

/-- A call of `process_block_sequential` began, the `ProcessedBlocks` row of one
took effect, or one called `publish_block_processed`. -/
structure LogEntry where
  session : Session
  height : ℕ
  milestone : Milestone
  deriving DecidableEq, Repr

/-- The loops with their processings on the shared database.  The last two fields
record the tips the poller has observed and what the processings have done. -/
structure Service where
  loops : Loops
  db : Db
  running : Session → Option Processing
  tips : List ℕ
  log : List LogEntry

inductive ServiceAction where
  | calls (action : LoopAction)
  | fetches (session : Session) (attempt : Attempt)
  | writes (session : Session)
  | ends (session : Session)
  | otherWrites (db : Db)

def LoopAction.endsProcessing : LoopAction → Bool
  | .pollerProcessed _ => true
  | .coordinatorProcessed _ => true
  | _ => false

namespace Service

def start (progress : Option ℕ) (db : Db) : Service where
  loops := { Loops.start with progress := progress }
  db := db
  running := fun _ => none
  tips := []
  log := []

def logs (service : Service) (entry : LogEntry) : Service :=
  { service with log := service.log ++ [entry] }

def runs (service : Service) (session : Session) (processing : Option Processing) : Service :=
  { service with running := Function.update service.running session processing }

def returns
    (startHeight : Option ℕ)
    (service : Service)
    (session : Session)
    (ok : Bool) : Option Service :=
  (service.loops.step startHeight (session.processed ok)).map fun loops =>
    { service.runs session none with loops := loops }

def fetches
    (startHeight : Option ℕ)
    (service : Service)
    (session : Session)
    (attempt : Attempt) : Option Service :=
  match service.loops.current session, service.running session with
  | some height, none =>
      match fetchBlock attempt.rpc attempt.schedule height with
      | .error _ => (service.logs ⟨session, height, .began⟩).returns startHeight session false
      | .ok data =>
          some ((service.logs ⟨session, height, .began⟩).runs session
            (some ⟨attempt, data, data.stages, .start service.db⟩))
  | _, _ => none

/-- The database as a stage has left it, with an entry for the marker. -/
def wrote
    (service : Service)
    (session : Session)
    (height : ℕ)
    (execution : Execution) : Service :=
  if .processedBlock ∈ execution.committed then
    { service with db := execution.db }.logs ⟨session, height, .recorded⟩
  else { service with db := execution.db }

/-- The next stage, on the database as it is. -/
def writes
    (startHeight : Option ℕ)
    (service : Service)
    (session : Session) : Option Service :=
  match service.running session with
  | some ⟨attempt, data, stage :: rest, execution⟩ =>
      let result := runStage attempt data { execution with db := service.db } stage
      let written := service.wrote session data.height result.1
      match result.2 with
      | none => some (written.runs session (some ⟨attempt, data, rest, result.1⟩))
      | some _ => written.returns startHeight session false
  | _ => none

/-- The notification after the last stage, and the successful end. -/
def ends (startHeight : Option ℕ) (service : Service) (session : Session) : Option Service :=
  match service.running session with
  | some ⟨_, data, [], _⟩ =>
      let notified :=
        if session.emitPublish then service.logs ⟨session, data.height, .published⟩
        else service
      notified.returns startHeight session true
  | _ => none

def step (startHeight : Option ℕ) (service : Service) : ServiceAction → Option Service
  | .calls action =>
      if action.endsProcessing then none
      else
        (service.loops.step startHeight action).map fun loops =>
          { service with loops := loops, tips := service.tips ++ action.seenTip.toList }
  | .fetches session attempt => service.fetches startHeight session attempt
  | .writes session => service.writes startHeight session
  | .ends session => service.ends startHeight session
  | .otherWrites db => some { service with db := db }

def run
    (startHeight : Option ℕ)
    (service : Service)
    (actions : List ServiceAction) : Option Service :=
  Runs.run (step startHeight) service actions

def published (service : Service) : List ℕ :=
  (service.log.filter fun entry => entry.milestone = .published).map LogEntry.height

def entriesOf (session : Session) (log : List LogEntry) : List LogEntry :=
  log.filter fun entry => entry.session = session

end Service

/-! ## What a step does -/

/-- A loop stays at a height until its processing ends. -/
theorem current_of_step
    {startHeight : Option ℕ}
    {loops loops' : Loops}
    {action : LoopAction}
    {session : Session}
    {height : ℕ}
    (hstep : loops.step startHeight action = some loops')
    (hother : ∀ ok, action ≠ session.processed ok)
    (hcurrent : loops.current session = some height) :
    loops'.current session = some height := by
  cases session with
  | poller =>
      simp only [Loops.current, Poller.current] at hcurrent ⊢
      cases steps_of_step hstep with
      | pollerTip _ poller' htip =>
          rw [(tip_cases htip).1] at hcurrent
          cases hcurrent
      | pollerRefreshed poller' hrefreshed =>
          obtain ⟨tip, hphase, _⟩ := refreshed_cases hrefreshed
          rw [hphase] at hcurrent
          cases hcurrent
      | pollerProcessed ok => exact absurd rfl (hother ok)
      | coordinatorTip => exact hcurrent
      | coordinatorRead => exact hcurrent
      | coordinatorProcessed => exact hcurrent
      | coordinatorSaved => exact hcurrent
  | coordinator =>
      simp only [Loops.current] at hcurrent ⊢
      cases steps_of_step hstep with
      | pollerTip => exact hcurrent
      | pollerRefreshed => exact hcurrent
      | pollerProcessed => exact hcurrent
      | coordinatorTip answer phase' _ htip =>
          cases hphase : loops.coordinator <;>
            simp [hphase, CoordinatorPhase.tip, CoordinatorPhase.current] at htip hcurrent
      | coordinatorRead _ _ phase' _ hread =>
          obtain ⟨tip, hphase, _⟩ := read_cases hread
          rw [hphase] at hcurrent
          cases hcurrent
      | coordinatorProcessed ok => exact absurd rfl (hother ok)
      | coordinatorSaved _ _ hsaved =>
          obtain ⟨saved, tip, hphase, _⟩ := saved_cases hsaved
          rw [hphase] at hcurrent
          cases hcurrent

theorem runStage_committed
    (attempt : Attempt)
    (data : BlockData)
    (execution : Execution)
    (stage : Stage) :
    (runStage attempt data execution stage).1.committed = execution.committed ∨
      (runStage attempt data execution stage).1.committed = execution.committed ++ [stage] := by
  have hcommit : ∀ result (before : Execution), before.committed = execution.committed →
      (commitStage attempt stage result before).1.committed = execution.committed ∨
        (commitStage attempt stage result before).1.committed =
          execution.committed ++ [stage] := by
    intro result before hbefore
    rcases commitStage_cases attempt stage result before with ⟨hsame, _⟩ | ⟨db, _, hdone⟩
    · exact .inl (by rw [hsame, hbefore])
    · exact .inr (by rw [hdone, ← hbefore])
  cases stage with
  | raw => exact hcommit _ _ rfl
  | processedBlock => exact hcommit _ _ rfl
  | derived table =>
      change (runDerived attempt data table execution).1.committed = _ ∨
        (runDerived attempt data table execution).1.committed = _
      unfold runDerived
      split
      · exact .inl rfl
      · dsimp only
        split
        · exact .inl rfl
        · exact hcommit _ _ rfl

theorem processedBlock_mem_of_runStage
    {attempt : Attempt}
    {data : BlockData}
    {execution : Execution}
    (hok : (runStage attempt data execution .processedBlock).2 = none) :
    .processedBlock ∈ (runStage attempt data execution .processedBlock).1.committed := by
  change (commitStage attempt .processedBlock _ execution).2 = none at hok
  change .processedBlock ∈ (commitStage attempt .processedBlock _ execution).1.committed
  rcases commitStage_cases attempt .processedBlock _ execution with ⟨_, herror⟩ | ⟨db, _, hdone⟩
  · exact absurd hok herror
  · rw [hdone]
    simp

/-- Only its own stage commits the marker, and the row is then in the table. -/
theorem marker_of_runStage
    {attempt : Attempt}
    {data : BlockData}
    (execution : Execution)
    {stage : Stage}
    (hnew : .processedBlock ∉ execution.committed)
    (hmem : .processedBlock ∈ (runStage attempt data execution stage).1.committed) :
    stage = .processedBlock ∧ data.processedBlockRow ∈
      (runStage attempt data execution stage).1.db.processedBlocks := by
  have hstage : stage = .processedBlock := by
    rcases runStage_committed attempt data execution stage with hsame | hadded
    · rw [hsame] at hmem
      exact absurd hmem hnew
    · rw [hadded, List.mem_append, List.mem_singleton] at hmem
      exact (hmem.resolve_left hnew).symm
  subst hstage
  refine ⟨rfl, ?_⟩
  change .processedBlock ∈ (commitStage attempt .processedBlock _ execution).1.committed at hmem
  change _ ∈ (commitStage attempt .processedBlock _ execution).1.db.processedBlocks
  rcases commitStage_cases attempt .processedBlock
    ((upsertProcessedBlock execution.db.processedBlocks data.processedBlockRow).map
      fun rows => { execution.db with processedBlocks := rows }) execution with
    ⟨hsame, _⟩ | ⟨db, hresult, hdone⟩
  · rw [hsame] at hmem
    exact absurd hmem hnew
  · rw [hdone]
    simp only [upsertProcessedBlock, Option.map_eq_some_iff, Option.ite_none_left_eq_some,
      Option.some.injEq] at hresult
    obtain ⟨rows, ⟨_, rfl⟩, rfl⟩ := hresult
    simp

namespace Service

variable {startHeight : Option ℕ} {service service' : Service} {session : Session}

theorem returns_cases
    {ok : Bool}
    (hreturns : service.returns startHeight session ok = some service') :
    ∃ loops, service.loops.step startHeight (session.processed ok) = some loops ∧
      service' = { service.runs session none with loops := loops } := by
  simp only [returns, Option.map_eq_some_iff] at hreturns
  obtain ⟨loops, hstep, rfl⟩ := hreturns
  exact ⟨loops, hstep, rfl⟩

theorem fetches_cases
    {attempt : Attempt}
    (hfetches : service.fetches startHeight session attempt = some service') :
    ∃ height, service.loops.current session = some height ∧ service.running session = none ∧
      ((service.logs ⟨session, height, .began⟩).returns startHeight session false =
          some service' ∨
        ∃ data, fetchBlock attempt.rpc attempt.schedule height = .ok data ∧
          service' = (service.logs ⟨session, height, .began⟩).runs session
            (some ⟨attempt, data, data.stages, .start service.db⟩)) := by
  unfold fetches at hfetches
  split at hfetches
  · next height hcurrent hrunning =>
    refine ⟨height, hcurrent, hrunning, ?_⟩
    split at hfetches
    · exact .inl hfetches
    · next data hfetch => exact .inr ⟨data, hfetch, (Option.some.inj hfetches).symm⟩
  · cases hfetches

theorem writes_cases
    (hwrites : service.writes startHeight session = some service') :
    ∃ attempt data stage rest execution,
      service.running session = some ⟨attempt, data, stage :: rest, execution⟩ ∧
      ∃ result, result = runStage attempt data { execution with db := service.db } stage ∧
        (result.2 = none ∧ service' = (service.wrote session data.height result.1).runs session
            (some ⟨attempt, data, rest, result.1⟩) ∨
          (service.wrote session data.height result.1).returns startHeight session false =
            some service') := by
  unfold writes at hwrites
  split at hwrites
  · next attempt data stage rest execution hrunning =>
    refine ⟨attempt, data, stage, rest, execution, hrunning, _, rfl, ?_⟩
    dsimp only at hwrites
    split at hwrites
    · next hok => exact .inl ⟨hok, (Option.some.inj hwrites).symm⟩
    · exact .inr hwrites
  · cases hwrites

theorem ends_cases
    (hends : service.ends startHeight session = some service') :
    ∃ attempt data execution, service.running session = some ⟨attempt, data, [], execution⟩ ∧
      (if session.emitPublish then service.logs ⟨session, data.height, .published⟩
        else service).returns startHeight session true = some service' := by
  unfold ends at hends
  split at hends
  · next attempt data execution hrunning => exact ⟨attempt, data, execution, hrunning, hends⟩
  · cases hends

@[simp]
theorem logs_log
    (entry : LogEntry) :
    (service.logs entry).log = service.log ++ [entry] :=
  rfl

@[simp]
theorem runs_log
    (processing : Option Processing) :
    (service.runs session processing).log = service.log :=
  rfl

@[simp]
theorem wrote_log
    (height : ℕ)
    (execution : Execution) :
    (service.wrote session height execution).log = service.log ++
      if .processedBlock ∈ execution.committed then [⟨session, height, .recorded⟩] else [] := by
  unfold wrote
  split <;> simp

variable (service session) in
theorem wrote_same
    (height : ℕ)
    (execution : Execution) :
    (service.wrote session height execution).loops = service.loops ∧
      (service.wrote session height execution).running = service.running ∧
      (service.wrote session height execution).tips = service.tips := by
  unfold wrote
  split <;> simp [logs]

end Service

/-! ## A processing on its own -/

namespace Service

variable {startHeight : Option ℕ} {service service' : Service} {session : Session}

variable (startHeight session) in
theorem exists_processed
    {loops : Loops}
    {height : ℕ}
    (hcurrent : loops.current session = some height)
    (ok : Bool) :
    ∃ loops', loops.step startHeight (session.processed ok) = some loops' := by
  obtain ⟨⟨lastHeight, signalled, phase⟩, coordinator, progress, attempts, firstTip⟩ := loops
  cases session with
  | poller =>
      cases phase <;> cases lastHeight <;> cases ok <;>
        simp_all [Loops.current, Poller.current, Loops.step, Session.processed, Poller.processed]
  | coordinator =>
      cases coordinator <;> cases ok <;>
        simp_all [Loops.current, CoordinatorPhase.current, Loops.step, Session.processed,
          CoordinatorPhase.processed]

section Writes

variable {attempt : Attempt} {data : BlockData} {stage : Stage} {rest : List Stage}
  {execution next : Execution}

variable (startHeight) in
theorem writes_of_ok
    (hrunning : service.running session = some ⟨attempt, data, stage :: rest, execution⟩)
    (hstage : runStage attempt data { execution with db := service.db } stage = (next, none)) :
    service.step startHeight (.writes session) =
      some ((service.wrote session data.height next).runs session
        (some ⟨attempt, data, rest, next⟩)) := by
  simp [step, writes, hrunning, hstage]

variable (startHeight) in
theorem writes_of_error
    {error : PipelineError}
    (hrunning : service.running session = some ⟨attempt, data, stage :: rest, execution⟩)
    (hstage : runStage attempt data { execution with db := service.db } stage =
      (next, some error)) :
    service.step startHeight (.writes session) =
      (service.wrote session data.height next).returns startHeight session false := by
  simp [step, writes, hrunning, hstage]

end Writes

variable (service session) in
theorem wrote_db
    (height : ℕ)
    (execution : Execution) :
    (service.wrote session height execution).db = execution.db ∧
      (service.wrote session height execution).published = service.published := by
  constructor
  · unfold wrote
    split <;> rfl
  · unfold published
    rw [wrote_log]
    split <;> simp

variable (startHeight) in
/-- The stages one after another, with nothing in between. -/
theorem exists_run_stages
    {attempt : Attempt}
    {data : BlockData}
    (stages : List Stage)
    {execution : Execution}
    (hrunning : service.running session = some ⟨attempt, data, stages, execution⟩)
    (hcurrent : service.loops.current session = some data.height)
    {result : Execution × Option PipelineError}
    (hresult : runStages attempt data stages { execution with db := service.db } = result) :
    ∃ actions service', Runs.run (step startHeight) service actions = some service' ∧
      service'.db = result.1.db ∧ service'.published = service.published ∧
      (result.2 = none → service'.loops = service.loops ∧
        ∃ last, service'.running session = some ⟨attempt, data, [], last⟩) ∧
      (result.2 ≠ none →
        service.loops.step startHeight (session.processed false) = some service'.loops) := by
  induction stages generalizing service execution with
  | nil =>
      subst hresult
      exact ⟨[], service, rfl, rfl, rfl, fun _ => ⟨rfl, execution, hrunning⟩, by simp [runStages]⟩
  | cons stage rest ih =>
      rcases hstage : runStage attempt data { execution with db := service.db } stage with
        ⟨next, _ | error⟩
      · have hwrites := writes_of_ok startHeight hrunning hstage
        obtain ⟨hloops, _, _⟩ := wrote_same service session data.height next
        obtain ⟨hdb, hpublished⟩ := wrote_db service session data.height next
        generalize service.wrote session data.height next = written at *
        have hrest : runStages attempt data rest { next with db := written.db } = result := by
          rw [hdb, ← hresult, runStages, hstage]
        have hnext : (written.runs session (some ⟨attempt, data, rest, next⟩)).running session =
            some ⟨attempt, data, rest, next⟩ := by simp [runs]
        obtain ⟨actions, service', hrun, hfinalDb, hfinalPublished, hok, herror⟩ :=
          ih hnext (hloops ▸ hcurrent) hrest
        refine ⟨.writes session :: actions, service', ?_, hfinalDb, ?_, ?_, ?_⟩
        · exact run_cons_eq_some_iff.mpr ⟨_, hwrites, hrun⟩
        · exact hfinalPublished.trans hpublished
        · intro hnone
          obtain ⟨hsame, hlast⟩ := hok hnone
          exact ⟨hsame.trans hloops, hlast⟩
        · intro hsome
          rw [← hloops]
          exact herror hsome
      · have hwrites := writes_of_error startHeight hrunning hstage
        obtain ⟨hloops, _, _⟩ := wrote_same service session data.height next
        obtain ⟨hdb, hpublished⟩ := wrote_db service session data.height next
        obtain ⟨loops, hloopStep⟩ := exists_processed startHeight session hcurrent false
        rw [runStages, hstage] at hresult
        subst hresult
        refine ⟨[.writes session], { (service.wrote session data.height next).runs session none
          with loops := loops }, ?_, hdb, hpublished, by simp, fun _ => hloopStep⟩
        apply run_cons_eq_some_iff.mpr
        refine ⟨_, ?_, rfl⟩
        rw [hwrites, returns, hloops, hloopStep]
        rfl

/-- A processing which nothing interrupts does what `processBlockSequential` does. -/
theorem exists_run_alone
    {height : ℕ}
    (attempt : Attempt)
    (hcurrent : service.loops.current session = some height)
    (hidle : service.running session = none)
    {outcome : Outcome}
    (houtcome : processBlockSequential attempt height session.emitPublish service.db = outcome) :
    ∃ actions service',
      Runs.run (step startHeight) service (.fetches session attempt :: actions) = some service' ∧
      service'.db = outcome.db ∧
      service'.published = service.published ++ (if outcome.published then [height] else []) ∧
      service.loops.step startHeight (session.processed outcome.error.isNone) =
        some service'.loops := by
  cases hfetch : fetchBlock attempt.rpc attempt.schedule height with
  | error message =>
      simp only [processBlockSequential, hfetch] at houtcome
      subst houtcome
      obtain ⟨loops, hstep⟩ := exists_processed startHeight session hcurrent false
      refine ⟨[], { (service.logs ⟨session, height, .began⟩).runs session none with
        loops := loops }, ?_, rfl, ?_, hstep⟩
      · apply run_cons_eq_some_iff.mpr
        refine ⟨_, ?_, rfl⟩
        simp [step, fetches, hcurrent, hidle, hfetch, returns, hstep, logs, runs]
      · simp [published, runs]
  | ok data =>
      obtain ⟨hheight, _⟩ := height_of_fetchBlock hfetch
      rw [processBlockSequential_of_fetch _ _ _ hfetch] at houtcome
      have hfetches : service.step startHeight (.fetches session attempt) =
          some ((service.logs ⟨session, height, .began⟩).runs session
            (some ⟨attempt, data, data.stages, .start service.db⟩)) := by
        simp [step, fetches, hcurrent, hidle, hfetch]
      have hbegan : ((service.logs ⟨session, height, .began⟩).runs session
          (some ⟨attempt, data, data.stages, .start service.db⟩)).published =
            service.published := by
        simp [published, runs]
      rcases hstages : runStages attempt data data.stages (.start service.db) with ⟨final, error⟩
      have hwritten : outcome.error = error ∧ outcome.db = final.db ∧
          outcome.published = (session.emitPublish && error.isNone) := by
        rw [← houtcome]
        simp [writeBlock, hstages]
      obtain ⟨herror, hdb, hpublished⟩ := hwritten
      have hrunning : ((service.logs ⟨session, height, .began⟩).runs session
          (some ⟨attempt, data, data.stages, .start service.db⟩)).running session =
            some ⟨attempt, data, data.stages, .start service.db⟩ := by simp [runs]
      obtain ⟨actions, service', hrun, hfinalDb, hfinalPublished, hok, hfailed⟩ :=
        exists_run_stages startHeight data.stages hrunning (hheight ▸ hcurrent) hstages
      rw [hbegan] at hfinalPublished
      rw [herror, hdb, hpublished]
      cases error with
      | some error =>
          refine ⟨actions, service', ?_, hfinalDb, by simp [hfinalPublished], hfailed (by simp)⟩
          exact run_cons_eq_some_iff.mpr ⟨_, hfetches, hrun⟩
      | none =>
          obtain ⟨hloops, last, hlast⟩ := hok rfl
          obtain ⟨loops, hstep⟩ := exists_processed startHeight session hcurrent true
          have hsame : service'.loops = service.loops := hloops
          refine ⟨actions ++ [.ends session], { (if session.emitPublish then
            service'.logs ⟨session, data.height, .published⟩ else service').runs session none with
            loops := loops }, ?_, ?_, ?_, hstep⟩
          · apply run_cons_eq_some_iff.mpr
            refine ⟨_, hfetches, run_concat_eq_some_iff.mpr ⟨service', hrun, ?_⟩⟩
            cases session <;>
              simp [step, ends, hlast, Session.emitPublish, returns, logs, hsame, hstep, runs]
          · cases session <;> exact hfinalDb
          · rw [← hfinalPublished, ← hheight]
            cases session <;> simp [Session.emitPublish, published, runs]

end Service

end AlkanesIndexer
