import AlkanesIndexer.PoolKnowledge
import AlkanesIndexer.ProgressStore
import AlkanesIndexer.TipFollowing

/-!
# Runs of the indexer over the same database

The indexer is started, stopped or killed at any point of its work, and started again,
perhaps with another `START_HEIGHT`; in between `dbctl reset-progress` may set where the
next run starts.  Only `kv_store` outlives a process.  As long as no pass of the
coordinator is under way a reset is honoured: from the height it names on nothing is left
out, however often the indexer is stopped.
-/

namespace AlkanesIndexer

open Runs Sequences

/-! ## The configuration -/

structure AppConfig where
  databaseUrl : String
  sandshrewRpcUrl : String
  bitcoinRpcUrl : Option String
  esploraUrl : Option String
  networkProvider : String
  pollIntervalMs : ℕ
  startHeight : Option ℕ
  factoryBlockId : String
  factoryTxId : String
  deriving DecidableEq, Repr

def AppConfig.fromEnv (env : String → Option String) : Except String AppConfig :=
  match env "DATABASE_URL" with
  | none => .error "environment variable not found"
  | some databaseUrl => .ok {
      databaseUrl := databaseUrl
      sandshrewRpcUrl := (env "SANDSHREW_RPC_URL").getD "http://localhost:18888"
      bitcoinRpcUrl := env "BITCOIN_RPC_URL"
      esploraUrl := env "ESPLORA_URL"
      networkProvider := (env "NETWORK").getD "regtest"
      pollIntervalMs := envUnsigned env "POLL_INTERVAL_MS" 64 2000
      startHeight := (env "START_HEIGHT").bind (parseUnsigned 64)
      factoryBlockId := (env "FACTORY_BLOCK_ID").getD "0"
      factoryTxId := (env "FACTORY_TX_ID").getD "0" }

/-! ## Processes and the store -/

/-- A running indexer with its two loops. -/
structure Process where
  startHeight : Option ℕ
  loops : Loops

/-- The last two fields only record what has happened: the start heights of the
processes so far, and the ended calls of `process_block_sequential`. -/
structure Deployment where
  kv : KvStore
  process : Option Process
  starts : List ℕ
  attempts : List (Session × ℕ × Bool)

/-- What happens to a deployment.  A process that is stopped may be so at any point. -/
inductive Operation where
  | starts (env : String → Option String)
  | loop (action : LoopAction)
  | stops
  | resetProgress (height : ℕ)

def Operation.Resets : Operation → Prop
  | .resetProgress _ => True
  | _ => False

instance (operation : Operation) : Decidable operation.Resets := by
  unfold Operation.Resets
  split <;> infer_instance

/-- A tip is a `u64`, and the progress is only read where its text is a number. -/
def LoopAction.Answered (kv : KvStore) : LoopAction → Prop
  | .pollerTip (some tip) | .coordinatorTip (some tip) => tip < 2 ^ 64
  | .coordinatorRead true => (getLastProcessedHeight kv).isOk
  | _ => True

instance (kv : KvStore) (action : LoopAction) : Decidable (action.Answered kv) := by
  unfold LoopAction.Answered
  split <;> infer_instance

/-- The height that the end of this call has put into the store. -/
def LoopAction.stored (loops : Loops) : LoopAction → Option ℕ
  | .coordinatorSaved result =>
      match loops.coordinator, result with
      | .saving _ _, .lost => none
      | .saving height _, _ => some height
      | _, _ => none
  | _ => none

def LoopAction.ended (loops : Loops) : LoopAction → List (Session × ℕ × Bool)
  | .pollerProcessed ok => loops.poller.current.toList.map fun height => (.poller, height, ok)
  | .coordinatorProcessed ok =>
      loops.coordinator.current.toList.map fun height => (.coordinator, height, ok)
  | .pollerTip _ | .pollerRefreshed => []
  | .coordinatorTip _ | .coordinatorRead _ | .coordinatorSaved _ => []

namespace Deployment

/-- The progress as the loops find it. -/
def progress (deployment : Deployment) : Option ℕ :=
  match getLastProcessedHeight deployment.kv with
  | .ok progress => progress
  | .error _ => none

/-- `main` reads the configuration and the progress before it starts the loops. -/
def starting (deployment : Deployment) (env : String → Option String) : Option Deployment :=
  match deployment.process, AppConfig.fromEnv env, getLastProcessedHeight deployment.kv with
  | none, .ok config, .ok _ => some { deployment with
      process := some ⟨config.startHeight, .start⟩
      starts := deployment.starts ++ config.startHeight.toList }
  | _, _, _ => none

def looping (deployment : Deployment) (action : LoopAction) : Option Deployment :=
  deployment.process.bind fun process =>
    let loops := { process.loops with progress := deployment.progress }
    if action.Answered deployment.kv then
      (loops.step process.startHeight action).map fun loops' => { deployment with
        kv := (action.stored loops).elim deployment.kv fun height =>
          setLastProcessedHeight height deployment.kv
        process := some { process with loops := loops' }
        attempts := deployment.attempts ++ action.ended loops }
    else none

def step (deployment : Deployment) : Operation → Option Deployment
  | .starts env => deployment.starting env
  | .loop action => deployment.looping action
  | .stops => some { deployment with process := none }
  | .resetProgress height =>
      if height < 2 ^ 64 then some { deployment with kv := resetProgress height deployment.kv }
      else none

/-- What the coordinator is waiting for, if there is one. -/
def phase (deployment : Deployment) : CoordinatorPhase :=
  deployment.process.elim .waiting fun process => process.loops.coordinator

/-- No pass of the coordinator is past its look at the progress. -/
def Idle (deployment : Deployment) : Prop :=
  deployment.phase = .waiting ∨ ∃ tip < 2 ^ 64, deployment.phase = .reading tip

/-- The start height of the process that is running. -/
def running (deployment : Deployment) : List ℕ :=
  (deployment.process.bind Process.startHeight).toList

end Deployment

/-! ## From where the coordinator goes on -/

/-- Where a coordinator goes on that has found this progress: behind it, or, without
one, at the start height of one of the processes. -/
def GoesOnAt (origin : Option ℕ) (starts : List ℕ) (base : ℕ) : Prop :=
  match origin with
  | some last => base = saturatingSucc last
  | none => base ∈ starts

/-- Every height from one on, and below another, has been processed. -/
def CoveredBelow (attempts : List (Session × ℕ × Bool)) (base limit : ℕ) : Prop :=
  ∀ height, base ≤ height → height < limit → ∃ session, (session, height, true) ∈ attempts

/-- From where the coordinator went on to `limit` nothing is left out. -/
def ReachedFrom
    (origin : Option ℕ)
    (starts : List ℕ)
    (attempts : List (Session × ℕ × Bool))
    (limit : ℕ) : Prop :=
  ∃ base, GoesOnAt origin starts base ∧ base ≤ limit ∧ CoveredBelow attempts base limit

/-- The height is processed, and so is everything from where the coordinator went on. -/
def DoneFrom
    (origin : Option ℕ)
    (starts : List ℕ)
    (attempts : List (Session × ℕ × Bool))
    (last : ℕ) : Prop :=
  ReachedFrom origin starts attempts last ∧ ∃ session, (session, last, true) ∈ attempts

/-- Since the progress was `origin`: it has not gone back, what it has gone on by was
processed without a gap, and each call of the coordinator came when every height before
its own was done. -/
structure Resumed
    (origin : Option ℕ)
    (starts : List ℕ)
    (since : List (Session × ℕ × Bool))
    (deployment : Deployment) : Prop where
  readable : getLastProcessedHeight deployment.kv = .ok deployment.progress
  kept : ∀ last, origin = some last → ∃ last', deployment.progress = some last' ∧ last ≤ last'
  covered : ∀ last, deployment.progress = some last → origin = some last ∨
    DoneFrom origin starts since last
  ordered : EachAfter (fun earlier entry => entry.1 = .coordinator →
    ReachedFrom origin starts earlier entry.2.1) since

section GoesOn

variable
  {origin : Option ℕ}
  {starts starts' : List ℕ}
  {attempts attempts' : List (Session × ℕ × Bool)}
  {limit : ℕ}

theorem ReachedFrom.mono
    (hreached : ReachedFrom origin starts attempts limit)
    (hstarts : starts ⊆ starts')
    (hattempts : attempts ⊆ attempts') :
    ReachedFrom origin starts' attempts' limit := by
  obtain ⟨base, hbase, hle, hcovered⟩ := hreached
  refine ⟨base, ?_, hle, fun height hlow hhigh => ?_⟩
  · cases origin with
    | none => exact hstarts hbase
    | some last => exact hbase
  · obtain ⟨session, hmem⟩ := hcovered height hlow hhigh
    exact ⟨session, hattempts hmem⟩

theorem DoneFrom.mono
    (hdone : DoneFrom origin starts attempts limit)
    (hstarts : starts ⊆ starts')
    (hattempts : attempts ⊆ attempts') :
    DoneFrom origin starts' attempts' limit := by
  obtain ⟨hreached, session, hmem⟩ := hdone
  exact ⟨hreached.mono hstarts hattempts, session, hattempts hmem⟩

theorem DoneFrom.succ
    (hdone : DoneFrom origin starts attempts limit) :
    ReachedFrom origin starts attempts (limit + 1) := by
  obtain ⟨⟨base, hbase, hle, hcovered⟩, session, hlimit⟩ := hdone
  refine ⟨base, hbase, hle.trans (Nat.le_succ limit), fun height hlow hhigh => ?_⟩
  by_cases hlast : height = limit
  · exact ⟨session, hlast ▸ hlimit⟩
  · exact hcovered height hlow (by omega)

end GoesOn

/-! ## What every operation but a reset keeps -/

/-- Beside what the store stands for: what the phase of the coordinator stands for. -/
structure Resuming
    (origin : Option ℕ)
    (starts : List ℕ)
    (since : List (Session × ℕ × Bool))
    (deployment : Deployment) : Prop extends Resumed origin starts since deployment where
  started : deployment.running ⊆ starts
  reading : ∀ tip, deployment.phase = .reading tip → tip < 2 ^ 64
  processing : ∀ next tip, deployment.phase = .processing next tip →
    tip < 2 ^ 64 ∧ next ≤ tip ∧ ReachedFrom origin starts since next ∧
      ∀ last, deployment.progress = some last → last ≤ next
  saving : ∀ height tip, deployment.phase = .saving height tip →
    tip < 2 ^ 64 ∧ height ≤ tip ∧ DoneFrom origin starts since height ∧
      ∀ last, deployment.progress = some last → last ≤ height

section Resuming

variable
  {origin : Option ℕ}
  {starts starts' : List ℕ}
  {since since' : List (Session × ℕ × Bool)}
  {deployment deployment' : Deployment}

variable (deployment) in
theorem resuming_start
    (hstored : getLastProcessedHeight deployment.kv = .ok origin)
    (hidle : deployment.Idle) :
    Resuming origin deployment.running [] deployment := by
  have hprogress : deployment.progress = origin := by
    unfold Deployment.progress
    rw [hstored]
  refine ⟨⟨?_, ?_, ?_, eachAfter_nil⟩, fun _ hstart => hstart, ?_, ?_, ?_⟩
  · rw [hstored, hprogress]
  · exact fun last hlast => ⟨last, hprogress.trans hlast, le_refl last⟩
  · exact fun last hlast => .inl (hprogress.symm.trans hlast)
  · intro tip hphase
    rcases hidle with hwaiting | ⟨tip', hlt, hreading⟩
    · cases hwaiting.symm.trans hphase
    · cases hreading.symm.trans hphase
      exact hlt
  · intro next tip hphase
    rcases hidle with hwaiting | ⟨tip', _, hreading⟩
    · cases hwaiting.symm.trans hphase
    · cases hreading.symm.trans hphase
  · intro height tip hphase
    rcases hidle with hwaiting | ⟨tip', _, hreading⟩
    · cases hwaiting.symm.trans hphase
    · cases hreading.symm.trans hphase

/-- More may have been started and processed with the store as it is, if the new phase
stands for what it should. -/
theorem Resuming.of_kv
    (hresuming : Resuming origin starts since deployment)
    (hkv : deployment'.kv = deployment.kv)
    (hrunning : deployment'.running ⊆ starts')
    (hstarts : starts ⊆ starts')
    (hsince : since ⊆ since')
    (hordered : EachAfter (fun earlier entry => entry.1 = .coordinator →
      ReachedFrom origin starts' earlier entry.2.1) since')
    (hreading : ∀ tip, deployment'.phase = .reading tip → tip < 2 ^ 64)
    (hprocessing : ∀ next tip, deployment'.phase = .processing next tip →
      tip < 2 ^ 64 ∧ next ≤ tip ∧ ReachedFrom origin starts' since' next ∧
        ∀ last, deployment.progress = some last → last ≤ next)
    (hsaving : ∀ height tip, deployment'.phase = .saving height tip →
      tip < 2 ^ 64 ∧ height ≤ tip ∧ DoneFrom origin starts' since' height ∧
        ∀ last, deployment.progress = some last → last ≤ height) :
    Resuming origin starts' since' deployment' := by
  have hprogress : deployment'.progress = deployment.progress := by
    unfold Deployment.progress
    rw [hkv]
  refine ⟨⟨?_, ?_, fun last hlast => ?_, hordered⟩, hrunning, hreading, ?_, ?_⟩
  · rw [hkv, hprogress]
    exact hresuming.readable
  · rw [hprogress]
    exact hresuming.kept
  · rw [hprogress] at hlast
    exact (hresuming.covered last hlast).imp_right fun hdone => hdone.mono hstarts hsince
  · rw [hprogress]
    exact hprocessing
  · rw [hprogress]
    exact hsaving

/-- The coordinator may also stay where it is, or begin again. -/
theorem Resuming.of_same
    (hresuming : Resuming origin starts since deployment)
    (hkv : deployment'.kv = deployment.kv)
    (hphase : deployment'.phase = deployment.phase ∨ deployment'.phase = .waiting)
    (hrunning : deployment'.running ⊆ starts')
    (hstarts : starts ⊆ starts')
    (hsince : since ⊆ since')
    (hordered : EachAfter (fun earlier entry => entry.1 = .coordinator →
      ReachedFrom origin starts' earlier entry.2.1) since') :
    Resuming origin starts' since' deployment' := by
  have hsame : ∀ phase, phase ≠ .waiting → deployment'.phase = phase →
      deployment.phase = phase := by
    intro phase hne hphase'
    rcases hphase with hkept | hwaiting
    · exact hkept.symm.trans hphase'
    · exact absurd (hphase'.symm.trans hwaiting) hne
  refine hresuming.of_kv hkv hrunning hstarts hsince hordered ?_ ?_ ?_
  · exact fun tip hreading => hresuming.reading tip (hsame _ nofun hreading)
  · intro next tip hprocessing
    obtain ⟨hlt, hle, hreached, hlast⟩ :=
      hresuming.processing next tip (hsame _ nofun hprocessing)
    exact ⟨hlt, hle, hreached.mono hstarts hsince, hlast⟩
  · intro height tip hsaving
    obtain ⟨hlt, hle, hdone, hlast⟩ := hresuming.saving height tip (hsame _ nofun hsaving)
    exact ⟨hlt, hle, hdone.mono hstarts hsince, hlast⟩

theorem ordered_mono
    (hordered : EachAfter (fun earlier entry => entry.1 = .coordinator →
      ReachedFrom origin starts earlier entry.2.1) since)
    (hstarts : starts ⊆ starts') :
    EachAfter (fun earlier entry => entry.1 = .coordinator →
      ReachedFrom origin starts' earlier entry.2.1) since :=
  fun earlier entry later hsplit hsession =>
    (hordered earlier entry later hsplit hsession).mono hstarts fun _ hmem => hmem

theorem starting_eq_some
    {env : String → Option String}
    (hstarting : deployment.starting env = some deployment') :
    deployment.process = none ∧ ∃ config, AppConfig.fromEnv env = .ok config ∧
      deployment' = { deployment with
        process := some ⟨config.startHeight, .start⟩
        starts := deployment.starts ++ config.startHeight.toList } := by
  unfold Deployment.starting at hstarting
  split at hstarting
  next config progress hprocess hconfig _ =>
    exact ⟨hprocess, config, hconfig, (Option.some.inj hstarting).symm⟩
  next => cases hstarting

theorem looping_eq_some
    {action : LoopAction}
    (hlooping : deployment.looping action = some deployment') :
    ∃ process loops', deployment.process = some process ∧ action.Answered deployment.kv ∧
      Loops.step process.startHeight { process.loops with progress := deployment.progress }
        action = some loops' ∧
      deployment' = { deployment with
        kv := (action.stored { process.loops with progress := deployment.progress }).elim
          deployment.kv fun height => setLastProcessedHeight height deployment.kv
        process := some { process with loops := loops' }
        attempts := deployment.attempts ++
          action.ended { process.loops with progress := deployment.progress } } := by
  obtain ⟨process, hprocess, hrest⟩ := Option.bind_eq_some_iff.mp hlooping
  obtain ⟨hanswered, hrest⟩ := Option.ite_none_right_eq_some.mp hrest
  obtain ⟨loops', hstep, rfl⟩ := Option.map_eq_some_iff.mp hrest
  exact ⟨process, loops', hprocess, hanswered, hstep, rfl⟩

theorem read_le
    {phase : CoordinatorPhase}
    {start next tip : ℕ}
    {progress : Option ℕ}
    {ok : Bool}
    (hread : phase.read start progress ok = some (.processing next tip)) :
    phase = .reading tip ∧ ok = true ∧ next ≤ tip ∧
      next = (progress.map saturatingSucc).getD start := by
  cases phase with
  | waiting => simp [CoordinatorPhase.read] at hread
  | processing height tip => simp [CoordinatorPhase.read] at hread
  | saving height tip => simp [CoordinatorPhase.read] at hread
  | reading seen =>
      simp only [CoordinatorPhase.read] at hread
      split at hread
      next hok =>
        split at hread
        next => cases hread
        next hbelow =>
          cases hread
          exact ⟨rfl, hok, by omega, rfl⟩
      next => cases hread

theorem seen_of_tip
    {phase : CoordinatorPhase}
    {answer : Option ℕ}
    {tip : ℕ}
    (htip : phase.tip answer = some (.reading tip)) :
    answer = some tip := by
  cases phase <;> cases answer <;> simp_all [CoordinatorPhase.tip]

theorem saved_or_lost
    {phase : CoordinatorPhase}
    {progress : Option ℕ}
    {result : SaveResult}
    {saved : CoordinatorPhase × Option ℕ}
    (hsaved : phase.saved progress result = some saved) :
    ∃ height tip, phase = .saving height tip ∧
      (result = .lost ∧ saved.1 = .waiting ∨
        result ≠ .lost ∧
          (saved.1 = .waiting ∨ height < tip ∧ saved.1 = .processing (height + 1) tip)) := by
  cases phase with
  | waiting => simp [CoordinatorPhase.saved] at hsaved
  | reading tip => simp [CoordinatorPhase.saved] at hsaved
  | processing height tip => simp [CoordinatorPhase.saved] at hsaved
  | saving height tip =>
      refine ⟨height, tip, rfl, ?_⟩
      cases result with
      | lost =>
          cases hsaved
          exact .inl ⟨rfl, rfl⟩
      | unacknowledged =>
          cases hsaved
          exact .inr ⟨by simp, .inl rfl⟩
      | saved =>
          cases hsaved
          refine .inr ⟨by simp, ?_⟩
          by_cases hbelow : height < tip
          · exact .inr ⟨hbelow, if_pos hbelow⟩
          · exact .inl (if_neg hbelow)

theorem stored_of_saving
    {loops : Loops}
    {height tip : ℕ}
    {result : SaveResult}
    (hsaving : loops.coordinator = .saving height tip) :
    (LoopAction.coordinatorSaved result).stored loops =
      if result = .lost then none else some height := by
  unfold LoopAction.stored
  cases result <;> simp [hsaving]

theorem goesOnAt_next
    {start next : ℕ}
    (hresuming : Resuming origin starts since deployment)
    (hstart : start ∈ starts)
    (hnext : next = (deployment.progress.map saturatingSucc).getD start) :
    ReachedFrom origin starts since next ∧
      ∀ last, deployment.progress = some last → last ≤ next := by
  obtain ⟨hbetween, hnone⟩ := le_of_next hnext
  refine ⟨?_, fun last hlast => (hbetween last hlast).1⟩
  cases hprogress : deployment.progress with
  | none =>
      rw [hnone hprogress]
      have horigin : origin = none := by
        cases origin with
        | none => rfl
        | some last =>
            obtain ⟨last', hlast', _⟩ := hresuming.kept last rfl
            cases hprogress.symm.trans hlast'
      subst horigin
      exact ⟨start, hstart, le_refl start, fun height hlow hhigh => by omega⟩
  | some last =>
      have hle := hbetween last hprogress
      rcases hresuming.covered last hprogress with horigin | hdone
      · subst horigin
        have hsame : next = saturatingSucc last := by
          rw [hnext, hprogress]
          rfl
        exact ⟨next, hsame, le_refl next, fun height hlow hhigh => by omega⟩
      · have hcases : next = last ∨ next = last + 1 := by omega
        rcases hcases with rfl | rfl
        · exact hdone.1
        · exact hdone.succ

theorem progress_set
    {height : ℕ}
    (hlt : height < 2 ^ 64)
    (hkv : deployment'.kv = setLastProcessedHeight height deployment.kv) :
    getLastProcessedHeight deployment'.kv = .ok (some height) ∧
      deployment'.progress = some height := by
  have hget := getLastProcessedHeight_set hlt deployment.kv
  rw [← hkv] at hget
  refine ⟨hget, ?_⟩
  unfold Deployment.progress
  rw [hget]

/-- A save puts a height into the store that is done and not behind the progress. -/
theorem Resuming.of_save
    {height tip : ℕ}
    (hresuming : Resuming origin starts since deployment)
    (hphase : deployment.phase = .saving height tip)
    (hkv : deployment'.kv = setLastProcessedHeight height deployment.kv)
    (hrunning : deployment'.running ⊆ starts)
    (hphase' : deployment'.phase = .waiting ∨
      height < tip ∧ deployment'.phase = .processing (height + 1) tip) :
    Resuming origin starts since deployment' := by
  obtain ⟨hlt, hle, hdone, hlast⟩ := hresuming.saving height tip hphase
  obtain ⟨hget, hprogress⟩ := progress_set (hle.trans_lt hlt) hkv
  refine ⟨⟨?_, fun last horigin => ?_, fun last hlast' => ?_, hresuming.ordered⟩, hrunning,
    fun seen hreading => ?_, fun next tip' hprocessing => ?_, fun saved tip' hsaving => ?_⟩
  · rw [hget, hprogress]
  · obtain ⟨last', hprogress', hkept⟩ := hresuming.kept last horigin
    exact ⟨height, hprogress, hkept.trans (hlast last' hprogress')⟩
  · rw [hprogress] at hlast'
    cases hlast'
    exact .inr hdone
  · rcases hphase' with hwaiting | ⟨_, hnext⟩
    · cases hwaiting.symm.trans hreading
    · cases hnext.symm.trans hreading
  · rcases hphase' with hwaiting | ⟨hbelow, hnext⟩
    · cases hwaiting.symm.trans hprocessing
    · cases hnext.symm.trans hprocessing
      refine ⟨hlt, hbelow, hdone.succ, fun last hlast' => ?_⟩
      rw [hprogress] at hlast'
      cases hlast'
      exact Nat.le_succ height
  · rcases hphase' with hwaiting | ⟨_, hnext⟩
    · cases hwaiting.symm.trans hsaving
    · cases hnext.symm.trans hsaving

theorem resuming_looping
    {action : LoopAction}
    (hresuming : Resuming origin starts since deployment)
    (hlooping : deployment.looping action = some deployment') :
    ∃ ended, deployment'.attempts = deployment.attempts ++ ended ∧
      deployment'.starts = deployment.starts ∧
      Resuming origin starts (since ++ ended) deployment' := by
  obtain ⟨process, loops', hprocess, hanswered, hstep, rfl⟩ := looping_eq_some hlooping
  refine ⟨_, rfl, rfl, ?_⟩
  have hphase : deployment.phase = process.loops.coordinator := by
    unfold Deployment.phase
    rw [hprocess]
    rfl
  have hrunning : process.startHeight.toList ⊆ starts := by
    have hstarted := hresuming.started
    unfold Deployment.running at hstarted
    rwa [hprocess] at hstarted
  cases steps_of_step hstep with
  | pollerTip answer poller' htip =>
      refine hresuming.of_same rfl (.inl hphase.symm) hrunning (fun _ hmem => hmem)
        (List.subset_append_left _ _) ?_
      rw [LoopAction.ended, List.append_nil]
      exact hresuming.ordered
  | pollerRefreshed poller' hrefreshed =>
      refine hresuming.of_same rfl (.inl hphase.symm) hrunning (fun _ hmem => hmem)
        (List.subset_append_left _ _) ?_
      rw [LoopAction.ended, List.append_nil]
      exact hresuming.ordered
  | pollerProcessed ok height poller' hcurrent hprocessed =>
      refine hresuming.of_same rfl (.inl hphase.symm) hrunning (fun _ hmem => hmem)
        (List.subset_append_left _ _) ?_
      rw [LoopAction.ended, hcurrent]
      exact eachAfter_concat hresuming.ordered fun hsession => by cases hsession
  | coordinatorTip answer phase' hsignalled htip =>
      refine hresuming.of_kv rfl hrunning (fun _ hmem => hmem) (List.subset_append_left _ _) ?_
        (fun tip hreading => ?_) (fun next tip hprocessing => ?_) (fun height tip hsaving => ?_)
      · rw [LoopAction.ended, List.append_nil]
        exact hresuming.ordered
      · have hseen := seen_of_tip (htip.trans (congrArg some hreading))
        subst hseen
        exact hanswered
      · rcases coordinatorTip_cases htip with hwaiting | ⟨seen, hseen⟩
        · cases hwaiting.symm.trans hprocessing
        · cases hseen.symm.trans hprocessing
      · rcases coordinatorTip_cases htip with hwaiting | ⟨seen, hseen⟩
        · cases hwaiting.symm.trans hsaving
        · cases hseen.symm.trans hsaving
  | coordinatorRead ok start phase' hstart hread =>
      refine hresuming.of_kv rfl hrunning (fun _ hmem => hmem) (List.subset_append_left _ _) ?_
        (fun tip hreading => ?_) (fun next tip hprocessing => ?_) (fun height tip hsaving => ?_)
      · rw [LoopAction.ended, List.append_nil]
        exact hresuming.ordered
      · obtain ⟨_, _, hwaiting | hnext⟩ := read_cases hread
        · cases hwaiting.symm.trans hreading
        · cases hnext.symm.trans hreading
      · obtain ⟨hseen, _, hle, hnext⟩ := read_le (hread.trans (congrArg some hprocessing))
        have hmem : start ∈ starts := hrunning (by simp [hstart])
        obtain ⟨hreached, hlast⟩ := goesOnAt_next hresuming hmem hnext
        refine ⟨hresuming.reading tip (hphase.trans hseen), hle, ?_, hlast⟩
        exact hreached.mono (fun _ hmem => hmem) (List.subset_append_left _ _)
      · obtain ⟨_, _, hwaiting | hnext⟩ := read_cases hread
        · cases hwaiting.symm.trans hsaving
        · cases hnext.symm.trans hsaving
  | coordinatorProcessed ok height phase' hcurrent hprocessed =>
      obtain ⟨next, tip, hprocessing, hcurrent', hcases⟩ :=
        coordinatorProcessed_cases hprocessed
      have hheight : next = height := by
        rw [hcurrent'] at hcurrent
        exact Option.some.inj hcurrent
      subst hheight
      obtain ⟨hlt, hle, hreached, hlast⟩ :=
        hresuming.processing next tip (hphase.trans hprocessing)
      have hended : LoopAction.ended { process.loops with progress := deployment.progress }
          (.coordinatorProcessed ok) = [(.coordinator, next, ok)] := by
        rw [LoopAction.ended, hcurrent]
        rfl
      refine hresuming.of_kv rfl hrunning (fun _ hmem => hmem) (List.subset_append_left _ _) ?_
        (fun tip' hreading => ?_) (fun next' tip' hprocessing' => ?_)
        (fun height' tip' hsaving => ?_)
      · rw [hended]
        exact eachAfter_concat hresuming.ordered fun _ => hreached
      · rcases hcases with ⟨_, hsaving⟩ | ⟨_, hwaiting⟩
        · cases hsaving.symm.trans hreading
        · cases hwaiting.symm.trans hreading
      · rcases hcases with ⟨_, hsaving⟩ | ⟨_, hwaiting⟩
        · cases hsaving.symm.trans hprocessing'
        · cases hwaiting.symm.trans hprocessing'
      · rcases hcases with ⟨rfl, hsaving'⟩ | ⟨_, hwaiting⟩
        · cases hsaving'.symm.trans hsaving
          refine ⟨hlt, hle, ⟨?_, .coordinator, ?_⟩, hlast⟩
          · exact hreached.mono (fun _ hmem => hmem) (List.subset_append_left _ _)
          · rw [hended]
            simp
        · cases hwaiting.symm.trans hsaving
  | coordinatorSaved result saved hsaved =>
      rw [LoopAction.ended, List.append_nil]
      obtain ⟨height, tip, hsaving, hcases⟩ := saved_or_lost hsaved
      rcases hcases with ⟨rfl, hwaiting⟩ | ⟨hresult, hnext⟩
      · refine hresuming.of_same ?_ (.inr hwaiting) hrunning (fun _ hmem => hmem)
          (fun _ hmem => hmem) hresuming.ordered
        rw [stored_of_saving hsaving, if_pos rfl]
        rfl
      · refine hresuming.of_save (hphase.trans hsaving) ?_ hrunning hnext
        rw [stored_of_saving hsaving, if_neg hresult]
        rfl

theorem resuming_step
    {operation : Operation}
    (hresuming : Resuming origin starts since deployment)
    (hresets : ¬ operation.Resets)
    (hstep : deployment.step operation = some deployment') :
    ∃ started ended, deployment'.starts = deployment.starts ++ started ∧
      deployment'.attempts = deployment.attempts ++ ended ∧
      Resuming origin (starts ++ started) (since ++ ended) deployment' := by
  cases operation with
  | starts env =>
      obtain ⟨_, config, _, rfl⟩ := starting_eq_some hstep
      refine ⟨config.startHeight.toList, [], rfl, (List.append_nil _).symm, ?_⟩
      rw [List.append_nil]
      exact hresuming.of_same rfl (.inr rfl) (List.subset_append_right _ _)
        (List.subset_append_left _ _) (fun _ hmem => hmem)
        (ordered_mono hresuming.ordered (List.subset_append_left _ _))
  | loop action =>
      obtain ⟨ended, hattempts, hstarts, hlooping⟩ := resuming_looping hresuming hstep
      refine ⟨[], ended, ?_, hattempts, ?_⟩
      · rw [hstarts, List.append_nil]
      · rwa [List.append_nil]
  | stops =>
      cases hstep
      refine ⟨[], [], (List.append_nil _).symm, (List.append_nil _).symm, ?_⟩
      rw [List.append_nil, List.append_nil]
      exact hresuming.of_same rfl (.inr rfl) (List.nil_subset _) (fun _ hmem => hmem)
        (fun _ hmem => hmem) hresuming.ordered
  | resetProgress height => exact absurd trivial hresets

theorem resuming_run
    {operations : List Operation}
    (hresuming : Resuming origin starts since deployment)
    (hresets : ∀ operation ∈ operations, ¬ operation.Resets)
    (hrun : run Deployment.step deployment operations = some deployment') :
    ∃ started ended, deployment'.starts = deployment.starts ++ started ∧
      deployment'.attempts = deployment.attempts ++ ended ∧
      Resuming origin (starts ++ started) (since ++ ended) deployment' := by
  induction operations generalizing deployment starts since with
  | nil =>
      cases hrun
      refine ⟨[], [], (List.append_nil _).symm, (List.append_nil _).symm, ?_⟩
      rwa [List.append_nil, List.append_nil]
  | cons operation rest ih =>
      obtain ⟨middle, hstep, hrest⟩ := Option.bind_eq_some_iff.mp hrun
      obtain ⟨hfirst, hresets'⟩ := List.forall_mem_cons.mp hresets
      obtain ⟨started, ended, hstarts, hattempts, hmiddle⟩ :=
        resuming_step hresuming hfirst hstep
      obtain ⟨started', ended', hstarts', hattempts', hafter⟩ := ih hmiddle hresets' hrest
      refine ⟨started ++ started', ended ++ ended', ?_, ?_, ?_⟩
      · rw [hstarts', hstarts, List.append_assoc]
      · rw [hattempts', hattempts, List.append_assoc]
      · rwa [← List.append_assoc, ← List.append_assoc]

end Resuming

/-- A reset between two passes is honoured, through any number of stops and starts: the
coordinator goes on at the height it names, leaves nothing out from there on, and the
progress never falls behind it. -/
theorem resumed_of_reset
    {height : ℕ}
    {operations : List Operation}
    {before reset after : Deployment}
    (hidle : before.Idle)
    (hreset : before.step (.resetProgress height) = some reset)
    (hresets : ∀ operation ∈ operations, ¬ operation.Resets)
    (hrun : run Deployment.step reset operations = some after) :
    ∃ starts since, after.starts = before.starts ++ starts ∧
      after.attempts = before.attempts ++ since ∧
      Resumed (if height = 0 then none else some (height - 1)) (before.running ++ starts)
        since after := by
  obtain ⟨hlt, rfl⟩ : height < 2 ^ 64 ∧
      { before with kv := resetProgress height before.kv } = reset :=
    Option.ite_none_right_eq_some.mp hreset |>.imp_right Option.some.inj
  have hstored : getLastProcessedHeight (resetProgress height before.kv) =
      .ok (if height = 0 then none else some (height - 1)) :=
    getLastProcessedHeight_reset hlt before.kv
  have hstart := resuming_start { before with kv := resetProgress height before.kv } hstored hidle
  obtain ⟨starts, since, hstarts, hattempts, hafter⟩ := resuming_run hstart hresets hrun
  exact ⟨starts, since, hstarts, hattempts, hafter.toResumed⟩

/-- The indexer is killed while it saves height 6, and started again with another start
height. -/
def stoppedOnce : List Operation :=
  [.starts fun name =>
      if name = "DATABASE_URL" then some "postgres://db"
      else if name = "START_HEIGHT" then some "1" else none,
    .loop (.pollerTip (some 6)), .loop .pollerRefreshed,
    .loop (.coordinatorTip (some 6)), .loop (.coordinatorRead true),
    .loop (.coordinatorProcessed true), .loop (.coordinatorSaved .saved),
    .loop (.coordinatorProcessed true), .stops,
    .starts fun name =>
      if name = "DATABASE_URL" then some "postgres://db"
      else if name = "START_HEIGHT" then some "9" else none,
    .loop (.pollerTip (some 6)), .loop .pollerRefreshed,
    .loop (.coordinatorTip (some 6)), .loop (.coordinatorRead true),
    .loop (.coordinatorProcessed true)]

def beforeReset : Deployment := ⟨fun _ => none, none, [], []⟩

theorem stoppedOnce_resumed :
    ∃ after, run Deployment.step { beforeReset with kv := resetProgress 5 beforeReset.kv }
        stoppedOnce = some after ∧
      after.attempts = [(.coordinator, 5, true), (.coordinator, 6, true),
        (.coordinator, 6, true)] ∧
      ∃ starts since, after.starts = beforeReset.starts ++ starts ∧
        after.attempts = beforeReset.attempts ++ since ∧
        Resumed (some 4) (beforeReset.running ++ starts) since after := by
  have hmap : (run Deployment.step { beforeReset with kv := resetProgress 5 beforeReset.kv }
      stoppedOnce).map Deployment.attempts = some [(.coordinator, 5, true),
        (.coordinator, 6, true), (.coordinator, 6, true)] := by
    decide +kernel
  obtain ⟨after, hrun, hattempts⟩ := Option.map_eq_some_iff.mp hmap
  have hreset : beforeReset.step (.resetProgress 5) =
      some { beforeReset with kv := resetProgress 5 beforeReset.kv } := rfl
  exact ⟨after, hrun, hattempts, resumed_of_reset (.inl rfl) hreset (by decide) hrun⟩

end AlkanesIndexer
