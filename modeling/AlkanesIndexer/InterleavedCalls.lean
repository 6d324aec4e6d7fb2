import AlkanesIndexer.BreakerHistory
import AlkanesIndexer.RetryWrappers
import AlkanesIndexer.Runs

/-!
# Wrapped calls that run at once

All calls of the wrappers share one circuit breaker and the permits.  A call checks the
circuit, waits for a permit and makes its attempts one by one; between its steps other
calls make theirs, on a clock that does not go back.  Whatever the others do, a call
that is not dropped ends like its wrapper alone.
-/

namespace AlkanesIndexer

open BreakerHistory RetryWrapper Runs

/-! ## The circuit breaker -/

/-- `CB_OPEN` and `CB_LAST_OPEN_MS`. -/
structure Circuit where
  cbOpen : Bool
  cbLastOpenMs : ℕ
  deriving DecidableEq, Repr

/-- `circuit_open`, with the circuit it leaves. -/
def circuitOpen (coolMs nowMs : ℕ) (circuit : Circuit) : Bool × Circuit :=
  if !circuit.cbOpen then (false, circuit)
  else
    let age := nowMs - circuit.cbLastOpenMs
    -- transition to half-open (allow a trial call)
    if age ≥ coolMs then (false, { circuit with cbOpen := false })
    else (true, circuit)

def tripCircuit (nowMs : ℕ) : Circuit := ⟨true, nowMs⟩

/-- What the calls read from the environment. -/
structure RpcConfig where
  build : Build
  settings : RetrySettings
  coolMs : ℕ
  permits : ℕ

def RpcConfig.ofEnv (build : Build) (env : String → Option String) : RpcConfig where
  build := build
  settings := .ofEnv env
  coolMs := envUnsigned env "RPC_CIRCUIT_COOLDOWN_MS" 64 5000
  permits := (((env "RPC_MAX_CONCURRENCY").bind (parseUnsigned 64)).filter
    fun permits => 1 ≤ permits ∧ permits ≤ 1024).getD 64

/-! ## Calls -/

inductive Wrapper where
  | resilientCall (method : String)
  | resilientCallWithLastError (method : String)
  | resilientProviderCall
  deriving DecidableEq, Repr

def Wrapper.final : Wrapper → CallFailure → Bool
  | .resilientCall method => isNonRetriable method
  | .resilientCallWithLastError method => isNonRetriable method
  | .resilientProviderCall => fun _ => false

def Wrapper.giveUp : Wrapper → CallFailure → String
  | .resilientCall _ => fun _ => "rpc_failed_after_retries"
  | .resilientCallWithLastError _ => fun failure =>
      "rpc_failed_after_retries: last_error=" ++ failure.message
  | .resilientProviderCall => fun _ => "provider_failed_after_retries"

/-- The wrapper of a call, and what the provider and the generator give it. -/
structure CallInput (α : Type*) where
  wrapper : Wrapper
  outcomes : ℕ → Except CallFailure α
  draws : ℕ → ℕ

inductive CallPhase (α : Type*) where
  | idle
  | waiting
  | attempting (attempt : ℕ)
  | done (report : WrapperReport α)
  | dropped

/-- The last field records what has happened at the circuit breaker. -/
structure RpcState (α : Type*) where
  clock : ℕ
  circuit : Circuit
  permits : ℕ
  phase : ℕ → CallPhase α
  log : List (Event ℕ)

inductive CallStep where
  | checks
  | acquires
  | attempts
  | drops
  deriving DecidableEq, Repr

structure RpcAction where
  nowMs : ℕ
  call : ℕ
  step : CallStep
  deriving DecidableEq, Repr

variable {α : Type*}

/-- How the call ends with the pass behind `attempt` earlier attempts, unless it goes
on. -/
def endingPass
    (config : RpcConfig)
    (input : CallInput α)
    (attempt : ℕ) : Option (WrapperReport α) :=
  match input.outcomes attempt with
  | .ok value => some ⟨.returned value, attempt + 1, false⟩
  | .error failure =>
      if input.wrapper.final failure then some ⟨.failed failure.message, attempt + 1, false⟩
      else if attempt + 1 ≥ config.settings.maxAttempts then
        some ⟨.failed (input.wrapper.giveUp failure), attempt + 1, true⟩
      else
        match backoffDelay config.build config.settings (attempt + 1) (input.draws attempt) with
        | .error panic => some ⟨.panicked panic, attempt + 1, false⟩
        | .ok _ => none

namespace RpcState

def start (config : RpcConfig) : RpcState α where
  clock := 0
  circuit := ⟨false, 0⟩
  permits := config.permits
  phase := fun _ => .idle
  log := []

def logs (state : RpcState α) (call : ℕ) (kind : Kind) : RpcState α :=
  { state with log := state.log ++ [⟨state.clock, call, kind⟩] }

def enters (state : RpcState α) (call : ℕ) (phase : CallPhase α) : RpcState α :=
  { state with phase := Function.update state.phase call phase }

def checks (config : RpcConfig) (state : RpcState α) (call : ℕ) : Option (RpcState α) :=
  match state.phase call with
  | .idle =>
      let result := circuitOpen config.coolMs state.clock state.circuit
      if result.1 then some ((state.logs call .rejected).enters call (.done circuitReport))
      else
        some (({ state with circuit := result.2 }.logs call .admitted).enters call .waiting)
  | _ => none

def acquires (state : RpcState α) (call : ℕ) : Option (RpcState α) :=
  match state.phase call with
  | .waiting =>
      if state.permits = 0 then none
      else some ({ state with permits := state.permits - 1 }.enters call (.attempting 0))
  | _ => none

/-- A call that gives up trips the circuit; then it returns, and its permit is free. -/
def returns (state : RpcState α) (call : ℕ) (report : WrapperReport α) : RpcState α :=
  let tripped :=
    if report.tripped then { state with circuit := tripCircuit state.clock }.logs call .tripped
    else state
  ({ tripped with permits := tripped.permits + 1 }.logs call .ended).enters call (.done report)

def attempts
    (config : RpcConfig)
    (inputs : ℕ → CallInput α)
    (state : RpcState α)
    (call : ℕ) : Option (RpcState α) :=
  match state.phase call with
  | .attempting attempt =>
      match endingPass config (inputs call) attempt with
      | none => some (state.enters call (.attempting (attempt + 1)))
      | some report => some (state.returns call report)
  | _ => none

/-- The future of a call may be dropped while it waits. -/
def drops (state : RpcState α) (call : ℕ) : Option (RpcState α) :=
  match state.phase call with
  | .waiting => some ((state.logs call .ended).enters call .dropped)
  | .attempting _ =>
      some (({ state with permits := state.permits + 1 }.logs call .ended).enters call .dropped)
  | _ => none

def step
    (config : RpcConfig)
    (inputs : ℕ → CallInput α)
    (state : RpcState α)
    (action : RpcAction) : Option (RpcState α) :=
  if action.nowMs < state.clock then none
  else
    let timed := { state with clock := action.nowMs }
    match action.step with
    | .checks => timed.checks config action.call
    | .acquires => timed.acquires action.call
    | .attempts => timed.attempts config inputs action.call
    | .drops => timed.drops action.call

/-! ## What a step does -/

/-- One constructor for each way a call goes on, with the state that results. -/
inductive Steps
    (config : RpcConfig)
    (inputs : ℕ → CallInput α)
    (state : RpcState α)
    (call : ℕ) : RpcState α → Prop where
  | rejected
      (hphase : state.phase call = .idle)
      (hopen : (circuitOpen config.coolMs state.clock state.circuit).1 = true) :
      state.Steps config inputs call ((state.logs call .rejected).enters call (.done circuitReport))
  | admitted
      (circuit' : Circuit)
      (hphase : state.phase call = .idle)
      (hclosed : circuitOpen config.coolMs state.clock state.circuit = (false, circuit')) :
      state.Steps config inputs call
        (({ state with circuit := circuit' }.logs call .admitted).enters call .waiting)
  | acquired
      (hphase : state.phase call = .waiting)
      (hpermits : state.permits ≠ 0) :
      state.Steps config inputs call
        ({ state with permits := state.permits - 1 }.enters call (.attempting 0))
  | wentOn
      (attempt : ℕ)
      (hphase : state.phase call = .attempting attempt)
      (hpass : endingPass config (inputs call) attempt = none) :
      state.Steps config inputs call (state.enters call (.attempting (attempt + 1)))
  | returned
      (attempt : ℕ)
      (report : WrapperReport α)
      (hphase : state.phase call = .attempting attempt)
      (hpass : endingPass config (inputs call) attempt = some report) :
      state.Steps config inputs call (state.returns call report)
  | dropped
      (permits' : ℕ)
      (hphase : state.phase call = .waiting ∨ ∃ attempt, state.phase call = .attempting attempt) :
      state.Steps config inputs call
        (({ state with permits := permits' }.logs call .ended).enters call .dropped)

section Step

variable
  {config : RpcConfig}
  {inputs : ℕ → CallInput α}
  {state state' : RpcState α}
  {action : RpcAction}
  {call : ℕ}

theorem steps_of_checks
    (hchecks : state.checks config call = some state') :
    state.Steps config inputs call state' := by
  unfold checks at hchecks
  split at hchecks
  next hphase =>
    dsimp only at hchecks
    split at hchecks
    next hopen =>
      cases hchecks
      exact .rejected hphase hopen
    next hclosed =>
      cases hchecks
      rw [Bool.not_eq_true] at hclosed
      exact .admitted _ hphase (Prod.ext hclosed rfl)
  next => cases hchecks

theorem steps_of_acquires
    (hacquires : state.acquires call = some state') :
    state.Steps config inputs call state' := by
  unfold acquires at hacquires
  split at hacquires
  next hphase =>
    obtain ⟨hpermits, hrest⟩ := Option.ite_none_left_eq_some.mp hacquires
    cases hrest
    exact .acquired hphase hpermits
  next => cases hacquires

theorem steps_of_attempts
    (hattempts : state.attempts config inputs call = some state') :
    state.Steps config inputs call state' := by
  unfold attempts at hattempts
  split at hattempts
  next attempt hphase =>
    split at hattempts
    next hpass =>
      cases hattempts
      exact .wentOn attempt hphase hpass
    next report hpass =>
      cases hattempts
      exact .returned attempt report hphase hpass
  next => cases hattempts

theorem steps_of_drops
    (hdrops : state.drops call = some state') :
    state.Steps config inputs call state' := by
  unfold drops at hdrops
  split at hdrops
  next hphase =>
    cases hdrops
    exact .dropped state.permits (.inl hphase)
  next attempt hphase =>
    cases hdrops
    exact .dropped (state.permits + 1) (.inr ⟨attempt, hphase⟩)
  next => cases hdrops

theorem steps_of_step
    (hstep : state.step config inputs action = some state') :
    state.clock ≤ action.nowMs ∧
      { state with clock := action.nowMs }.Steps config inputs action.call state' := by
  obtain ⟨hclock, hrest⟩ := Option.ite_none_left_eq_some.mp hstep
  refine ⟨Nat.not_lt.mp hclock, ?_⟩
  cases hkind : action.step with
  | checks =>
      simp only [hkind] at hrest
      exact steps_of_checks hrest
  | acquires =>
      simp only [hkind] at hrest
      exact steps_of_acquires hrest
  | attempts =>
      simp only [hkind] at hrest
      exact steps_of_attempts hrest
  | drops =>
      simp only [hkind] at hrest
      exact steps_of_drops hrest

/-! ## Each call on its own -/

theorem enters_phase_self
    (phase : CallPhase α) :
    (state.enters call phase).phase call = phase := by
  unfold enters
  exact Function.update_self _ _ _

theorem enters_phase_of_ne
    {other : ℕ}
    (hne : other ≠ call)
    (phase : CallPhase α) :
    (state.enters call phase).phase other = state.phase other := by
  unfold enters
  exact Function.update_of_ne hne _ _

theorem returns_phase_self
    (report : WrapperReport α) :
    (state.returns call report).phase call = .done report :=
  enters_phase_self _

theorem returns_phase_of_ne
    {other : ℕ}
    (hne : other ≠ call)
    (report : WrapperReport α) :
    (state.returns call report).phase other = state.phase other := by
  unfold returns
  rw [enters_phase_of_ne hne]
  cases htripped : report.tripped <;> simp [logs]

theorem phase_of_ne
    {other : ℕ}
    (hsteps : state.Steps config inputs call state')
    (hne : other ≠ call) :
    state'.phase other = state.phase other := by
  cases hsteps with
  | returned attempt report => exact returns_phase_of_ne hne report
  | _ => exact enters_phase_of_ne hne _

end Step

end RpcState

/-- The call has found the circuit open. -/
def Rejected (log : List (Event ℕ)) (call : ℕ) : Prop :=
  ∃ event ∈ log, event.call = call ∧ event.kind = .rejected

instance (log : List (Event ℕ)) (call : ℕ) : Decidable (Rejected log call) :=
  inferInstanceAs (Decidable (∃ event ∈ log, _))

/-- What a call has come to, beside a loop that makes the same passes. -/
def CallPhase.Follows
    (loop : ℕ → WrapperReport α)
    (rejected : Prop) : CallPhase α → Prop
  | .idle => ¬ rejected
  | .waiting => ¬ rejected
  | .attempting attempt => ¬ rejected ∧ loop 0 = loop attempt
  | .done report => rejected ∧ report = circuitReport ∨ ¬ rejected ∧ report = loop 0
  | .dropped => True

section Alone

variable
  {config : RpcConfig}
  {inputs : ℕ → CallInput α}
  {state state' : RpcState α}
  {call : ℕ}
  {loop : ℕ → WrapperReport α}

theorem rejected_concat
    {log : List (Event ℕ)}
    {time actor : ℕ}
    {kind : Kind} :
    Rejected (log ++ [⟨time, actor, kind⟩]) call ↔
      Rejected log call ∨ actor = call ∧ kind = .rejected := by
  simp [Rejected, or_and_right, exists_or]

theorem rejected_returns
    (report : WrapperReport α)
    (actor : ℕ) :
    Rejected (state.returns actor report).log call ↔ Rejected state.log call := by
  have hended : ∀ log : List (Event ℕ),
      Rejected (log ++ [⟨state.clock, actor, .ended⟩]) call ↔ Rejected log call := by
    intro log
    simp [rejected_concat]
  have htripped : Rejected (state.log ++ [⟨state.clock, actor, .tripped⟩]) call ↔
      Rejected state.log call := by
    simp [rejected_concat]
  unfold RpcState.returns
  cases report.tripped with
  | false => exact hended state.log
  | true => exact (hended _).trans htripped

theorem rejected_of_ne
    {actor : ℕ}
    (hsteps : state.Steps config inputs actor state')
    (hne : call ≠ actor) :
    Rejected state'.log call ↔ Rejected state.log call := by
  cases hsteps with
  | returned attempt report => exact rejected_returns report actor
  | _ => simp [RpcState.enters, RpcState.logs, rejected_concat, hne.symm]

theorem follows_step
    (hpass : ∀ attempt,
      loop attempt = (endingPass config (inputs call) attempt).getD (loop (attempt + 1)))
    (hfollows : (state.phase call).Follows loop (Rejected state.log call))
    {actor : ℕ}
    (hsteps : state.Steps config inputs actor state') :
    (state'.phase call).Follows loop (Rejected state'.log call) := by
  by_cases hactor : call = actor
  · subst hactor
    cases hsteps with
    | rejected =>
        rw [RpcState.enters_phase_self]
        exact .inl ⟨rejected_concat.mpr (.inr ⟨rfl, rfl⟩), rfl⟩
    | admitted circuit' hphase =>
        rw [RpcState.enters_phase_self]
        rw [hphase] at hfollows
        intro hrejected
        exact hfollows ((rejected_concat.mp hrejected).resolve_right (by simp))
    | acquired hphase =>
        rw [RpcState.enters_phase_self]
        rw [hphase] at hfollows
        exact ⟨hfollows, rfl⟩
    | wentOn attempt hphase hending =>
        rw [RpcState.enters_phase_self]
        rw [hphase] at hfollows
        have hnext := hpass attempt
        rw [hending, Option.getD_none] at hnext
        exact ⟨hfollows.1, hfollows.2.trans hnext⟩
    | returned attempt report hphase hending =>
        rw [RpcState.returns_phase_self, rejected_returns]
        rw [hphase] at hfollows
        have hlast := hpass attempt
        rw [hending, Option.getD_some] at hlast
        exact .inr ⟨hfollows.1, (hfollows.2.trans hlast).symm⟩
    | dropped =>
        rw [RpcState.enters_phase_self]
        trivial
  · rwa [RpcState.phase_of_ne hsteps hactor, rejected_of_ne hsteps hactor]

/-- In every interleaving a call that is done was rejected, or has come to what its
passes come to on their own. -/
theorem done_of_run
    (hpass : ∀ attempt,
      loop attempt = (endingPass config (inputs call) attempt).getD (loop (attempt + 1)))
    {actions : List RpcAction}
    (hrun : run (RpcState.step config inputs) (.start config) actions = some state')
    {report : WrapperReport α}
    (hdone : state'.phase call = .done report) :
    Rejected state'.log call ∧ report = circuitReport ∨
      ¬ Rejected state'.log call ∧ report = loop 0 := by
  have hstart : ¬ Rejected (RpcState.start config : RpcState α).log call := by
    simp [RpcState.start, Rejected]
  have hfollows : (state'.phase call).Follows loop (Rejected state'.log call) := by
    refine invariant_of_run
      (P := fun state => (state.phase call).Follows loop (Rejected state.log call))
      (fun state action state' hfollows hstep => ?_) hstart hrun
    refine follows_step hpass ?_ (RpcState.steps_of_step hstep).2
    exact hfollows
  rw [hdone] at hfollows
  exact hfollows

end Alone

/-- The wrapper of a call with the whole of its loop. -/
def CallInput.alone
    (config : RpcConfig)
    (input : CallInput JsonValue)
    (circuitOpen : Bool) : WrapperReport JsonValue :=
  match input.wrapper with
  | .resilientCall method =>
      resilientCall config.build config.settings input.draws method ⟨circuitOpen, input.outcomes⟩
  | .resilientCallWithLastError method =>
      RetryWrapper.resilientCallWithLastError config.build config.settings input.draws method
        ⟨circuitOpen, input.outcomes⟩
  | .resilientProviderCall =>
      resilientProviderCall config.build config.settings input.draws
        ⟨circuitOpen, input.outcomes⟩

theorem pass_eq_endingPass
    (config : RpcConfig)
    (input : CallInput α)
    (attempt : ℕ)
    (rest : WrapperReport α) :
    RetryWrapper.pass config.build config.settings input.draws input.wrapper.final
        input.wrapper.giveUp attempt rest (input.outcomes attempt) =
      (endingPass config input attempt).getD rest := by
  unfold RetryWrapper.pass endingPass
  cases input.outcomes attempt with
  | ok value => rfl
  | error failure =>
      dsimp only
      split
      · rfl
      · split
        · rfl
        · cases backoffDelay config.build config.settings (attempt + 1) (input.draws attempt) <;>
            rfl

/-- In every interleaving a call ends like its wrapper alone, with the circuit as its
check has found it. -/
theorem alone_of_run
    {config : RpcConfig}
    {inputs : ℕ → CallInput JsonValue}
    {actions : List RpcAction}
    {state' : RpcState JsonValue}
    (hrun : run (RpcState.step config inputs) (.start config) actions = some state')
    {call : ℕ}
    {report : WrapperReport JsonValue}
    (hdone : state'.phase call = .done report) :
    report = (inputs call).alone config (Rejected state'.log call) := by
  have hopen : (inputs call).alone config true = circuitReport := by
    unfold CallInput.alone
    split <;> rfl
  obtain ⟨loop, hloop, hpass⟩ : ∃ loop : ℕ → WrapperReport JsonValue,
      (inputs call).alone config false = loop 0 ∧ ∀ attempt,
        loop attempt = (endingPass config (inputs call) attempt).getD (loop (attempt + 1)) := by
    simp only [← pass_eq_endingPass]
    unfold CallInput.alone
    cases hwrapper : (inputs call).wrapper with
    | resilientCall method =>
        exact ⟨_, rfl, resilientCallLoop_eq_pass (inputs call).outcomes⟩
    | resilientCallWithLastError method =>
        exact ⟨_, rfl, resilientCallWithLastErrorLoop_eq_pass (inputs call).outcomes⟩
    | resilientProviderCall =>
        exact ⟨_, rfl, resilientProviderCallLoop_eq_pass (inputs call).outcomes⟩
  rcases done_of_run hpass hrun hdone with ⟨hrejected, rfl⟩ | ⟨hadmitted, rfl⟩
  · rw [decide_eq_true hrejected, hopen]
  · rw [decide_eq_false hadmitted, hloop]

def oneAttempt : RpcConfig :=
  .ofEnv .debug fun name => if name = "RPC_MAX_RETRIES" then some "1" else none

def timesOut : ℕ → CallInput JsonValue := fun _ =>
  ⟨.resilientCall "esplora_tx", fun _ => .error .timeout, fun _ => 0⟩

/-- The first call gives up and trips the circuit, and the second one finds it open. -/
theorem timesOut_alone :
    ∃ state', run (RpcState.step oneAttempt timesOut) (.start oneAttempt)
        [⟨0, 0, .checks⟩, ⟨0, 0, .acquires⟩, ⟨9, 0, .attempts⟩, ⟨9, 1, .checks⟩] = some state' ∧
      ⟨.failed "rpc_failed_after_retries", 1, true⟩ =
        (timesOut 0).alone oneAttempt (Rejected state'.log 0) ∧
      circuitReport = (timesOut 1).alone oneAttempt (Rejected state'.log 1) := by
  have hmap : (run (RpcState.step oneAttempt timesOut) (.start oneAttempt)
      [⟨0, 0, .checks⟩, ⟨0, 0, .acquires⟩, ⟨9, 0, .attempts⟩, ⟨9, 1, .checks⟩]).map
        (fun state => (state.phase 0, state.phase 1)) =
      some (.done ⟨.failed "rpc_failed_after_retries", 1, true⟩, .done circuitReport) := rfl
  obtain ⟨state', hrun, hphases⟩ := Option.map_eq_some_iff.mp hmap
  obtain ⟨hfirst, hsecond⟩ := Prod.mk.inj hphases
  exact ⟨state', hrun, alone_of_run hrun hfirst, alone_of_run hrun hsecond⟩

end AlkanesIndexer
