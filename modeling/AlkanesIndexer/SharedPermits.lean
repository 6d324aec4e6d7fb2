import AlkanesIndexer.InterleavedCalls
import AlkanesIndexer.PermitPool

/-!
# The permits of the interleaved calls

`GLOBAL_PERMITS` lets as many calls attempt at once as the environment allows.  A call
holds its permit from its first attempt until it returns, panics or is dropped, so in
every interleaving no permit is lost and none is made.  A call never waits while it holds
one: the attempts of a call come to an end on their own, and the next one gets its permit.
-/

namespace AlkanesIndexer

open PermitPool RetryWrapper Runs

variable {α : Type*}

/-! ## Who holds a permit -/

def CallPhase.Attempts (phase : CallPhase α) : Prop := ∃ attempt, phase = .attempting attempt

/-- Admitted by the circuit, and neither done nor dropped. -/
def CallPhase.Pending (phase : CallPhase α) : Prop := phase = .waiting ∨ phase.Attempts

@[simp]
theorem attempts_attempting
    (attempt : ℕ) :
    (CallPhase.attempting attempt : CallPhase α).Attempts :=
  ⟨attempt, rfl⟩

@[simp]
theorem not_attempts_idle :
    ¬ (CallPhase.idle : CallPhase α).Attempts :=
  nofun

@[simp]
theorem not_attempts_waiting :
    ¬ (CallPhase.waiting : CallPhase α).Attempts :=
  nofun

@[simp]
theorem not_attempts_done
    (report : WrapperReport α) :
    ¬ (CallPhase.done report).Attempts :=
  nofun

@[simp]
theorem not_attempts_dropped :
    ¬ (CallPhase.dropped : CallPhase α).Attempts :=
  nofun

/-- What a step does to the permits: the call takes a free one, gives its own back, or
does neither. -/
inductive RpcState.MovesPermit (state : RpcState α) (call : ℕ) (state' : RpcState α) : Prop where
  | takes
      (hbefore : ¬ (state.phase call).Attempts)
      (hafter : (state'.phase call).Attempts)
      (hpermits : state.permits = state'.permits + 1)
  | gives
      (hbefore : (state.phase call).Attempts)
      (hafter : ¬ (state'.phase call).Attempts)
      (hpermits : state'.permits = state.permits + 1)
  | keeps
      (hsame : (state'.phase call).Attempts ↔ (state.phase call).Attempts)
      (hpermits : state'.permits = state.permits)

section Moves

variable
  {config : RpcConfig}
  {inputs : ℕ → CallInput α}
  {state state' : RpcState α}
  {action : RpcAction}
  {call : ℕ}

theorem movesPermit_of_checks
    (hchecks : state.checks config call = some state') :
    state.MovesPermit call state' := by
  unfold RpcState.checks at hchecks
  split at hchecks
  next hphase =>
    dsimp only at hchecks
    split at hchecks
    all_goals
      cases hchecks
      refine .keeps ?_ rfl
      rw [RpcState.enters_phase_self, hphase]
      simp
  next => cases hchecks

theorem movesPermit_of_acquires
    (hacquires : state.acquires call = some state') :
    state.MovesPermit call state' := by
  unfold RpcState.acquires at hacquires
  split at hacquires
  next hphase =>
    obtain ⟨hpermits, hrest⟩ := Option.ite_none_left_eq_some.mp hacquires
    cases hrest
    refine .takes ?_ ?_ ?_
    · rw [hphase]
      simp
    · rw [RpcState.enters_phase_self]
      simp
    · change state.permits = state.permits - 1 + 1
      omega
  next => cases hacquires

theorem returns_permits
    (report : WrapperReport α) :
    (state.returns call report).permits = state.permits + 1 := by
  unfold RpcState.returns
  cases report.tripped <;> rfl

theorem movesPermit_of_attempts
    (hattempts : state.attempts config inputs call = some state') :
    state.MovesPermit call state' := by
  unfold RpcState.attempts at hattempts
  split at hattempts
  next attempt hphase =>
    split at hattempts
    next =>
      cases hattempts
      refine .keeps ?_ rfl
      rw [RpcState.enters_phase_self, hphase]
      simp
    next report _ =>
      cases hattempts
      refine .gives ?_ ?_ (returns_permits report)
      · rw [hphase]
        simp
      · rw [RpcState.returns_phase_self]
        simp
  next => cases hattempts

theorem movesPermit_of_drops
    (hdrops : state.drops call = some state') :
    state.MovesPermit call state' := by
  unfold RpcState.drops at hdrops
  split at hdrops
  next hphase =>
    cases hdrops
    refine .keeps ?_ rfl
    rw [RpcState.enters_phase_self, hphase]
    simp
  next attempt hphase =>
    cases hdrops
    refine .gives ?_ ?_ rfl
    · rw [hphase]
      simp
    · rw [RpcState.enters_phase_self]
      simp
  next => cases hdrops

theorem movesPermit_of_step
    (hstep : state.step config inputs action = some state') :
    state.MovesPermit action.call state' := by
  obtain ⟨_, hrest⟩ := Option.ite_none_left_eq_some.mp hstep
  have hmoves : { state with clock := action.nowMs }.MovesPermit action.call state' := by
    cases hkind : action.step with
    | checks =>
        simp only [hkind] at hrest
        exact movesPermit_of_checks hrest
    | acquires =>
        simp only [hkind] at hrest
        exact movesPermit_of_acquires hrest
    | attempts =>
        simp only [hkind] at hrest
        exact movesPermit_of_attempts hrest
    | drops =>
        simp only [hkind] at hrest
        exact movesPermit_of_drops hrest
  cases hmoves with
  | takes hbefore hafter hpermits => exact .takes hbefore hafter hpermits
  | gives hbefore hafter hpermits => exact .gives hbefore hafter hpermits
  | keeps hsame hpermits => exact .keeps hsame hpermits

theorem phase_of_step_of_ne
    (hstep : state.step config inputs action = some state')
    {other : ℕ}
    (hne : other ≠ action.call) :
    state'.phase other = state.phase other := by
  have hphase := RpcState.phase_of_ne (RpcState.steps_of_step hstep).2 hne
  exact hphase

end Moves

/-! ## No permit is lost -/

def RpcState.PermitsAccounted (total : ℕ) (state : RpcState α) : Prop :=
  Accounted (fun call => (state.phase call).Attempts) state.permits total

section Run

variable
  {config : RpcConfig}
  {inputs : ℕ → CallInput α}
  {state state' : RpcState α}
  {action : RpcAction}
  {total : ℕ}

theorem permitsAccounted_step
    (haccounted : state.PermitsAccounted total)
    (hstep : state.step config inputs action = some state') :
    state'.PermitsAccounted total := by
  have hothers : ∀ other ≠ action.call,
      (state'.phase other).Attempts ↔ (state.phase other).Attempts := by
    intro other hne
    rw [phase_of_step_of_ne hstep hne]
  unfold RpcState.PermitsAccounted at haccounted ⊢
  cases movesPermit_of_step hstep with
  | takes hbefore hafter hpermits =>
      rw [hpermits] at haccounted
      exact haccounted.take hbefore hafter hothers
  | gives hbefore hafter hpermits =>
      rw [hpermits]
      exact haccounted.give hbefore hafter hothers
  | keeps hsame hpermits =>
      rw [hpermits]
      refine haccounted.congr fun call => ?_
      by_cases hcall : call = action.call
      · rw [hcall]
        exact hsame
      · exact hothers call hcall

theorem permitsAccounted_of_run
    {actions : List RpcAction}
    (hrun : run (RpcState.step config inputs) (.start config) actions = some state') :
    state'.PermitsAccounted config.permits := by
  refine invariant_of_run (P := RpcState.PermitsAccounted config.permits)
    (fun state action state' haccounted hstep => permitsAccounted_step haccounted hstep) ?_ hrun
  exact accounted_start fun _ => not_attempts_idle

theorem permits_ofEnv
    (build : Build)
    (env : String → Option String) :
    1 ≤ (RpcConfig.ofEnv build env).permits ∧ (RpcConfig.ofEnv build env).permits ≤ 1024 := by
  change 1 ≤ (Option.filter _ _).getD 64 ∧ (Option.filter _ _).getD 64 ≤ 1024
  cases hfilter : Option.filter (fun permits => decide (1 ≤ permits ∧ permits ≤ 1024))
      ((env "RPC_MAX_CONCURRENCY").bind (parseUnsigned 64)) with
  | none => decide
  | some permits => exact of_decide_eq_true (Option.filter_eq_some_iff.mp hfilter).2

/-- In every interleaving the calls that attempt and the free permits make up what the
environment allows, and when no call attempts every permit is free. -/
theorem permits_of_run
    {build : Build}
    {env : String → Option String}
    {actions : List RpcAction}
    (hrun : run (RpcState.step (.ofEnv build env) inputs) (.start (.ofEnv build env)) actions =
      some state') :
    state'.PermitsAccounted (RpcConfig.ofEnv build env).permits ∧
      (∀ calls : Finset ℕ, (∀ call ∈ calls, (state'.phase call).Attempts) →
        calls.card ≤ 1024) ∧
      ((∀ call, ¬ (state'.phase call).Attempts) →
        state'.permits = (RpcConfig.ofEnv build env).permits) := by
  have haccounted := permitsAccounted_of_run hrun
  refine ⟨haccounted, fun calls hcalls => ?_, haccounted.free_of_none⟩
  have hcard := haccounted.card_le hcalls
  have hpermits := (permits_ofEnv build env).2
  omega

end Run

/-! ### Two calls and one permit -/

def singlePermit : String → Option String := fun name =>
  if name = "RPC_MAX_CONCURRENCY" then some "1" else none

def answered : ℕ → CallInput JsonValue := fun _ =>
  ⟨.resilientProviderCall, fun _ => .ok .null, fun _ => 0⟩

/-- The first call attempts, the second one waits. -/
def oneWaits : Option (RpcState JsonValue) :=
  run (RpcState.step (.ofEnv .release singlePermit) answered)
    (.start (.ofEnv .release singlePermit))
    [⟨0, 0, .checks⟩, ⟨0, 1, .checks⟩, ⟨0, 0, .acquires⟩]

theorem oneWaits_permits :
    ∃ state', oneWaits = some state' ∧ state'.permits = 0 ∧ state'.PermitsAccounted 1 := by
  have hmap : oneWaits.map RpcState.permits = some 0 := by decide
  obtain ⟨state', hrun, hpermits⟩ := Option.map_eq_some_iff.mp hmap
  have hone : (RpcConfig.ofEnv .release singlePermit).permits = 1 := by decide
  exact ⟨state', hrun, hpermits, hone ▸ (permits_of_run hrun).1⟩

/-! ## No call is stuck -/

/-- A bound on the steps a call still makes, with at most `limit` attempts. -/
def CallPhase.stepsLeft (limit : ℕ) : CallPhase α → ℕ
  | .waiting => max 1 limit + 1
  | .attempting attempt => max 1 (limit - attempt)
  | _ => 0

def RpcState.stepsLeft (limit : ℕ) (calls : Finset ℕ) (state : RpcState α) : ℕ :=
  ∑ call ∈ calls, (state.phase call).stepsLeft limit

/-- The steps of an admitted call that is not dropped. -/
def RpcAction.GoesOn (action : RpcAction) : Prop :=
  action.step = .acquires ∨ action.step = .attempts

section Progress

variable
  {config : RpcConfig}
  {inputs : ℕ → CallInput α}
  {state state' : RpcState α}
  {action : RpcAction}
  {calls : Finset ℕ}
  {total : ℕ}

theorem stepsLeft_le
    (limit : ℕ)
    (phase : CallPhase α) :
    phase.stepsLeft limit ≤ max 1 limit + 1 := by
  cases phase <;> simp only [CallPhase.stepsLeft] <;> omega

theorem stepsLeft_eq_zero_iff
    {limit : ℕ}
    {phase : CallPhase α} :
    phase.stepsLeft limit = 0 ↔ ¬ phase.Pending := by
  cases phase with
  | waiting => simp [CallPhase.stepsLeft, CallPhase.Pending]
  | attempting attempt =>
      have hpositive : max 1 (limit - attempt) ≠ 0 := by omega
      simp [CallPhase.stepsLeft, CallPhase.Pending]
  | idle | done report | dropped => simp [CallPhase.stepsLeft, CallPhase.Pending]

theorem lt_of_endingPass_eq_none
    {input : CallInput α}
    {attempt : ℕ}
    (hpass : endingPass config input attempt = none) :
    attempt + 1 < config.settings.maxAttempts := by
  unfold endingPass at hpass
  split at hpass
  · cases hpass
  · split at hpass
    · cases hpass
    · split at hpass
      · cases hpass
      next hlimit => omega

/-- A step of an admitted call brings it closer to its end. -/
theorem goesOn_cases
    (hgoesOn : action.GoesOn)
    (hstep : state.step config inputs action = some state') :
    (state.phase action.call).Pending ∧
      ((state'.phase action.call).Pending ∨ ∃ report, state'.phase action.call = .done report) ∧
      (state'.phase action.call).stepsLeft config.settings.maxAttempts <
        (state.phase action.call).stepsLeft config.settings.maxAttempts := by
  obtain ⟨_, hrest⟩ := Option.ite_none_left_eq_some.mp hstep
  rcases hgoesOn with hkind | hkind
  · simp only [hkind, RpcState.acquires] at hrest
    split at hrest
    next hphase =>
      obtain ⟨_, hrest⟩ := Option.ite_none_left_eq_some.mp hrest
      cases hrest
      change state.phase action.call = .waiting at hphase
      rw [RpcState.enters_phase_self, hphase]
      refine ⟨.inl rfl, .inl (.inr (attempts_attempting 0)), ?_⟩
      simp only [CallPhase.stepsLeft]
      omega
    next => cases hrest
  · simp only [hkind, RpcState.attempts] at hrest
    split at hrest
    next attempt hphase =>
      change state.phase action.call = .attempting attempt at hphase
      rw [hphase]
      refine ⟨.inr (attempts_attempting attempt), ?_⟩
      split at hrest
      next hpass =>
        cases hrest
        have hlimit := lt_of_endingPass_eq_none hpass
        rw [RpcState.enters_phase_self]
        refine ⟨.inl (.inr (attempts_attempting (attempt + 1))), ?_⟩
        simp only [CallPhase.stepsLeft]
        omega
      next report _ =>
        cases hrest
        rw [RpcState.returns_phase_self]
        refine ⟨.inr ⟨report, rfl⟩, ?_⟩
        simp only [CallPhase.stepsLeft]
        omega
    next => cases hrest

theorem stepsLeft_lt_of_goesOn
    (hcalls : ∀ call, (state.phase call).Pending → call ∈ calls)
    (hgoesOn : action.GoesOn)
    (hstep : state.step config inputs action = some state') :
    state'.stepsLeft config.settings.maxAttempts calls <
      state.stepsLeft config.settings.maxAttempts calls := by
  obtain ⟨hpending, _, hlower⟩ := goesOn_cases hgoesOn hstep
  refine Finset.sum_lt_sum (fun call _ => ?_) ⟨action.call, hcalls _ hpending, hlower⟩
  by_cases hcall : call = action.call
  · rw [hcall]
    exact hlower.le
  · rw [phase_of_step_of_ne hstep hcall]

theorem pending_of_goesOn
    (hgoesOn : action.GoesOn)
    (hstep : state.step config inputs action = some state')
    {call : ℕ}
    (hpending : (state'.phase call).Pending) :
    (state.phase call).Pending := by
  by_cases hcall : call = action.call
  · rw [hcall]
    exact (goesOn_cases hgoesOn hstep).1
  · rwa [phase_of_step_of_ne hstep hcall] at hpending

/-- As long as a call is pending some pending call can make its next step. -/
theorem exists_goesOn
    (hpermits : 1 ≤ total)
    (haccounted : state.PermitsAccounted total)
    (hpending : ∃ call, (state.phase call).Pending) :
    ∃ action state', action.GoesOn ∧ state.step config inputs action = some state' := by
  by_cases hattempts : ∃ call, (state.phase call).Attempts
  · obtain ⟨call, attempt, hphase⟩ := hattempts
    have hnext : ∃ state', state.attempts config inputs call = some state' := by
      unfold RpcState.attempts
      rw [hphase]
      dsimp only
      split
      · exact ⟨_, rfl⟩
      · exact ⟨_, rfl⟩
    obtain ⟨state', hstate'⟩ := hnext
    refine ⟨⟨state.clock, call, .attempts⟩, state', .inr rfl, ?_⟩
    unfold RpcState.step
    rw [if_neg (lt_irrefl _)]
    exact hstate'
  · have hnone := not_exists.mp hattempts
    have hfree : state.permits = total := haccounted.free_of_none hnone
    obtain ⟨call, hcall⟩ := hpending
    have hphase : state.phase call = .waiting := hcall.resolve_right (hnone call)
    have hnext : ∃ state', state.acquires call = some state' := by
      unfold RpcState.acquires
      rw [hphase]
      dsimp only
      rw [if_neg (by omega)]
      exact ⟨_, rfl⟩
    obtain ⟨state', hstate'⟩ := hnext
    refine ⟨⟨state.clock, call, .acquires⟩, state', .inl rfl, ?_⟩
    unfold RpcState.step
    rw [if_neg (lt_irrefl _)]
    exact hstate'

theorem finitelyMany_pending
    {actions : List RpcAction}
    (hrun : run (RpcState.step config inputs) (.start config) actions = some state') :
    ∃ pending : Finset ℕ, ∀ call, call ∈ pending ↔ (state'.phase call).Pending := by
  classical
  have hfinite : ∃ calls : Finset ℕ, ∀ call, (state'.phase call).Pending → call ∈ calls := by
    refine invariant_of_run
      (P := fun state => ∃ calls : Finset ℕ, ∀ call, (state.phase call).Pending → call ∈ calls)
      (fun state action state' hcalls hstep => ?_) ⟨∅, fun call hpending => ?_⟩ hrun
    · obtain ⟨calls, hcalls⟩ := hcalls
      refine ⟨insert action.call calls, fun call hpending => Finset.mem_insert.mpr ?_⟩
      by_cases hcall : call = action.call
      · exact .inl hcall
      · rw [phase_of_step_of_ne hstep hcall] at hpending
        exact .inr (hcalls call hpending)
    · exact absurd hpending (by simp [RpcState.start, CallPhase.Pending])
  obtain ⟨calls, hcalls⟩ := hfinite
  refine ⟨calls.filter fun call => (state'.phase call).Pending, fun call => ?_⟩
  rw [Finset.mem_filter]
  exact ⟨And.right, fun hpending => ⟨hcalls call hpending, hpending⟩⟩

/-- While the pending calls make their steps: they are still pending or have returned,
no other call comes to be pending, and the permits are accounted for. -/
structure RpcState.Draining
    (total : ℕ)
    (pending : Finset ℕ)
    (state : RpcState α) : Prop where
  accounted : state.PermitsAccounted total
  others : ∀ call, (state.phase call).Pending → call ∈ pending
  ended : ∀ call ∈ pending, (state.phase call).Pending ∨ ∃ report, state.phase call = .done report

theorem draining_step
    {pending : Finset ℕ}
    (hdraining : state.Draining total pending)
    (hgoesOn : action.GoesOn)
    (hstep : state.step config inputs action = some state') :
    state'.Draining total pending where
  accounted := permitsAccounted_step hdraining.accounted hstep
  others := fun call hpending => hdraining.others call (pending_of_goesOn hgoesOn hstep hpending)
  ended := fun call hcall => by
    by_cases hactor : call = action.call
    · rw [hactor]
      exact (goesOn_cases hgoesOn hstep).2.1
    · rw [phase_of_step_of_ne hstep hactor]
      exact hdraining.ended call hcall

theorem returned_of_draining
    {pending : Finset ℕ}
    (hdraining : state.Draining total pending)
    (hnone : ∀ call, ¬ (state.phase call).Pending) :
    (∀ call ∈ pending, ∃ report, state.phase call = .done report) ∧ state.permits = total :=
  ⟨fun call hcall => (hdraining.ended call hcall).resolve_left (hnone call),
    hdraining.accounted.free_of_none fun call hattempts => hnone call (.inr hattempts)⟩

/-- Further steps of the pending calls: they come to an end within the bound on the
attempts and are never stuck before, and in whatever order they have been made, when no
step is left each call has returned and every permit is free. -/
structure RpcState.Drains
    (config : RpcConfig)
    (inputs : ℕ → CallInput α)
    (pending : Finset ℕ)
    (state : RpcState α) : Prop where
  short : ∀ actions state', (∀ action ∈ actions, RpcAction.GoesOn action) →
    run (RpcState.step config inputs) state actions = some state' →
    actions.length ≤ pending.card * (max 1 config.settings.maxAttempts + 1)
  unstuck : ∀ actions state', (∀ action ∈ actions, RpcAction.GoesOn action) →
    run (RpcState.step config inputs) state actions = some state' →
    (∃ call, (state'.phase call).Pending) →
    ∃ action next, action.GoesOn ∧ state'.step config inputs action = some next
  finished : ∀ actions state', (∀ action ∈ actions, RpcAction.GoesOn action) →
    run (RpcState.step config inputs) state actions = some state' →
    (¬ ∃ action next, action.GoesOn ∧ state'.step config inputs action = some next) →
    (∀ call ∈ pending, ∃ report, state'.phase call = .done report) ∧
      state'.permits = config.permits
  ends : ∃ actions state', (∀ action ∈ actions, RpcAction.GoesOn action) ∧
    run (RpcState.step config inputs) state actions = some state' ∧
    (∀ call ∈ pending, ∃ report, state'.phase call = .done report) ∧
    state'.permits = config.permits

theorem drains_of_draining
    {pending : Finset ℕ}
    (hpermits : 1 ≤ config.permits)
    (hdraining : state.Draining config.permits pending) :
    state.Drains config inputs pending := by
  have hinvariant : ∀ (state : RpcState α) action state', state.Draining config.permits pending →
      RpcAction.GoesOn action → state.step config inputs action = some state' →
      state'.Draining config.permits pending :=
    fun _ _ _ hdraining hgoesOn hstep => draining_step hdraining hgoesOn hstep
  have hlower : ∀ (state : RpcState α) action state', state.Draining config.permits pending →
      RpcAction.GoesOn action → state.step config inputs action = some state' →
      state'.stepsLeft config.settings.maxAttempts pending <
        state.stepsLeft config.settings.maxAttempts pending :=
    fun _ _ _ hdraining hgoesOn hstep => stepsLeft_lt_of_goesOn hdraining.others hgoesOn hstep
  refine ⟨fun actions state' hactions hrun => ?_, fun actions state' hactions hrun hpending => ?_,
    fun actions state' hactions hrun hstuck => ?_, ?_⟩
  · have hlength := (length_add_measure_le hinvariant hlower hactions hdraining hrun).2
    have hbound : state.stepsLeft config.settings.maxAttempts pending ≤
        pending.card * (max 1 config.settings.maxAttempts + 1) :=
      Finset.sum_le_card_nsmul _ _ _ fun call _ => stepsLeft_le _ _
    omega
  · have hend := (length_add_measure_le hinvariant hlower hactions hdraining hrun).1
    exact exists_goesOn hpermits hend.accounted hpending
  · have hend := (length_add_measure_le hinvariant hlower hactions hdraining hrun).1
    refine returned_of_draining hend fun call hpending => ?_
    exact hstuck (exists_goesOn hpermits hend.accounted ⟨call, hpending⟩)
  · obtain ⟨actions, state', hactions, hrun, hend, hzero⟩ :=
      exists_run_to_zero hinvariant hlower
        (fun state hdraining hleft => by
          refine exists_goesOn hpermits hdraining.accounted ?_
          by_contra hnone
          refine hleft (Finset.sum_eq_zero fun call _ => ?_)
          exact stepsLeft_eq_zero_iff.mpr (not_exists.mp hnone call))
        hdraining
    refine ⟨actions, state', hactions, hrun, returned_of_draining hend fun call hpending => ?_⟩
    have hcall := Finset.sum_eq_zero_iff.mp hzero call (hend.others call hpending)
    exact stepsLeft_eq_zero_iff.mp hcall hpending

/-- In whatever state the calls are, those that are pending can all be brought to their
end, and no order of their steps keeps them from it. -/
theorem drains_of_run
    {build : Build}
    {env : String → Option String}
    {actions : List RpcAction}
    (hrun : run (RpcState.step (.ofEnv build env) inputs) (.start (.ofEnv build env)) actions =
      some state) :
    ∃ pending : Finset ℕ, (∀ call, call ∈ pending ↔ (state.phase call).Pending) ∧
      state.Drains (.ofEnv build env) inputs pending := by
  obtain ⟨pending, hpending⟩ := finitelyMany_pending hrun
  refine ⟨pending, hpending, drains_of_draining (permits_ofEnv build env).1 ?_⟩
  exact ⟨permitsAccounted_of_run hrun, fun call => (hpending call).mpr,
    fun call hcall => .inl ((hpending call).mp hcall)⟩

end Progress

theorem oneWaits_drains :
    ∃ state', oneWaits = some state' ∧ state'.permits = 0 ∧
      ∃ pending : Finset ℕ, (∀ call, call ∈ pending ↔ (state'.phase call).Pending) ∧
        state'.Drains (.ofEnv .release singlePermit) answered pending := by
  have hmap : oneWaits.map RpcState.permits = some 0 := by decide
  obtain ⟨state', hrun, hpermits⟩ := Option.map_eq_some_iff.mp hmap
  exact ⟨state', hrun, hpermits, drains_of_run hrun⟩

end AlkanesIndexer
