import AlkanesIndexer.InterleavedCalls

/-!
# Failures that pass

A node that fails for a while fails many calls at once, and each call that gives up trips
the circuit for all others.  As long as every call is answered before its own attempts are
used up nothing of this shows: in every interleaving the circuit stays closed, and a call
returns what the node has answered to it.
-/

namespace AlkanesIndexer

open BoundedRetry BreakerHistory RetryWrapper Runs

variable {α : Type*}

/-- The attempts before `last` fail in ways that are retried, and `last`, which the limit
still allows, is answered. -/
structure CallInput.Recovers
    (config : RpcConfig)
    (input : CallInput α)
    (last : ℕ)
    (value : α) : Prop where
  allowed : last < max 1 config.settings.maxAttempts
  answered : input.outcomes last = .ok value
  retried : ∀ earlier < last, Retriable input.wrapper.final input.outcomes earlier

/-- A call on its way to this answer. -/
def CallPhase.Recovering (last : ℕ) (value : α) : CallPhase α → Prop
  | .attempting attempt => attempt ≤ last
  | .done report => report = ⟨.returned value, last + 1, false⟩
  | .idle | .waiting | .dropped => True

structure RpcState.Undisturbed
    (lasts : ℕ → ℕ)
    (values : ℕ → α)
    (state : RpcState α) : Prop where
  closed : state.circuit.cbOpen = false
  quiet : ∀ event ∈ state.log, event.kind = .admitted ∨ event.kind = .ended
  calls : ∀ call, (state.phase call).Recovering (lasts call) (values call)

section Recovers

variable
  {config : RpcConfig}
  {input : CallInput α}
  {inputs : ℕ → CallInput α}
  {last attempt : ℕ}
  {value : α}
  {lasts : ℕ → ℕ}
  {values : ℕ → α}
  {state state' : RpcState α}
  {call : ℕ}

/-- A pass before the last one goes on, and the last one returns. -/
theorem CallInput.Recovers.endingPass_eq
    (hrecovers : input.Recovers config last value)
    (hfit : DelaysFit config.settings)
    (hle : attempt ≤ last) :
    endingPass config input attempt =
      if attempt = last then some ⟨.returned value, last + 1, false⟩ else none := by
  unfold endingPass
  by_cases hlast : attempt = last
  · rw [if_pos hlast, hlast, hrecovers.answered]
  · have hallowed := hrecovers.allowed
    obtain ⟨failure, hfailure, hretried⟩ := hrecovers.retried attempt (by omega)
    have hgoes : config.settings.GoesOn (attempt + 1) := ⟨by omega, by omega⟩
    have hlimit : ¬ attempt + 1 ≥ config.settings.maxAttempts := by omega
    obtain ⟨delay, hdelay⟩ := hfit.computes config.build hgoes (input.draws attempt)
    rw [if_neg hlast, hfailure]
    simp only [hretried, hlimit, hdelay, Bool.false_eq_true, if_false]

theorem quiet_concat
    {kind : Kind}
    (hquiet : ∀ event ∈ state.log, event.kind = .admitted ∨ event.kind = .ended)
    (hkind : kind = .admitted ∨ kind = .ended) :
    ∀ event ∈ (state.logs call kind).log, event.kind = .admitted ∨ event.kind = .ended := by
  intro event hmem
  rcases List.mem_append.mp hmem with hmem | hmem
  · exact hquiet event hmem
  · cases List.mem_singleton.mp hmem
    exact hkind

theorem recovering_enters
    {phase : CallPhase α}
    (hcalls : ∀ call, (state.phase call).Recovering (lasts call) (values call))
    (hphase : phase.Recovering (lasts call) (values call))
    (other : ℕ) :
    ((state.enters call phase).phase other).Recovering (lasts other) (values other) := by
  by_cases hother : other = call
  · subst hother
    rwa [RpcState.enters_phase_self]
  · rw [RpcState.enters_phase_of_ne hother]
    exact hcalls other

theorem undisturbed_step
    (hfit : DelaysFit config.settings)
    (hrecovers : ∀ call, (inputs call).Recovers config (lasts call) (values call))
    (hundisturbed : state.Undisturbed lasts values)
    (hsteps : state.Steps config inputs call state') :
    state'.Undisturbed lasts values := by
  obtain ⟨hclosed, hquiet, hcalls⟩ := hundisturbed
  cases hsteps with
  | rejected hphase hopen =>
      simp [circuitOpen, hclosed] at hopen
  | admitted circuit' hphase hopen =>
      have hcircuit : circuit' = state.circuit := by
        simp only [circuitOpen, hclosed, Bool.not_false, if_true, Prod.mk.injEq, true_and] at hopen
        exact hopen.symm
      subst hcircuit
      exact ⟨hclosed, quiet_concat hquiet (.inl rfl), recovering_enters hcalls trivial⟩
  | acquired hphase hpermits =>
      exact ⟨hclosed, hquiet, recovering_enters hcalls (Nat.zero_le _)⟩
  | wentOn attempt hphase hpass =>
      have hle : attempt ≤ lasts call := by
        have hcall := hcalls call
        rwa [hphase] at hcall
      rw [(hrecovers call).endingPass_eq hfit hle] at hpass
      have hne : attempt ≠ lasts call := fun hlast => by simp [hlast] at hpass
      exact ⟨hclosed, hquiet, recovering_enters hcalls (Nat.lt_of_le_of_ne hle hne)⟩
  | returned attempt report hphase hpass =>
      have hle : attempt ≤ lasts call := by
        have hcall := hcalls call
        rwa [hphase] at hcall
      rw [(hrecovers call).endingPass_eq hfit hle] at hpass
      obtain ⟨_, hreport⟩ := Option.ite_none_right_eq_some.mp hpass
      cases hreport
      exact ⟨hclosed, quiet_concat hquiet (.inr rfl), recovering_enters hcalls rfl⟩
  | dropped permits' hphase =>
      exact ⟨hclosed, quiet_concat hquiet (.inr rfl), recovering_enters hcalls trivial⟩

/-- With failures that pass the circuit never opens, no call is rejected, and each one
that ends returns its answer, after the attempts that it took on its own. -/
theorem undisturbed_of_run
    (hfit : DelaysFit config.settings)
    (hrecovers : ∀ call, (inputs call).Recovers config (lasts call) (values call))
    {actions : List RpcAction}
    (hrun : run (RpcState.step config inputs) (.start config) actions = some state) :
    state.Undisturbed lasts values := by
  refine invariant_of_run (P := fun state => state.Undisturbed lasts values)
    (fun state action state' hundisturbed hstep => ?_) ⟨rfl, nofun, fun _ => trivial⟩ hrun
  refine undisturbed_step hfit hrecovers ?_ (RpcState.steps_of_step hstep).2
  exact ⟨hundisturbed.closed, hundisturbed.quiet, hundisturbed.calls⟩

end Recovers

/-- Every call but the first is answered at its second attempt. -/
def firstInTime : ℕ → CallInput JsonValue := fun call =>
  ⟨.resilientCall "esplora_tx",
    fun attempt => if attempt < min call 1 then .error .timeout else .ok .null, fun _ => 0⟩

theorem firstInTime_undisturbed :
    ∃ state, run (RpcState.step (.ofEnv .debug fun _ => none) firstInTime)
        (.start (.ofEnv .debug fun _ => none))
        [⟨0, 0, .checks⟩, ⟨0, 1, .checks⟩, ⟨0, 1, .acquires⟩, ⟨0, 0, .acquires⟩, ⟨9, 1, .attempts⟩,
          ⟨9, 0, .attempts⟩, ⟨9, 1, .attempts⟩] = some state ∧
      state.permits = 64 ∧ state.Undisturbed (min · 1) fun _ => .null := by
  have hmap : (run (RpcState.step (.ofEnv .debug fun _ => none) firstInTime)
      (.start (.ofEnv .debug fun _ => none))
      [⟨0, 0, .checks⟩, ⟨0, 1, .checks⟩, ⟨0, 1, .acquires⟩, ⟨0, 0, .acquires⟩, ⟨9, 1, .attempts⟩,
        ⟨9, 0, .attempts⟩, ⟨9, 1, .attempts⟩]).map RpcState.permits = some 64 := by decide
  obtain ⟨state, hrun, hpermits⟩ := Option.map_eq_some_iff.mp hmap
  have hmax : (RpcConfig.ofEnv .debug fun _ => none).settings.maxAttempts = 5 := by decide
  refine ⟨state, hrun, hpermits,
    undisturbed_of_run (.of_bounded (.inr (by decide))) (fun call => ?_) hrun⟩
  refine ⟨?_, if_neg (lt_irrefl _), fun earlier hlt => ⟨.timeout, if_pos hlt, rfl⟩⟩
  rw [hmax]
  omega

end AlkanesIndexer
