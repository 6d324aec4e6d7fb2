import AlkanesIndexer.InterleavedCalls

/-!
# The circuit breaker in every interleaving

The flag and the time of the last trip stand for the trips of the history that no
admitted call has come after.  So the breaker keeps calls off for the cooldown.  The
first check after it clears the flag; that a trial is running is not kept anywhere, and
only a further trip keeps other calls off.
-/

namespace AlkanesIndexer

open BreakerHistory Runs Sequences

/-- The flag is set while a trip stands, and the time is that of the latest one. -/
structure Circuit.Reflects
    (coolMs clock : ℕ)
    (circuit : Circuit)
    (log : List (Event ℕ)) : Prop where
  before : ∀ event ∈ log, event.time ≤ clock
  ordered : EachAfter NotBefore log
  decided : EachAfter (Decided coolMs) log
  standing : circuit.cbOpen = true → StandingTrip log circuit.cbLastOpenMs ∧
    ∀ time, StandingTrip log time → time ≤ circuit.cbLastOpenMs
  settled : circuit.cbOpen = false → ∀ time, ¬ StandingTrip log time

section Circuit

variable
  {coolMs clock : ℕ}
  {circuit circuit' : Circuit}
  {log : List (Event ℕ)}
  {event : Event ℕ}

theorem circuitOpen_eq_true
    (hopen : (circuitOpen coolMs clock circuit).1 = true) :
    circuit.cbOpen = true ∧ clock - circuit.cbLastOpenMs < coolMs := by
  unfold circuitOpen at hopen
  cases hflag : circuit.cbOpen with
  | false => simp [hflag] at hopen
  | true =>
      refine ⟨rfl, ?_⟩
      by_contra hover
      simp [hflag, Nat.not_lt.mp hover] at hopen

theorem circuitOpen_eq_false
    (hclosed : circuitOpen coolMs clock circuit = (false, circuit')) :
    circuit'.cbOpen = false ∧
      (circuit.cbOpen = true → coolMs ≤ clock - circuit.cbLastOpenMs) := by
  unfold circuitOpen at hclosed
  cases hflag : circuit.cbOpen with
  | false =>
      simp only [hflag, Bool.not_false, if_true, Prod.mk.injEq, true_and] at hclosed
      exact ⟨hclosed ▸ hflag, nofun⟩
  | true =>
      by_cases hover : clock - circuit.cbLastOpenMs ≥ coolMs
      · simp only [hflag, Bool.not_true, Bool.false_eq_true, if_false, hover, if_true,
          Prod.mk.injEq, true_and] at hclosed
        rw [← hclosed]
        exact ⟨rfl, fun _ => hover⟩
      · simp [hflag, hover] at hclosed

theorem reflects_start :
    Circuit.Reflects coolMs clock ⟨false, 0⟩ [] where
  before := by simp
  ordered := eachAfter_nil
  decided := eachAfter_nil
  standing := nofun
  settled := fun _ _ => not_standingTrip_nil

theorem reflects_later
    {clock' : ℕ}
    (hreflects : circuit.Reflects coolMs clock log)
    (hclock : clock ≤ clock') :
    circuit.Reflects coolMs clock' log :=
  { hreflects with before := fun event hevent => (hreflects.before event hevent).trans hclock }

/-- An event of this moment, with what it does to the flag. -/
theorem reflects_concat
    (hreflects : circuit.Reflects coolMs clock log)
    (htime : event.time = clock)
    (hdecided : Decided coolMs log event)
    (hstanding : circuit'.cbOpen = true → StandingTrip (log ++ [event]) circuit'.cbLastOpenMs ∧
      ∀ time, StandingTrip (log ++ [event]) time → time ≤ circuit'.cbLastOpenMs)
    (hsettled : circuit'.cbOpen = false → ∀ time, ¬ StandingTrip (log ++ [event]) time) :
    circuit'.Reflects coolMs clock (log ++ [event]) where
  before := by
    intro other hother
    cases List.mem_append.mp hother with
    | inl hmem => exact hreflects.before other hmem
    | inr hlast =>
        rw [List.mem_singleton.mp hlast]
        exact htime.le
  ordered := eachAfter_concat hreflects.ordered fun other hother =>
    (hreflects.before other hother).trans htime.ge
  decided := eachAfter_concat hreflects.decided hdecided
  standing := hstanding
  settled := hsettled

/-- A rejection or an end changes nothing about the standing trips. -/
theorem reflects_concat_of_kept
    (hreflects : circuit.Reflects coolMs clock log)
    (htime : event.time = clock)
    (hdecided : Decided coolMs log event)
    (htripped : event.kind ≠ .tripped)
    (hadmitted : event.kind ≠ .admitted) :
    circuit.Reflects coolMs clock (log ++ [event]) := by
  have hsame : ∀ time, StandingTrip (log ++ [event]) time ↔ StandingTrip log time := by
    intro time
    simp [standingTrip_concat, htripped, hadmitted]
  refine reflects_concat hreflects htime hdecided ?_ ?_
  · simp only [hsame]
    exact hreflects.standing
  · simp only [hsame]
    exact hreflects.settled

theorem reflects_ended
    (hreflects : circuit.Reflects coolMs clock log)
    (call : ℕ) :
    circuit.Reflects coolMs clock (log ++ [⟨clock, call, .ended⟩]) :=
  reflects_concat_of_kept hreflects rfl (by rintro (hkind | hkind) <;> cases hkind) nofun nofun

theorem reflects_rejected
    (hreflects : circuit.Reflects coolMs clock log)
    (hopen : (circuitOpen coolMs clock circuit).1 = true)
    (call : ℕ) :
    circuit.Reflects coolMs clock (log ++ [⟨clock, call, .rejected⟩]) := by
  obtain ⟨hflag, hwithin⟩ := circuitOpen_eq_true hopen
  refine reflects_concat_of_kept hreflects rfl (fun _ => ?_) nofun nofun
  have hstanding := (hreflects.standing hflag).1
  exact ⟨fun _ => ⟨_, hstanding, by dsimp only; omega⟩, fun _ => rfl⟩

theorem reflects_admitted
    (hreflects : circuit.Reflects coolMs clock log)
    (hclosed : circuitOpen coolMs clock circuit = (false, circuit'))
    (call : ℕ) :
    circuit'.Reflects coolMs clock (log ++ [⟨clock, call, .admitted⟩]) := by
  obtain ⟨hflag', hover⟩ := circuitOpen_eq_false hclosed
  refine reflects_concat hreflects rfl (fun _ => ⟨nofun, ?_⟩) ?_ ?_
  · rintro ⟨time, hstanding, hwithin⟩
    -- a standing trip is one the check has found over
    cases hflag : circuit.cbOpen with
    | false => exact absurd hstanding (hreflects.settled hflag time)
    | true =>
        have hlatest := (hreflects.standing hflag).2 time hstanding
        obtain ⟨earlier, tripped, later, hlog, _⟩ := (hreflects.standing hflag).1
        have hbefore := hreflects.before ⟨circuit.cbLastOpenMs, tripped, .tripped⟩ (by simp [hlog])
        have hcooled := hover hflag
        dsimp only at hwithin hbefore
        omega
  · intro hset
    rw [hflag'] at hset
    cases hset
  · intro _ time hstanding
    simp [standingTrip_concat] at hstanding

theorem reflects_tripped
    (hreflects : circuit.Reflects coolMs clock log)
    (call : ℕ) :
    (tripCircuit clock).Reflects coolMs clock (log ++ [⟨clock, call, .tripped⟩]) := by
  refine reflects_concat hreflects rfl (by rintro (hkind | hkind) <;> cases hkind) ?_ nofun
  intro _
  refine ⟨standingTrip_concat.mpr (.inl ⟨rfl, rfl⟩), ?_⟩
  intro time hstanding
  rcases standingTrip_concat.mp hstanding with ⟨_, rfl⟩ | ⟨_, earlier, tripped, later, hlog, _⟩
  · exact le_rfl
  · exact hreflects.before ⟨time, tripped, .tripped⟩ (by simp [hlog])

end Circuit

section Run

variable
  {α : Type*}
  {config : RpcConfig}
  {inputs : ℕ → CallInput α}
  {state state' : RpcState α}

theorem reflects_step
    {call : ℕ}
    (hreflects : state.circuit.Reflects config.coolMs state.clock state.log)
    (hsteps : state.Steps config inputs call state') :
    state'.circuit.Reflects config.coolMs state'.clock state'.log := by
  cases hsteps with
  | rejected hphase hopen => exact reflects_rejected hreflects hopen call
  | admitted circuit' hphase hclosed => exact reflects_admitted hreflects hclosed call
  | acquired => exact hreflects
  | wentOn => exact hreflects
  | returned attempt report =>
      unfold RpcState.returns
      cases report.tripped with
      | false => exact reflects_ended hreflects call
      | true => exact reflects_ended (reflects_tripped hreflects call) call
  | dropped => exact reflects_ended hreflects call

theorem reflects_of_run
    {actions : List RpcAction}
    (hrun : run (RpcState.step config inputs) (.start config) actions = some state') :
    state'.circuit.Reflects config.coolMs state'.clock state'.log := by
  refine invariant_of_run
    (P := fun state => state.circuit.Reflects config.coolMs state.clock state.log)
    (fun state action state' hreflects hstep => ?_) reflects_start hrun
  obtain ⟨hclock, hsteps⟩ := RpcState.steps_of_step hstep
  refine reflects_step ?_ hsteps
  exact reflects_later hreflects hclock

/-- In every interleaving a call is admitted only when the cooldown after every trip is
over; it is alone on trial exactly when the checks made during a trial all come within
the cooldown of a further trip. -/
theorem halfOpen_iff
    {actions : List RpcAction}
    (hrun : run (RpcState.step config inputs) (.start config) actions = some state') :
    EachAfter (Cooled config.coolMs) state'.log ∧
      (OneTrial config.coolMs state'.log ↔ EachAfter (Spared config.coolMs) state'.log) := by
  have hreflects := reflects_of_run hrun
  exact ⟨cooled_of_decided hreflects.decided hreflects.ordered,
    oneTrial_iff hreflects.decided hreflects.ordered⟩

end Run

/-! ## Two runs with the default settings -/

def defaultConfig : RpcConfig := .ofEnv .release fun _ => none

/-- The provider answers every attempt with an error. -/
def unavailable : ℕ → CallInput JsonValue := fun _ =>
  ⟨.resilientCall "metashrew_height", fun _ => .error (.error "503"), fun _ => 0⟩

/-- The first call gives up after 3000 milliseconds; then come these checks. -/
def afterTrip (checks : List RpcAction) : List RpcAction :=
  [⟨0, 0, .checks⟩, ⟨0, 0, .acquires⟩, ⟨0, 0, .attempts⟩, ⟨200, 0, .attempts⟩,
    ⟨600, 0, .attempts⟩, ⟨1400, 0, .attempts⟩, ⟨3000, 0, .attempts⟩] ++ checks

def tripLog : List (Event ℕ) := [⟨0, 0, .admitted⟩, ⟨3000, 0, .tripped⟩, ⟨3000, 0, .ended⟩]

def defaultRun (checks : List RpcAction) : Option (RpcState JsonValue) :=
  run (RpcState.step defaultConfig unavailable) (.start defaultConfig) (afterTrip checks)

theorem earlyCheck_oneTrial :
    ∃ state', defaultRun [⟨7999, 1, .checks⟩] = some state' ∧
      state'.log = tripLog ++ [⟨7999, 1, .rejected⟩] ∧ OneTrial 5000 state'.log := by
  have hmap : (defaultRun [⟨7999, 1, .checks⟩]).map RpcState.log =
      some (tripLog ++ [⟨7999, 1, .rejected⟩]) := by decide
  obtain ⟨state', hrun, hlog⟩ := Option.map_eq_some_iff.mp hmap
  refine ⟨state', hrun, hlog, (halfOpen_iff hrun).2.mpr ?_⟩
  rw [hlog]
  rintro past event later hsplit _ trial since _ ⟨earlier, time, rfl, ⟨tripTime, hstanding⟩, _⟩
  exfalso
  cases earlier with
  | nil => exact not_standingTrip_nil hstanding
  | cons first rest =>
      -- only the first event is an admission
      have hrest : [⟨3000, 0, .tripped⟩, ⟨3000, 0, .ended⟩, ⟨7999, 1, .rejected⟩] =
          rest ++ ⟨time, trial, .admitted⟩ :: since ++ event :: later := (List.cons.inj hsplit).2
      have hmem : (⟨time, trial, .admitted⟩ : Event ℕ) ∈
          [⟨3000, 0, .tripped⟩, ⟨3000, 0, .ended⟩, ⟨7999, 1, .rejected⟩] := by
        rw [hrest]
        simp
      simp at hmem

/-- Two calls check when the cooldown is over, and both are admitted. -/
theorem twoChecks_admitted :
    ∃ state', defaultRun [⟨8000, 1, .checks⟩, ⟨8000, 2, .checks⟩] = some state' ∧
      ¬ OneTrial 5000 state'.log := by
  have hmap : (defaultRun [⟨8000, 1, .checks⟩, ⟨8000, 2, .checks⟩]).map RpcState.log =
      some (tripLog ++ [⟨8000, 1, .admitted⟩, ⟨8000, 2, .admitted⟩]) := by decide
  obtain ⟨state', hrun, hlog⟩ := Option.map_eq_some_iff.mp hmap
  refine ⟨state', hrun, ?_⟩
  rw [hlog]
  intro hone
  have halone := (hone (tripLog ++ [⟨8000, 1, .admitted⟩]) ⟨8000, 2, .admitted⟩ [] rfl).2
  refine halone rfl 1 [] (by decide) ⟨tripLog, 8000, rfl, ⟨3000, ?_⟩, by simp⟩
  exact ⟨[⟨0, 0, .admitted⟩], 0, [⟨3000, 0, .ended⟩], rfl, by decide⟩

end AlkanesIndexer
