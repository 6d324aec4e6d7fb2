import Mathlib.Data.List.Infix
import Mathlib.Tactic

/-!
# Runs of a partial step function

A system that answers some actions in some states.  A run is a list of actions
each of which is answered, and what every step preserves, every run preserves.
-/

namespace Runs

variable {S A : Type*} (step : S → A → Option S)

def run : S → List A → Option S
  | state, [] => some state
  | state, action :: actions => (step state action).bind fun next => run next actions

variable {step} {state state' : S} {actions : List A}

@[simp]
theorem run_nil :
    run step state [] = some state :=
  rfl

theorem run_cons_eq_some_iff
    {action : A} :
    run step state (action :: actions) = some state' ↔
      ∃ next, step state action = some next ∧ run step next actions = some state' :=
  Option.bind_eq_some_iff

theorem run_append
    (first second : List A) :
    run step state (first ++ second) =
      (run step state first).bind fun next => run step next second := by
  induction first generalizing state with
  | nil => rfl
  | cons action rest ih =>
      simp only [List.cons_append, run, Option.bind_assoc]
      congr 1
      funext next
      exact ih

theorem run_append_eq_some_iff
    {first second : List A} :
    run step state (first ++ second) = some state' ↔
      ∃ middle, run step state first = some middle ∧ run step middle second = some state' := by
  rw [run_append]
  exact Option.bind_eq_some_iff

theorem run_concat_eq_some_iff
    {action : A} :
    run step state (actions ++ [action]) = some state' ↔
      ∃ last, run step state actions = some last ∧ step last action = some state' := by
  rw [run_append_eq_some_iff]
  simp only [run_cons_eq_some_iff, run_nil, Option.some.injEq, exists_eq_right]

variable (step) in
/-- The actions of a run, each with the state it is made in. -/
def visits : S → List A → List (S × A)
  | _, [] => []
  | state, action :: actions =>
      (state, action) ::
        match step state action with
        | none => []
        | some next => visits next actions

theorem visits_concat
    {last : S}
    (hrun : run step state actions = some last)
    (action : A) :
    visits step state (actions ++ [action]) = visits step state actions ++ [(last, action)] := by
  induction actions generalizing state with
  | nil =>
      cases hrun
      simp only [List.nil_append, visits]
      cases step last action <;> rfl
  | cons head rest ih =>
      obtain ⟨next, hnext, hrest⟩ := run_cons_eq_some_iff.mp hrun
      simp [visits, hnext, ih hrest]

/-- What holds at the start and survives every step holds at the end. -/
theorem invariant_of_run
    {P : S → Prop}
    (hstep : ∀ state action state', P state → step state action = some state' → P state')
    (hstart : P state)
    (hrun : run step state actions = some state') :
    P state' := by
  induction actions generalizing state with
  | nil =>
      cases hrun
      exact hstart
  | cons action rest ih =>
      obtain ⟨next, hnext, hrest⟩ := run_cons_eq_some_iff.mp hrun
      exact ih (hstep state action next hstart hnext) hrest

variable (step) in
/-- In every state that the run passes through. -/
def Throughout (holds : S → Prop) (state : S) (actions : List A) : Prop :=
  ∀ earlier middle, earlier <+: actions → run step state earlier = some middle → holds middle

theorem Throughout.of_append
    {holds : S → Prop}
    {first second : List A}
    (hthroughout : Throughout step holds state (first ++ second)) :
    Throughout step holds state first :=
  fun earlier middle hearlier =>
    hthroughout earlier middle (hearlier.trans (List.prefix_append first second))

theorem Throughout.last
    {holds : S → Prop}
    (hthroughout : Throughout step holds state actions)
    (hrun : run step state actions = some state') :
    holds state' :=
  hthroughout actions state' List.prefix_rfl hrun

theorem countP_concat
    (counts : A → Bool)
    (actions : List A)
    (action : A) :
    (actions ++ [action]).countP counts = actions.countP counts + (counts action).toNat := by
  rw [List.countP_append]
  cases hcounts : counts action <;> simp [hcounts]

/-- Tries of which at most `underway` are open at a time.  If a try can end in two ways
only, with a failure or with what it is for, then after more tries than failures what they
are for has been reached. -/
theorem reached_or_countP_le
    {invariant reached : S → Prop}
    {begins fails : A → Bool}
    {underway : S → ℕ}
    (hrun : run step state actions = some state')
    (hstart : invariant state)
    (hinvariant : ∀ state action state', invariant state → step state action = some state' →
      invariant state')
    (hstep : ∀ state action state', invariant state → action ∈ actions →
      step state action = some state' → reached state' ∨ ¬ reached state ∧
        (begins action).toNat + underway state ≤ (fails action).toNat + underway state') :
    reached state' ∨
      actions.countP begins + underway state ≤ actions.countP fails + underway state' := by
  induction actions using List.reverseRecOn generalizing state' with
  | nil =>
      cases hrun
      exact .inr le_rfl
  | append_singleton actions action ih =>
      obtain ⟨last, hlast, hnext⟩ := run_concat_eq_some_iff.mp hrun
      have hbefore := ih hlast
        fun _ _ _ hstate hmem => hstep _ _ _ hstate (List.mem_append_left _ hmem)
      have hend := hstep last action state' (invariant_of_run hinvariant hstart hlast)
        (List.mem_append_right _ (List.mem_singleton_self action)) hnext
      rcases hend with hreached | ⟨hnot, hle⟩
      · exact .inl hreached
      · have hcount := hbefore.resolve_left hnot
        right
        rw [countP_concat, countP_concat]
        omega

/-- A preorder along which every step goes, from states that keep an invariant, is
one along which every run goes. -/
theorem relation_of_run
    {P : S → Prop}
    {R : S → S → Prop}
    (hrefl : ∀ state, R state state)
    (htrans : ∀ first second third, R first second → R second third → R first third)
    (hinvariant : ∀ state action state', P state → step state action = some state' → P state')
    (hstep : ∀ state action state', P state → step state action = some state' → R state state')
    (hstart : P state)
    (hrun : run step state actions = some state') :
    R state state' := by
  induction actions generalizing state with
  | nil =>
      cases hrun
      exact hrefl _
  | cons action rest ih =>
      obtain ⟨next, hnext, hrest⟩ := run_cons_eq_some_iff.mp hrun
      exact htrans state next state' (hstep state action next hstart hnext)
        (ih (hinvariant state action next hstart hnext) hrest)

/-- If every step of a system is a step of another one, or none, its runs are runs
of the other one. -/
theorem exists_run_of_project
    {T B : Type*}
    {abstractStep : T → B → Option T}
    (project : S → T)
    (hstep : ∀ state action state', step state action = some state' →
      project state' = project state ∨
        ∃ label, abstractStep (project state) label = some (project state'))
    (hrun : run step state actions = some state') :
    ∃ labels, run abstractStep (project state) labels = some (project state') := by
  induction actions generalizing state with
  | nil =>
      cases hrun
      exact ⟨[], rfl⟩
  | cons action rest ih =>
      obtain ⟨next, hnext, hrest⟩ := run_cons_eq_some_iff.mp hrun
      obtain ⟨labels, hlabels⟩ := ih hrest
      rcases hstep state action next hnext with hsame | ⟨label, hlabel⟩
      · rw [hsame] at hlabels
        exact ⟨labels, hlabels⟩
      · exact ⟨label :: labels, run_cons_eq_some_iff.mpr ⟨project next, hlabel, hlabels⟩⟩

/-- Steps that lower a measure make no run longer than the measure, and every longer run
leaves less of it. -/
theorem length_add_measure_le
    {invariant : S → Prop}
    {allowed : A → Prop}
    {measure : S → ℕ}
    (hinvariant : ∀ state action state', invariant state → allowed action →
      step state action = some state' → invariant state')
    (hlower : ∀ state action state', invariant state → allowed action →
      step state action = some state' → measure state' < measure state)
    (hallowed : ∀ action ∈ actions, allowed action)
    (hstart : invariant state)
    (hrun : run step state actions = some state') :
    invariant state' ∧ actions.length + measure state' ≤ measure state := by
  induction actions generalizing state with
  | nil =>
      cases hrun
      exact ⟨hstart, by simp⟩
  | cons action rest ih =>
      obtain ⟨next, hnext, hrest⟩ := run_cons_eq_some_iff.mp hrun
      have haction := hallowed action List.mem_cons_self
      have hlowered := hlower state action next hstart haction hnext
      obtain ⟨hend, hlength⟩ := ih
        (fun other hother => hallowed other (List.mem_cons_of_mem _ hother))
        (hinvariant state action next hstart haction hnext) hrest
      refine ⟨hend, ?_⟩
      rw [List.length_cons]
      omega

/-- Where such a step can be made as long as the measure is positive, some run of them
uses the measure up. -/
theorem exists_run_to_zero
    {invariant : S → Prop}
    {allowed : A → Prop}
    {measure : S → ℕ}
    (hinvariant : ∀ state action state', invariant state → allowed action →
      step state action = some state' → invariant state')
    (hlower : ∀ state action state', invariant state → allowed action →
      step state action = some state' → measure state' < measure state)
    (hgoesOn : ∀ state, invariant state → measure state ≠ 0 →
      ∃ action state', allowed action ∧ step state action = some state')
    (hstart : invariant state) :
    ∃ actions state', (∀ action ∈ actions, allowed action) ∧
      run step state actions = some state' ∧ invariant state' ∧ measure state' = 0 := by
  induction hmeasure : measure state using Nat.strong_induction_on generalizing state with
  | _ left ih =>
      by_cases hzero : left = 0
      · exact ⟨[], state, nofun, rfl, hstart, hmeasure.trans hzero⟩
      · obtain ⟨action, next, haction, hnext⟩ := hgoesOn state hstart (hmeasure ▸ hzero)
        have hlowered := hlower state action next hstart haction hnext
        obtain ⟨actions, state', hallowed, hrun, hend⟩ :=
          ih (measure next) (hmeasure ▸ hlowered)
            (hinvariant state action next hstart haction hnext) rfl
        refine ⟨action :: actions, state', ?_, run_cons_eq_some_iff.mpr ⟨next, hnext, hrun⟩, hend⟩
        exact List.forall_mem_cons.mpr ⟨haction, hallowed⟩

/-- If every step of a system is matched by a run of another one, so is every run. -/
theorem exists_run_of_simulation
    {T B : Type*}
    {fineStep : T → B → Option T}
    {matched : S → T → Prop}
    (hstep : ∀ state action state' fine, matched state fine → step state action = some state' →
      ∃ labels fine', run fineStep fine labels = some fine' ∧ matched state' fine')
    {fine : T}
    (hmatched : matched state fine)
    (hrun : run step state actions = some state') :
    ∃ labels fine', run fineStep fine labels = some fine' ∧ matched state' fine' := by
  induction actions generalizing state fine with
  | nil =>
      cases hrun
      exact ⟨[], fine, rfl, hmatched⟩
  | cons action rest ih =>
      obtain ⟨next, hnext, hrest⟩ := run_cons_eq_some_iff.mp hrun
      obtain ⟨first, middle, hfirst, hmiddle⟩ := hstep state action next fine hmatched hnext
      obtain ⟨second, fine', hsecond, hend⟩ := ih hmiddle hrest
      exact ⟨first ++ second, fine', run_append_eq_some_iff.mpr ⟨middle, hfirst, hsecond⟩, hend⟩

end Runs
