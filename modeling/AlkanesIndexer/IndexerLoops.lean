import AlkanesIndexer.Runs
import Mathlib.Data.Nat.Basic
import Mathlib.Tactic

/-!
# The poller and the catch-up coordinator

`main` runs two loops at once.  The poller follows the tip with a pointer in
memory, and with `START_HEIGHT` set the coordinator catches up from there, with
its pointer in `kv_store`.  A step of the model ends one of their calls, so the
steps of the two interleave in any order and every call can fail.  Pauses and
back-off between two ticks are left out.
-/

namespace AlkanesIndexer

/-! ## The poller -/

/-- The call the poller is waiting for: the tip, the refresh of the pools at a new
tip, or the processing of a height on the way to the tip. -/
inductive PollerPhase where
  | waiting
  | refreshing (tip : ℕ)
  | processing (height tip : ℕ)
  deriving DecidableEq, Repr

structure Poller where
  lastHeight : Option ℕ
  signalled : Bool
  phase : PollerPhase
  deriving DecidableEq, Repr

namespace Poller

def start : Poller := ⟨none, false, .waiting⟩

/-- The end of the first observation: the pointer is set and the signal sent. -/
def initialized (tip : ℕ) : Poller := ⟨some tip, true, .waiting⟩

/-- `canonical_tip_height` has answered, or failed. -/
def tip (poller : Poller) (answer : Option ℕ) : Option Poller :=
  match poller.phase, answer with
  | .waiting, none => some poller
  | .waiting, some height =>
      match poller.lastHeight with
      | none => some { poller with phase := .refreshing height }
      | some prev =>
          if height > prev then some { poller with phase := .refreshing height }
          else if height < prev then some { poller with lastHeight := some height }
          else some poller
  | _, _ => none

/-- `fetch_pools_for_tip` has ended; an error is logged and changes nothing. -/
def refreshed (startHeight : Option ℕ) (poller : Poller) : Option Poller :=
  match poller.phase with
  | .refreshing tip =>
      match poller.lastHeight with
      | none =>
          if startHeight.isNone then some { poller with phase := .processing tip tip }
          else some (initialized tip)
      | some prev => some { poller with phase := .processing (prev + 1) tip }
  | _ => none

/-- `process_block_sequential` has ended.  On the first observation the pointer is
set in either case, in the loop over new heights only after a success. -/
def processed (poller : Poller) (ok : Bool) : Option Poller :=
  match poller.phase with
  | .processing height tip =>
      match poller.lastHeight with
      | none => some (initialized tip)
      | some _ =>
          if ok then
            some { poller with
              lastHeight := some height
              phase := if height < tip then .processing (height + 1) tip else .waiting }
          else some { poller with phase := .waiting }
  | _ => none

def current (poller : Poller) : Option ℕ :=
  match poller.phase with
  | .processing height _ => some height
  | _ => none

end Poller

/-! ## The coordinator -/

/-- The call of `run_once` the coordinator is waiting for. -/
inductive CoordinatorPhase where
  | waiting
  | reading (tip : ℕ)
  | processing (height tip : ℕ)
  | saving (height tip : ℕ)
  deriving DecidableEq, Repr

/-- How a write of the progress ends: done, not done, or done without the caller
learning of it. -/
inductive SaveResult where
  | saved
  | lost
  | unacknowledged
  deriving DecidableEq, Repr

/-- `l.saturating_add(1)`. -/
def saturatingSucc (height : ℕ) : ℕ := if height = 2 ^ 64 - 1 then height else height + 1

namespace CoordinatorPhase

def tip (phase : CoordinatorPhase) (answer : Option ℕ) : Option CoordinatorPhase :=
  match phase, answer with
  | .waiting, none => some .waiting
  | .waiting, some tip => some (.reading tip)
  | _, _ => none

/-- `get_last_processed_height` has ended, and `next` is compared with the tip. -/
def read
    (phase : CoordinatorPhase)
    (startHeight : ℕ)
    (progress : Option ℕ)
    (ok : Bool) : Option CoordinatorPhase :=
  match phase with
  | .reading tip =>
      if ok then
        let next := (progress.map saturatingSucc).getD startHeight
        if next > tip then some .waiting else some (.processing next tip)
      else some .waiting
  | _ => none

def processed (phase : CoordinatorPhase) (ok : Bool) : Option CoordinatorPhase :=
  match phase with
  | .processing height tip => if ok then some (.saving height tip) else some .waiting
  | _ => none

def saved
    (phase : CoordinatorPhase)
    (progress : Option ℕ)
    (result : SaveResult) : Option (CoordinatorPhase × Option ℕ) :=
  match phase with
  | .saving height tip =>
      match result with
      | .saved =>
          some (if height < tip then .processing (height + 1) tip else .waiting, some height)
      | .lost => some (.waiting, progress)
      | .unacknowledged => some (.waiting, some height)
  | _ => none

def current (phase : CoordinatorPhase) : Option ℕ :=
  match phase with
  | .processing height _ => some height
  | _ => none

end CoordinatorPhase

/-! ## Both loops -/

/-- The loops with the stored progress.  The last two fields only record what has
happened: the ended calls of `process_block_sequential` with their heights and
results, and the first tip the poller has seen. -/
structure Loops where
  poller : Poller
  coordinator : CoordinatorPhase
  progress : Option ℕ
  attempts : List (ℕ × Bool)
  firstTip : Option ℕ
  deriving DecidableEq, Repr

def Loops.start : Loops := ⟨.start, .waiting, none, [], none⟩

/-- The calls that end. -/
inductive LoopAction where
  | pollerTip (answer : Option ℕ)
  | pollerRefreshed
  | pollerProcessed (ok : Bool)
  | coordinatorTip (answer : Option ℕ)
  | coordinatorRead (ok : Bool)
  | coordinatorProcessed (ok : Bool)
  | coordinatorSaved (result : SaveResult)
  deriving DecidableEq, Repr

/-- Without a start height `run_once` returns at once; with one the coordinator
waits for the signal of the poller. -/
def Loops.step (startHeight : Option ℕ) (loops : Loops) : LoopAction → Option Loops
  | .pollerTip answer =>
      (loops.poller.tip answer).map fun poller =>
        { loops with poller := poller, firstTip := loops.firstTip.or answer }
  | .pollerRefreshed =>
      (loops.poller.refreshed startHeight).map fun poller => { loops with poller := poller }
  | .pollerProcessed ok =>
      loops.poller.current.bind fun height =>
        (loops.poller.processed ok).map fun poller =>
          { loops with poller := poller, attempts := loops.attempts ++ [(height, ok)] }
  | .coordinatorTip answer =>
      if startHeight.isSome && loops.poller.signalled then
        (loops.coordinator.tip answer).map fun phase => { loops with coordinator := phase }
      else none
  | .coordinatorRead ok =>
      startHeight.bind fun start =>
        (loops.coordinator.read start loops.progress ok).map fun phase =>
          { loops with coordinator := phase }
  | .coordinatorProcessed ok =>
      loops.coordinator.current.bind fun height =>
        (loops.coordinator.processed ok).map fun phase =>
          { loops with coordinator := phase, attempts := loops.attempts ++ [(height, ok)] }
  | .coordinatorSaved result =>
      (loops.coordinator.saved loops.progress result).map fun saved =>
        { loops with coordinator := saved.1, progress := saved.2 }

def Loops.run (startHeight : Option ℕ) (actions : List LoopAction) : Option Loops :=
  Runs.run (Loops.step startHeight) .start actions

def Loops.Processed (loops : Loops) (height : ℕ) : Prop := (height, true) ∈ loops.attempts

instance (loops : Loops) (height : ℕ) : Decidable (loops.Processed height) :=
  inferInstanceAs (Decidable ((height, true) ∈ loops.attempts))

/-! ## What a step does -/

section Steps

variable {startHeight : Option ℕ} {loops loops' : Loops} {poller poller' : Poller}

theorem tip_cases
    {answer : Option ℕ}
    (htip : poller.tip answer = some poller') :
    poller.phase = .waiting ∧
      ((answer = none ∧ poller' = poller) ∨
        ∃ height, answer = some height ∧
          ((poller.lastHeight = none ∧ poller' = { poller with phase := .refreshing height }) ∨
            ∃ prev, poller.lastHeight = some prev ∧
              ((prev < height ∧ poller' = { poller with phase := .refreshing height }) ∨
                (height < prev ∧ poller' = { poller with lastHeight := some height }) ∨
                (height = prev ∧ poller' = poller)))) := by
  obtain ⟨lastHeight, signalled, phase⟩ := poller
  cases phase with
  | refreshing tip => simp [Poller.tip] at htip
  | processing height tip => simp [Poller.tip] at htip
  | waiting =>
      cases answer with
      | none =>
          simp only [Poller.tip, Option.some.injEq] at htip
          simp [htip]
      | some height =>
          cases lastHeight with
          | none =>
              simp only [Poller.tip, Option.some.injEq] at htip
              simp [htip]
          | some prev =>
              simp only [Poller.tip] at htip
              split at htip
              · simp only [Option.some.injEq] at htip
                subst htip
                simp_all
              · split at htip
                · simp only [Option.some.injEq] at htip
                  subst htip
                  simp_all
                · simp only [Option.some.injEq] at htip
                  subst htip
                  have heq : height = prev := by omega
                  simp [heq]

theorem refreshed_cases
    (hrefreshed : poller.refreshed startHeight = some poller') :
    ∃ tip, poller.phase = .refreshing tip ∧
      ((poller.lastHeight = none ∧ startHeight = none ∧
          poller' = { poller with phase := .processing tip tip }) ∨
        (poller.lastHeight = none ∧ startHeight ≠ none ∧ poller' = .initialized tip) ∨
        ∃ prev, poller.lastHeight = some prev ∧
          poller' = { poller with phase := .processing (prev + 1) tip }) := by
  obtain ⟨lastHeight, signalled, phase⟩ := poller
  cases phase with
  | waiting => simp [Poller.refreshed] at hrefreshed
  | processing height tip => simp [Poller.refreshed] at hrefreshed
  | refreshing tip =>
      refine ⟨tip, rfl, ?_⟩
      cases lastHeight with
      | some prev =>
          simp only [Poller.refreshed, Option.some.injEq] at hrefreshed
          simp [hrefreshed]
      | none =>
          cases startHeight <;> simp_all [Poller.refreshed]

theorem processed_cases
    {ok : Bool}
    (hprocessed : poller.processed ok = some poller') :
    ∃ height tip, poller.phase = .processing height tip ∧ poller.current = some height ∧
      ((poller.lastHeight = none ∧ poller' = .initialized tip) ∨
        ∃ prev, poller.lastHeight = some prev ∧
          ((ok = true ∧ poller' = { poller with
              lastHeight := some height
              phase := if height < tip then .processing (height + 1) tip else .waiting }) ∨
            (ok = false ∧ poller' = { poller with phase := .waiting }))) := by
  obtain ⟨lastHeight, signalled, phase⟩ := poller
  cases phase with
  | waiting => simp [Poller.processed] at hprocessed
  | refreshing tip => simp [Poller.processed] at hprocessed
  | processing height tip =>
      refine ⟨height, tip, rfl, rfl, ?_⟩
      cases lastHeight with
      | none =>
          simp only [Poller.processed, Option.some.injEq] at hprocessed
          simp [hprocessed]
      | some prev =>
          cases ok <;> simp_all [Poller.processed]

theorem read_cases
    {phase phase' : CoordinatorPhase}
    {start : ℕ}
    {progress : Option ℕ}
    {ok : Bool}
    (hread : phase.read start progress ok = some phase') :
    ∃ tip, phase = .reading tip ∧
      (phase' = .waiting ∨
        phase' = .processing ((progress.map saturatingSucc).getD start) tip) := by
  cases phase with
  | waiting => simp [CoordinatorPhase.read] at hread
  | processing height tip => simp [CoordinatorPhase.read] at hread
  | saving height tip => simp [CoordinatorPhase.read] at hread
  | reading tip =>
      refine ⟨tip, rfl, ?_⟩
      simp only [CoordinatorPhase.read] at hread
      split at hread
      · split at hread
        · exact Or.inl (Option.some.inj hread).symm
        · exact Or.inr (Option.some.inj hread).symm
      · exact Or.inl (Option.some.inj hread).symm

theorem coordinatorTip_cases
    {phase phase' : CoordinatorPhase}
    {answer : Option ℕ}
    (htip : phase.tip answer = some phase') :
    phase' = .waiting ∨ ∃ tip, phase' = .reading tip := by
  cases phase <;> cases answer <;> simp_all [CoordinatorPhase.tip, eq_comm]

theorem coordinatorProcessed_cases
    {phase phase' : CoordinatorPhase}
    {ok : Bool}
    (hprocessed : phase.processed ok = some phase') :
    ∃ height tip, phase = .processing height tip ∧ phase.current = some height ∧
      ((ok = true ∧ phase' = .saving height tip) ∨ (ok = false ∧ phase' = .waiting)) := by
  cases phase with
  | waiting => simp [CoordinatorPhase.processed] at hprocessed
  | reading tip => simp [CoordinatorPhase.processed] at hprocessed
  | saving height tip => simp [CoordinatorPhase.processed] at hprocessed
  | processing height tip =>
      refine ⟨height, tip, rfl, rfl, ?_⟩
      cases ok <;> simp_all [CoordinatorPhase.processed, eq_comm]

theorem saved_cases
    {phase : CoordinatorPhase}
    {progress : Option ℕ}
    {result : SaveResult}
    {saved : CoordinatorPhase × Option ℕ}
    (hsaved : phase.saved progress result = some saved) :
    ∃ height tip, phase = .saving height tip ∧
      (saved = (.waiting, progress) ∨ saved = (.waiting, some height) ∨
        saved = (.processing (height + 1) tip, some height)) := by
  cases phase with
  | waiting => simp [CoordinatorPhase.saved] at hsaved
  | reading tip => simp [CoordinatorPhase.saved] at hsaved
  | processing height tip => simp [CoordinatorPhase.saved] at hsaved
  | saving height tip =>
      refine ⟨height, tip, rfl, ?_⟩
      cases result <;> simp only [CoordinatorPhase.saved, Option.some.injEq] at hsaved
      · split at hsaved <;> simp [← hsaved]
      · simp [← hsaved]
      · simp [← hsaved]

/-- One constructor for each call that can end, with what its end does to the loops. -/
inductive Loops.Steps (startHeight : Option ℕ) (loops : Loops) : LoopAction → Loops → Prop where
  | pollerTip (answer : Option ℕ) (poller' : Poller)
      (htip : loops.poller.tip answer = some poller') :
      loops.Steps startHeight (.pollerTip answer)
        { loops with poller := poller', firstTip := loops.firstTip.or answer }
  | pollerRefreshed (poller' : Poller)
      (hrefreshed : loops.poller.refreshed startHeight = some poller') :
      loops.Steps startHeight .pollerRefreshed { loops with poller := poller' }
  | pollerProcessed (ok : Bool) (height : ℕ) (poller' : Poller)
      (hcurrent : loops.poller.current = some height)
      (hprocessed : loops.poller.processed ok = some poller') :
      loops.Steps startHeight (.pollerProcessed ok)
        { loops with poller := poller', attempts := loops.attempts ++ [(height, ok)] }
  | coordinatorTip (answer : Option ℕ) (phase' : CoordinatorPhase)
      (hsignalled : (startHeight.isSome && loops.poller.signalled) = true)
      (htip : loops.coordinator.tip answer = some phase') :
      loops.Steps startHeight (.coordinatorTip answer) { loops with coordinator := phase' }
  | coordinatorRead (ok : Bool) (start : ℕ) (phase' : CoordinatorPhase)
      (hstart : startHeight = some start)
      (hread : loops.coordinator.read start loops.progress ok = some phase') :
      loops.Steps startHeight (.coordinatorRead ok) { loops with coordinator := phase' }
  | coordinatorProcessed (ok : Bool) (height : ℕ) (phase' : CoordinatorPhase)
      (hcurrent : loops.coordinator.current = some height)
      (hprocessed : loops.coordinator.processed ok = some phase') :
      loops.Steps startHeight (.coordinatorProcessed ok)
        { loops with coordinator := phase', attempts := loops.attempts ++ [(height, ok)] }
  | coordinatorSaved (result : SaveResult) (saved : CoordinatorPhase × Option ℕ)
      (hsaved : loops.coordinator.saved loops.progress result = some saved) :
      loops.Steps startHeight (.coordinatorSaved result)
        { loops with coordinator := saved.1, progress := saved.2 }

theorem steps_of_step
    {action : LoopAction}
    (hstep : loops.step startHeight action = some loops') :
    loops.Steps startHeight action loops' := by
  cases action with
  | pollerTip answer =>
      obtain ⟨poller', htip, rfl⟩ := Option.map_eq_some_iff.mp hstep
      exact .pollerTip answer poller' htip
  | pollerRefreshed =>
      obtain ⟨poller', hrefreshed, rfl⟩ := Option.map_eq_some_iff.mp hstep
      exact .pollerRefreshed poller' hrefreshed
  | pollerProcessed ok =>
      obtain ⟨height, hcurrent, hrest⟩ := Option.bind_eq_some_iff.mp hstep
      obtain ⟨poller', hprocessed, rfl⟩ := Option.map_eq_some_iff.mp hrest
      exact .pollerProcessed ok height poller' hcurrent hprocessed
  | coordinatorTip answer =>
      obtain ⟨hsignalled, hrest⟩ := Option.ite_none_right_eq_some.mp hstep
      obtain ⟨phase', htip, rfl⟩ := Option.map_eq_some_iff.mp hrest
      exact .coordinatorTip answer phase' hsignalled htip
  | coordinatorRead ok =>
      obtain ⟨start, hstart, hrest⟩ := Option.bind_eq_some_iff.mp hstep
      obtain ⟨phase', hread, rfl⟩ := Option.map_eq_some_iff.mp hrest
      exact .coordinatorRead ok start phase' hstart hread
  | coordinatorProcessed ok =>
      obtain ⟨height, hcurrent, hrest⟩ := Option.bind_eq_some_iff.mp hstep
      obtain ⟨phase', hprocessed, rfl⟩ := Option.map_eq_some_iff.mp hrest
      exact .coordinatorProcessed ok height phase' hcurrent hprocessed
  | coordinatorSaved result =>
      obtain ⟨saved, hsaved, rfl⟩ := Option.map_eq_some_iff.mp hstep
      exact .coordinatorSaved result saved hsaved

theorem attempts_extend
    {action : LoopAction}
    (hstep : loops.step startHeight action = some loops') :
    loops.attempts <+: loops'.attempts := by
  cases steps_of_step hstep with
  | pollerProcessed => exact List.prefix_append _ _
  | coordinatorProcessed => exact List.prefix_append _ _
  | _ => exact List.prefix_rfl

theorem processed_mono
    {action : LoopAction}
    {height : ℕ}
    (hstep : loops.step startHeight action = some loops')
    (hprocessed : loops.Processed height) :
    loops'.Processed height :=
  (attempts_extend hstep).subset hprocessed

/-- What holds between the pointer, the phase of the poller and the first tip. -/
structure Loops.PollerSound (loops : Loops) : Prop where
  unseen : loops.poller.lastHeight = none → loops.poller.phase = .waiting →
    loops.firstTip = none
  observed : ∀ tip, loops.poller.lastHeight = none → loops.poller.phase = .refreshing tip →
    loops.firstTip = some tip
  first : ∀ height tip, loops.poller.lastHeight = none →
    loops.poller.phase = .processing height tip → height = tip ∧ loops.firstTip = some tip
  next : ∀ prev height tip, loops.poller.lastHeight = some prev →
    loops.poller.phase = .processing height tip → height = prev + 1
  seen : ∀ prev, loops.poller.lastHeight = some prev → ∃ tip, loops.firstTip = some tip

theorem pollerSound_start :
    Loops.start.PollerSound := by
  constructor <;> simp [Loops.start, Poller.start]

theorem pollerSound_of_seen
    {prev first : ℕ}
    (hprev : loops.poller.lastHeight = some prev)
    (hfirst : loops.firstTip = some first)
    (hnext : ∀ height tip, loops.poller.phase = .processing height tip → height = prev + 1) :
    loops.PollerSound := by
  constructor
  · intro hnone
    rw [hprev] at hnone
    cases hnone
  · intro _ hnone
    rw [hprev] at hnone
    cases hnone
  · intro _ _ hnone
    rw [hprev] at hnone
    cases hnone
  · intro pointer height tip hpointer hphase
    rw [hprev, Option.some.injEq] at hpointer
    rw [← hpointer]
    exact hnext height tip hphase
  · intro _ _
    exact ⟨first, hfirst⟩

theorem pollerSound_of_unseen
    (hlast : loops.poller.lastHeight = none)
    (hunseen : loops.poller.phase = .waiting → loops.firstTip = none)
    (hobserved : ∀ tip, loops.poller.phase = .refreshing tip → loops.firstTip = some tip)
    (hfirst : ∀ height tip, loops.poller.phase = .processing height tip →
      height = tip ∧ loops.firstTip = some tip) :
    loops.PollerSound := by
  constructor
  · exact fun _ => hunseen
  · exact fun tip _ => hobserved tip
  · exact fun height tip _ => hfirst height tip
  · intro prev _ _ hprev
    rw [hlast] at hprev
    cases hprev
  · intro prev hprev
    rw [hlast] at hprev
    cases hprev

theorem pollerSound_step
    {action : LoopAction}
    (hsound : loops.PollerSound)
    (hstep : loops.step startHeight action = some loops') :
    loops'.PollerSound := by
  obtain ⟨hunseen, hobserved, hfirst, hnext, hseen⟩ := hsound
  cases steps_of_step hstep with
  | pollerTip answer poller' htip =>
      obtain ⟨hwaiting, ⟨rfl, rfl⟩ | ⟨height, rfl, hcases⟩⟩ := tip_cases htip
      · rw [Option.or_none]
        exact ⟨hunseen, hobserved, hfirst, hnext, hseen⟩
      · rcases hcases with ⟨hnone, rfl⟩ | ⟨prev, hprev, hcases⟩
        · have hfirstTip : loops.firstTip.or (some height) = some height := by
            rw [hunseen hnone hwaiting]
            rfl
          refine pollerSound_of_unseen hnone ?_ ?_ ?_
          · intro hphase
            cases hphase
          · intro tip hphase
            cases hphase
            exact hfirstTip
          · intro _ _ hphase
            cases hphase
        · obtain ⟨tip, htip⟩ := hseen prev hprev
          have hfirstTip : loops.firstTip.or (some height) = some tip := by
            rw [htip]
            rfl
          have hidle : ∀ next tip, loops.poller.phase ≠ .processing next tip := by
            intro next tip hphase
            rw [hwaiting] at hphase
            cases hphase
          rcases hcases with ⟨_, rfl⟩ | ⟨_, rfl⟩ | ⟨_, rfl⟩
          · exact pollerSound_of_seen hprev hfirstTip fun _ _ hphase => by cases hphase
          · exact pollerSound_of_seen rfl hfirstTip
              fun next tip hphase => absurd hphase (hidle next tip)
          · exact pollerSound_of_seen hprev hfirstTip
              fun next tip hphase => absurd hphase (hidle next tip)
  | pollerRefreshed poller' hrefreshed =>
      obtain ⟨tip, hphase, hcases⟩ := refreshed_cases hrefreshed
      rcases hcases with ⟨hnone, _, rfl⟩ | ⟨hnone, _, rfl⟩ | ⟨prev, hprev, rfl⟩
      · have hfirstTip := hobserved tip hnone hphase
        refine pollerSound_of_unseen hnone ?_ ?_ ?_
        · intro hphase
          cases hphase
        · intro _ hphase
          cases hphase
        · intro _ _ hphase
          cases hphase
          exact ⟨rfl, hfirstTip⟩
      · exact pollerSound_of_seen rfl (hobserved tip hnone hphase)
          fun _ _ hphase => by cases hphase
      · obtain ⟨first, hfirstTip⟩ := hseen prev hprev
        exact pollerSound_of_seen hprev hfirstTip fun _ _ hphase => by
          cases hphase
          rfl
  | pollerProcessed ok _ poller' _ hprocessed =>
      obtain ⟨height, tip, hphase, _, hcases⟩ := processed_cases hprocessed
      rcases hcases with ⟨hnone, rfl⟩ | ⟨prev, hprev, hcases⟩
      · exact pollerSound_of_seen rfl (hfirst height tip hnone hphase).2
          fun _ _ hphase => by cases hphase
      · obtain ⟨first, hfirstTip⟩ := hseen prev hprev
        rcases hcases with ⟨_, rfl⟩ | ⟨_, rfl⟩
        · refine pollerSound_of_seen rfl hfirstTip ?_
          intro next tip' hphase'
          dsimp only at hphase'
          split at hphase'
          · cases hphase'
            rfl
          · cases hphase'
        · exact pollerSound_of_seen hprev hfirstTip fun _ _ hphase => by cases hphase
  | coordinatorTip => exact ⟨hunseen, hobserved, hfirst, hnext, hseen⟩
  | coordinatorRead => exact ⟨hunseen, hobserved, hfirst, hnext, hseen⟩
  | coordinatorProcessed => exact ⟨hunseen, hobserved, hfirst, hnext, hseen⟩
  | coordinatorSaved => exact ⟨hunseen, hobserved, hfirst, hnext, hseen⟩

end Steps

end AlkanesIndexer
