import Mathlib.Data.List.TakeWhile
import Mathlib.Tactic

/-!
# The pause of the poller

Between two ticks the poller sleeps.  An answered tip sets the pause back to the poll
interval, and each one that fails doubles it, up to half a minute.  The time that the tick
has taken is part of the pause.
-/

namespace AlkanesIndexer

/-- `saturating_mul` of `u64`. -/
def saturatingMul (left right : ℕ) : ℕ := min (left * right) (2 ^ 64 - 1)

/-- Every duration is in milliseconds. -/
structure PollerClock where
  pollIntervalMs : ℕ
  backoffMs : ℕ
  deriving DecidableEq, Repr

/-- What the clock sees of a tick: whether the tip was answered, and its time. -/
structure TimedTick where
  answered : Bool
  elapsedMs : ℕ
  deriving DecidableEq, Repr

namespace PollerClock

def start (pollIntervalMs : ℕ) : PollerClock := ⟨pollIntervalMs, max pollIntervalMs 250⟩

def tick (clock : PollerClock) (tick : TimedTick) : PollerClock :=
  { clock with
    backoffMs :=
      if tick.answered then clock.pollIntervalMs
      else min (saturatingMul clock.backoffMs 2) 30000 }

/-- The pause after the tick.  The milliseconds of the tick are cast to `u64`. -/
def sleepMs (clock : PollerClock) (tick : TimedTick) : ℕ :=
  let base :=
    if clock.backoffMs = clock.pollIntervalMs then clock.pollIntervalMs else clock.backoffMs
  max (base - tick.elapsedMs % 2 ^ 64) 50

/-- The clock after the ticks, with the pause after each of them. -/
def run (clock : PollerClock) : List TimedTick → PollerClock × List ℕ
  | [] => (clock, [])
  | tick :: ticks =>
      let ticked := clock.tick tick
      let rest := ticked.run ticks
      (rest.1, ticked.sleepMs tick :: rest.2)

end PollerClock

/-! ## The backoff after any history -/

/-- The failed ticks since the last answered one. -/
def trailingFailures (ticks : List TimedTick) : ℕ :=
  (ticks.reverse.takeWhile fun tick => !tick.answered).length

/-- The first doubling starts from the poll interval, once a tip has been answered. -/
def firstPause (pollIntervalMs : ℕ) (ticks : List TimedTick) : ℕ :=
  if ticks.any TimedTick.answered then pollIntervalMs else max pollIntervalMs 250

/-- The pause before the time of the last tick is taken off. -/
def pauseAfter (pollIntervalMs : ℕ) (ticks : List TimedTick) : ℕ :=
  if trailingFailures ticks = 0 then firstPause pollIntervalMs ticks
  else min (firstPause pollIntervalMs ticks * 2 ^ trailingFailures ticks) 30000

section History

variable {pollIntervalMs : ℕ} {clock : PollerClock} {ticks : List TimedTick} {tick : TimedTick}

theorem trailingFailures_concat :
    trailingFailures (ticks ++ [tick]) =
      if tick.answered then 0 else trailingFailures ticks + 1 := by
  unfold trailingFailures
  rw [List.reverse_append, List.reverse_singleton, List.singleton_append, List.takeWhile_cons]
  cases tick.answered <;> simp

theorem firstPause_concat :
    firstPause pollIntervalMs (ticks ++ [tick]) =
      if tick.answered then pollIntervalMs else firstPause pollIntervalMs ticks := by
  unfold firstPause
  rw [List.any_append, List.any_cons, List.any_nil, Bool.or_false]
  cases tick.answered <;> simp

theorem min_saturatingMul
    (backoffMs : ℕ) :
    min (saturatingMul backoffMs 2) 30000 = min (backoffMs * 2) 30000 := by
  have hcap : 30000 ≤ 2 ^ 64 - 1 := by norm_num
  unfold saturatingMul
  rw [min_assoc, min_eq_right hcap]

theorem run_concat
    (clock : PollerClock)
    (ticks : List TimedTick)
    (tick : TimedTick) :
    clock.run (ticks ++ [tick]) =
      (((clock.run ticks).1.tick tick),
        (clock.run ticks).2 ++ [((clock.run ticks).1.tick tick).sleepMs tick]) := by
  induction ticks generalizing clock with
  | nil => rfl
  | cons first rest ih =>
      rw [List.cons_append, PollerClock.run, PollerClock.run, ih]
      rfl

theorem run_pollIntervalMs
    (clock : PollerClock)
    (ticks : List TimedTick) :
    (clock.run ticks).1.pollIntervalMs = clock.pollIntervalMs := by
  induction ticks generalizing clock with
  | nil => rfl
  | cons first rest ih => exact ih (clock.tick first)

/-- Without a failure at the end the backoff is what it was, and `n` of them have doubled
it `n` times, up to the cap. -/
theorem backoffMs_of_history
    (pollIntervalMs : ℕ)
    (ticks : List TimedTick) :
    ((PollerClock.start pollIntervalMs).run ticks).1.backoffMs =
      pauseAfter pollIntervalMs ticks := by
  unfold pauseAfter
  induction ticks using List.reverseRecOn with
  | nil => rfl
  | append_singleton ticks tick ih =>
      have hinterval : ((PollerClock.start pollIntervalMs).run ticks).1.pollIntervalMs =
          pollIntervalMs :=
        run_pollIntervalMs (PollerClock.start pollIntervalMs) ticks
      rw [run_concat, trailingFailures_concat, firstPause_concat, PollerClock.tick]
      cases tick.answered with
      | true => simpa using hinterval
      | false =>
          simp only [Bool.false_eq_true, if_false, Nat.add_one_ne_zero]
          rw [min_saturatingMul, ih, pow_succ, ← mul_assoc]
          split
          next hnone => rw [hnone, pow_zero, mul_one]
          next =>
            have hdouble : ∀ pause, min (min pause 30000 * 2) 30000 = min (pause * 2) 30000 := by
              omega
            rw [hdouble]

theorem pauseAfter_le
    (pollIntervalMs : ℕ)
    (ticks : List TimedTick) :
    pauseAfter pollIntervalMs ticks ≤ max pollIntervalMs 30000 := by
  unfold pauseAfter firstPause
  split_ifs <;> omega

theorem run_length
    (clock : PollerClock)
    (ticks : List TimedTick) :
    (clock.run ticks).2.length = ticks.length := by
  induction ticks generalizing clock with
  | nil => rfl
  | cons first rest ih => exact congrArg Nat.succ (ih (clock.tick first))

theorem run_pauses_append
    (clock : PollerClock)
    (ticks later : List TimedTick) :
    (clock.run (ticks ++ later)).2 =
      (clock.run ticks).2 ++ ((clock.run ticks).1.run later).2 := by
  induction ticks generalizing clock with
  | nil => rfl
  | cons first rest ih => exact congrArg (List.cons _) (ih (clock.tick first))

/-- Every pause of every run: the doubled backoff less the time of the tick, and within
50 ms and the cap or the poll interval. -/
theorem pauses_of_run
    (pollIntervalMs : ℕ)
    (earlier : List TimedTick)
    (tick : TimedTick)
    (later : List TimedTick) :
    ∃ pauseMs,
      ((PollerClock.start pollIntervalMs).run (earlier ++ tick :: later)).2[earlier.length]? =
        some pauseMs ∧
      pauseMs = max (pauseAfter pollIntervalMs (earlier ++ [tick]) - tick.elapsedMs % 2 ^ 64) 50 ∧
      50 ≤ pauseMs ∧ pauseMs ≤ max pollIntervalMs 30000 := by
  have hbackoff := backoffMs_of_history pollIntervalMs (earlier ++ [tick])
  have hle := pauseAfter_le pollIntervalMs (earlier ++ [tick])
  rw [run_concat] at hbackoff
  refine ⟨_, ?_, rfl, le_max_right _ _, by omega⟩
  rw [run_pauses_append, List.getElem?_append_right (run_length _ _).le, run_length,
    Nat.sub_self, PollerClock.run, List.getElem?_cons_zero, ← hbackoff, PollerClock.sleepMs]
  split
  next hsame => rw [hsame]
  next => rfl

end History

/-- Three failures in a row double the quarter of a second it starts with three times. -/
example : ((PollerClock.start 100).run [⟨false, 10⟩, ⟨false, 10⟩, ⟨false, 10⟩, ⟨true, 10⟩]).2 =
    [490, 990, 1990, 90] := by decide

end AlkanesIndexer
