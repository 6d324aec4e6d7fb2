import AlkanesIndexer.TipFollowing

/-!
# How soon the loops catch up

No call of either loop is sure to succeed, so neither loop is sure to get anywhere.  But a
pass ends in two ways only, with a failed call or at its tip, and it loses nothing of what
the ones before it have done.  So after more passes than failures a loop has reached the
tip they were for, and the coordinator calls no height again without a failure at it.
-/

namespace AlkanesIndexer

open Runs

/-! ## Passes and failures -/

namespace LoopAction

/-- The coordinator begins a pass to the height or beyond. -/
def beginsCatchUp (height : ℕ) : LoopAction → Bool
  | .coordinatorTip (some tip) => height ≤ tip
  | _ => false

/-- A call that ends the pass of the coordinator. -/
def failsCatchUp : LoopAction → Bool
  | .coordinatorRead ok => !ok
  | .coordinatorProcessed ok => !ok
  | .coordinatorSaved result => result ≠ .saved
  | _ => false

/-- The poller begins a tick with a tip at the height or above. -/
def beginsTick (height : ℕ) : LoopAction → Bool
  | .pollerTip (some tip) => height ≤ tip
  | _ => false

def failsTick : LoopAction → Bool
  | .pollerProcessed ok => !ok
  | _ => false

end LoopAction

/-- A pass to the height or beyond is under way. -/
def CoordinatorPhase.underway (height : ℕ) : CoordinatorPhase → ℕ
  | .waiting => 0
  | .reading tip => (decide (height ≤ tip)).toNat
  | .processing _ tip => (decide (height ≤ tip)).toNat
  | .saving _ tip => (decide (height ≤ tip)).toNat

def PollerPhase.underway (height : ℕ) : PollerPhase → ℕ
  | .waiting => 0
  | .refreshing tip => (decide (height ≤ tip)).toNat
  | .processing _ tip => (decide (height ≤ tip)).toNat

/-- The stored progress has reached the height. -/
def Loops.CaughtUp (height : ℕ) (loops : Loops) : Prop :=
  ∃ last, loops.progress = some last ∧ height ≤ last

/-- The pointer of the poller has reached the height. -/
def Loops.Followed (height : ℕ) (loops : Loops) : Prop :=
  ∃ last, loops.poller.lastHeight = some last ∧ height ≤ last

section Passes

variable {start height : ℕ} {startHeight : Option ℕ} {loops loops' : Loops} {action : LoopAction}

/-- The read behind a tip goes on with the next height, unless the progress is there. -/
theorem underway_of_read
    {phase phase' : CoordinatorPhase}
    {progress : Option ℕ}
    {ok : Bool}
    (hstart : start ≤ height)
    (hread : phase.read start progress ok = some phase') :
    (∃ last, progress = some last ∧ height ≤ last) ∨
      phase.underway height ≤ (!ok).toNat + phase'.underway height := by
  cases phase with
  | waiting => cases hread
  | processing next tip => cases hread
  | saving next tip => cases hread
  | reading tip =>
      by_cases hbelow : height ≤ tip
      · cases ok with
        | false =>
            right
            simp [CoordinatorPhase.underway, hbelow]
        | true =>
            simp only [CoordinatorPhase.read, if_true] at hread
            split at hread
            next hbeyond =>
              left
              cases progress with
              | none => exact absurd (hstart.trans hbelow) (Nat.not_le.mpr hbeyond)
              | some last =>
                  simp only [Option.map_some, Option.getD_some, saturatingSucc] at hbeyond
                  refine ⟨last, rfl, ?_⟩
                  split at hbeyond <;> omega
            next =>
              right
              cases hread
              simp [CoordinatorPhase.underway]
      · right
        simp [CoordinatorPhase.underway, hbelow]

theorem underway_of_saved
    {phase : CoordinatorPhase}
    {progress : Option ℕ}
    {result : SaveResult}
    {saved : CoordinatorPhase × Option ℕ}
    (hsaved : phase.saved progress result = some saved) :
    (∃ last, saved.2 = some last ∧ height ≤ last) ∨
      phase.underway height ≤ (decide (result ≠ .saved)).toNat + saved.1.underway height := by
  cases phase with
  | waiting => cases hsaved
  | reading tip => cases hsaved
  | processing next tip => cases hsaved
  | saving next tip =>
      by_cases hbelow : height ≤ tip
      · cases result with
        | lost =>
            right
            simp [CoordinatorPhase.underway, hbelow]
        | unacknowledged =>
            right
            simp [CoordinatorPhase.underway, hbelow]
        | saved =>
            simp only [CoordinatorPhase.saved, Option.some.injEq] at hsaved
            subst hsaved
            by_cases hlast : next < tip
            · right
              simp [CoordinatorPhase.underway, hlast]
            · exact .inl ⟨next, rfl, by omega⟩
      · right
        simp [CoordinatorPhase.underway, hbelow]

theorem catchUp_step
    (hcovers : Covers start loops)
    (hstart : start ≤ height)
    (hstep : loops.step (some start) action = some loops') :
    loops'.CaughtUp height ∨ ¬ loops.CaughtUp height ∧
      (action.beginsCatchUp height).toNat + loops.coordinator.underway height ≤
        action.failsCatchUp.toNat + loops'.coordinator.underway height := by
  by_cases hreached : loops.CaughtUp height
  · obtain ⟨last, hlast, hle⟩ := hreached
    obtain ⟨last', hlast', hle'⟩ := progressLe_step hcovers hstep last hlast
    exact .inl ⟨last', hlast', hle.trans hle'⟩
  · suffices hle : loops'.CaughtUp height ∨
        (action.beginsCatchUp height).toNat + loops.coordinator.underway height ≤
          action.failsCatchUp.toNat + loops'.coordinator.underway height from
      hle.imp_right fun hle => ⟨hreached, hle⟩
    cases steps_of_step hstep with
    | pollerTip answer poller' htip => exact .inr (Nat.add_le_add_right (Nat.zero_le _) _)
    | pollerRefreshed poller' hrefreshed => exact .inr le_rfl
    | pollerProcessed ok current poller' hcurrent hprocessed => exact .inr le_rfl
    | coordinatorTip answer phase' hsignalled htip =>
        right
        cases hphase : loops.coordinator with
        | waiting =>
            rw [hphase] at htip
            cases answer <;> cases htip <;> simp [LoopAction.beginsCatchUp,
              CoordinatorPhase.underway]
        | reading tip => simp [hphase, CoordinatorPhase.tip] at htip
        | processing next tip => simp [hphase, CoordinatorPhase.tip] at htip
        | saving next tip => simp [hphase, CoordinatorPhase.tip] at htip
    | coordinatorRead ok _ phase' heq hread =>
        cases heq
        change Loops.CaughtUp height _ ∨ 0 + loops.coordinator.underway height ≤ _
        rw [Nat.zero_add]
        exact underway_of_read hstart hread
    | coordinatorProcessed ok current phase' hcurrent hprocessed =>
        right
        obtain ⟨next, tip, hphase, _, hcases⟩ := coordinatorProcessed_cases hprocessed
        rcases hcases with ⟨rfl, rfl⟩ | ⟨rfl, rfl⟩
        · simp [LoopAction.beginsCatchUp, hphase, CoordinatorPhase.underway]
        · cases hbelow : decide (height ≤ tip) <;>
            simp [LoopAction.beginsCatchUp, LoopAction.failsCatchUp, hphase,
              CoordinatorPhase.underway, hbelow]
    | coordinatorSaved result saved hsaved =>
        change Loops.CaughtUp height _ ∨ 0 + loops.coordinator.underway height ≤ _
        rw [Nat.zero_add]
        exact underway_of_saved hsaved

/-- A pointer at the height only falls below it with the tip. -/
theorem followed_step
    (hsound : loops.PollerSound)
    (htips : ∀ tip, action = .pollerTip (some tip) → height ≤ tip)
    (hstep : loops.step startHeight action = some loops')
    (hfollowed : loops.Followed height) :
    loops'.Followed height := by
  obtain ⟨last, hlast, hle⟩ := hfollowed
  cases steps_of_step hstep with
  | pollerTip answer poller' htip =>
      obtain ⟨_, ⟨_, rfl⟩ | ⟨tip, rfl, hcases⟩⟩ := tip_cases htip
      · exact ⟨last, hlast, hle⟩
      · rcases hcases with ⟨_, rfl⟩ | ⟨_, _, ⟨_, rfl⟩ | ⟨_, rfl⟩ | ⟨_, rfl⟩⟩
        · exact ⟨last, hlast, hle⟩
        · exact ⟨last, hlast, hle⟩
        · exact ⟨tip, rfl, htips tip rfl⟩
        · exact ⟨last, hlast, hle⟩
  | pollerRefreshed poller' hrefreshed =>
      obtain ⟨tip, _, ⟨_, _, rfl⟩ | ⟨hnone, _, rfl⟩ | ⟨_, _, rfl⟩⟩ := refreshed_cases hrefreshed
      · exact ⟨last, hlast, hle⟩
      · rw [hlast] at hnone
        cases hnone
      · exact ⟨last, hlast, hle⟩
  | pollerProcessed ok current poller' hcurrent hprocessed =>
      obtain ⟨next, tip, hphase, _, ⟨hnone, rfl⟩ | ⟨prev, hprev, ⟨_, rfl⟩ | ⟨_, rfl⟩⟩⟩ :=
        processed_cases hprocessed
      · rw [hlast] at hnone
        cases hnone
      · have hnext := hsound.next last next tip hlast hphase
        exact ⟨next, rfl, by omega⟩
      · exact ⟨last, hlast, hle⟩
  | coordinatorTip => exact ⟨last, hlast, hle⟩
  | coordinatorRead => exact ⟨last, hlast, hle⟩
  | coordinatorProcessed => exact ⟨last, hlast, hle⟩
  | coordinatorSaved => exact ⟨last, hlast, hle⟩

theorem follow_step
    (hsound : loops.PollerSound)
    (htips : ∀ tip, action = .pollerTip (some tip) → height ≤ tip)
    (hstep : loops.step startHeight action = some loops') :
    loops'.Followed height ∨ ¬ loops.Followed height ∧
      (action.beginsTick height).toNat + loops.poller.phase.underway height ≤
        action.failsTick.toNat + loops'.poller.phase.underway height := by
  by_cases hfollowed : loops.Followed height
  · exact .inl (followed_step hsound htips hstep hfollowed)
  suffices hle : loops'.Followed height ∨
      (action.beginsTick height).toNat + loops.poller.phase.underway height ≤
        action.failsTick.toNat + loops'.poller.phase.underway height from
    hle.imp_right fun hle => ⟨hfollowed, hle⟩
  cases steps_of_step hstep with
  | pollerTip answer poller' htip =>
      obtain ⟨hwaiting, ⟨rfl, rfl⟩ | ⟨tip, rfl, hcases⟩⟩ := tip_cases htip
      · exact .inr le_rfl
      · have hbelow := htips tip rfl
        rcases hcases with ⟨_, rfl⟩ | ⟨prev, hprev, ⟨_, rfl⟩ | ⟨_, rfl⟩ | ⟨rfl, rfl⟩⟩
        · right
          simp [hwaiting, LoopAction.beginsTick, PollerPhase.underway]
        · right
          simp [hwaiting, LoopAction.beginsTick, PollerPhase.underway]
        · exact .inl ⟨tip, rfl, hbelow⟩
        · exact .inl ⟨tip, hprev, hbelow⟩
  | pollerRefreshed poller' hrefreshed =>
      obtain ⟨tip, hphase, hcases⟩ := refreshed_cases hrefreshed
      by_cases hbelow : height ≤ tip
      · rcases hcases with ⟨_, _, rfl⟩ | ⟨_, _, rfl⟩ | ⟨_, _, rfl⟩
        · right
          simp [hphase, LoopAction.beginsTick, PollerPhase.underway]
        · exact .inl ⟨tip, rfl, hbelow⟩
        · right
          simp [hphase, LoopAction.beginsTick, PollerPhase.underway]
      · right
        simp [hphase, LoopAction.beginsTick, PollerPhase.underway, hbelow]
  | pollerProcessed ok current poller' hcurrent hprocessed =>
      obtain ⟨next, tip, hphase, _, hcases⟩ := processed_cases hprocessed
      by_cases hbelow : height ≤ tip
      · rcases hcases with ⟨_, rfl⟩ | ⟨prev, _, ⟨rfl, rfl⟩ | ⟨rfl, rfl⟩⟩
        · exact .inl ⟨tip, rfl, hbelow⟩
        · by_cases hlast : next < tip
          · right
            simp [hphase, LoopAction.beginsTick, PollerPhase.underway, hlast]
          · exact .inl ⟨next, rfl, by omega⟩
        · right
          simp [hphase, LoopAction.beginsTick, LoopAction.failsTick, PollerPhase.underway, hbelow]
      · right
        simp [hphase, LoopAction.beginsTick, PollerPhase.underway, hbelow]
  | coordinatorTip => exact .inr (Nat.add_le_add_right (Nat.zero_le _) _)
  | coordinatorRead => exact .inr (Nat.add_le_add_right (Nat.zero_le _) _)
  | coordinatorProcessed => exact .inr (Nat.add_le_add_right (Nat.zero_le _) _)
  | coordinatorSaved => exact .inr (Nat.add_le_add_right (Nat.zero_le _) _)

end Passes

/-- From every reachable state on, whatever fails and however the calls interleave: after
more passes to a height than failed calls the progress has reached it, with everything
from the start height up to it processed; and after more ticks with tips from a height on
than failed calls so has the pointer of the poller. -/
theorem caught_up_of_run
    {startHeight : Option ℕ}
    {earlier actions : List LoopAction}
    {loops loops' : Loops}
    (hearlier : Loops.run startHeight earlier = some loops)
    (hrun : run (Loops.step startHeight) loops actions = some loops')
    (height : ℕ) :
    (∀ start, startHeight = some start → start ≤ height →
        actions.countP LoopAction.failsCatchUp + loops'.coordinator.underway height <
          actions.countP (LoopAction.beginsCatchUp height) →
        loops'.CaughtUp height ∧
          ∀ caught, start ≤ caught → caught ≤ height → loops'.Processed caught) ∧
      ((∀ tip, .pollerTip (some tip) ∈ actions → height ≤ tip) →
        actions.countP LoopAction.failsTick + loops'.poller.phase.underway height <
          actions.countP (LoopAction.beginsTick height) →
        loops'.Followed height) := by
  constructor
  · rintro start rfl hstart hmore
    have hcovers := covers_run hearlier
    have hreached : loops'.CaughtUp height ∨
        actions.countP (LoopAction.beginsCatchUp height) + loops.coordinator.underway height ≤
          actions.countP LoopAction.failsCatchUp + loops'.coordinator.underway height :=
      reached_or_countP_le hrun hcovers (fun _ _ _ => covers_step)
        fun _ _ _ hstate _ hstep => catchUp_step hstate hstart hstep
    have hcaughtUp := hreached.resolve_right (by omega)
    refine ⟨hcaughtUp, fun caught hlow hhigh => ?_⟩
    obtain ⟨last, hlast, hle⟩ := hcaughtUp
    exact (invariant_of_run (fun _ _ _ => covers_step) hcovers hrun).progress last hlast caught hlow
      (hhigh.trans hle)
  · intro htips hmore
    have hsound : loops.PollerSound :=
      invariant_of_run (fun _ _ _ => pollerSound_step) pollerSound_start hearlier
    have hreached : loops'.Followed height ∨
        actions.countP (LoopAction.beginsTick height) + loops.poller.phase.underway height ≤
          actions.countP LoopAction.failsTick + loops'.poller.phase.underway height :=
      reached_or_countP_le hrun hsound (fun _ _ _ => pollerSound_step)
        fun _ action _ hstate hmem hstep =>
          follow_step hstate (fun tip heq => htips tip (heq ▸ hmem)) hstep
    exact hreached.resolve_right (by omega)

/-- Both loops at the tip 7, with a failure each. -/
def failingCatchUp : List LoopAction :=
  [.pollerTip (some 7), .pollerRefreshed, .coordinatorTip (some 7), .coordinatorRead true,
    .coordinatorProcessed true, .coordinatorSaved .lost, .pollerTip none, .coordinatorTip (some 7),
    .coordinatorRead true, .coordinatorProcessed true, .coordinatorSaved .saved,
    .pollerTip (some 8), .pollerRefreshed, .coordinatorProcessed true, .pollerProcessed false,
    .coordinatorSaved .saved]

theorem failingCatchUp_caught_up :
    ∃ loops, Loops.run (some 6) failingCatchUp = some loops ∧ loops.CaughtUp 7 ∧
      loops.Followed 7 ∧ ∀ height, 6 ≤ height → height ≤ 7 → loops.Processed height := by
  have hrun : ∃ loops, Loops.run (some 6) failingCatchUp = some loops := ⟨_, rfl⟩
  obtain ⟨loops, hrun⟩ := hrun
  have hphases : (Loops.run (some 6) failingCatchUp).map
      (fun loops => (loops.coordinator.underway 7, loops.poller.phase.underway 7)) =
      some (0, 0) := by decide
  rw [hrun, Option.map_some, Option.some.injEq, Prod.mk.injEq] at hphases
  have hstart : Loops.run (some 6) [] = some .start := rfl
  obtain ⟨hcatchUp, hfollow⟩ := caught_up_of_run hstart hrun 7
  obtain ⟨hcaughtUp, hprocessed⟩ := hcatchUp 6 rfl (by decide) (by rw [hphases.1]; decide)
  refine ⟨loops, hrun, hcaughtUp, hfollow ?_ (by rw [hphases.2]; decide), hprocessed⟩
  intro tip hmem
  simp [failingCatchUp] at hmem
  omega

/-! ## The calls for a height -/

/-- The height that has been called and is being saved. -/
def CoordinatorPhase.unsaved : CoordinatorPhase → Option ℕ
  | .saving height _ => some height
  | _ => none

/-- The coordinator's call of `process_block_sequential` for the height. -/
def callsHeight (height : ℕ) : Loops × LoopAction → Bool
  | (loops, .coordinatorProcessed _) => loops.coordinator.current = some height
  | _ => false

/-- What makes the coordinator call the height again: its call has failed, or it was not
saved. -/
def repeatsHeight (height : ℕ) : Loops × LoopAction → Bool
  | (loops, .coordinatorProcessed ok) => !ok && loops.coordinator.current = some height
  | (loops, .coordinatorSaved result) =>
      decide (result = .lost) && loops.coordinator.unsaved = some height
  | _ => false

/-- The height behind the progress. -/
def Loops.nextHeight (start : ℕ) (loops : Loops) : ℕ := (loops.progress.map (· + 1)).getD start

/-- The coordinator is at the height behind the progress, as long as the tips leave room
for one. -/
structure Loops.InStep (start : ℕ) (loops : Loops) : Prop where
  stored : ∀ last, loops.progress = some last → start ≤ last ∧ last < 2 ^ 64 - 1
  reading : ∀ tip, loops.coordinator = .reading tip → tip < 2 ^ 64 - 1
  processing : ∀ next tip, loops.coordinator = .processing next tip →
    next = loops.nextHeight start ∧ next ≤ tip ∧ tip < 2 ^ 64 - 1
  saving : ∀ next tip, loops.coordinator = .saving next tip →
    next = loops.nextHeight start ∧ next ≤ tip ∧ tip < 2 ^ 64 - 1

/-- One for each height from the start height to the progress. -/
def recorded (start height : ℕ) (progress : Option ℕ) : ℕ :=
  if start ≤ height ∧ progress.any (fun last => height ≤ last) then 1 else 0

/-- The calls for a height that need not be made again: one where it is on record, and one
where it is being saved. -/
def Loops.kept (start height : ℕ) (loops : Loops) : ℕ :=
  recorded start height loops.progress + (decide (loops.coordinator.unsaved = some height)).toNat

section Calls

variable {start : ℕ} {loops loops' : Loops} {action : LoopAction}

theorem inStep_start :
    Loops.start.InStep start := by
  constructor <;> simp [Loops.start]

theorem Loops.InStep.start_le
    (hinStep : loops.InStep start) :
    start ≤ loops.nextHeight start := by
  unfold Loops.nextHeight
  cases hprogress : loops.progress with
  | none => exact le_rfl
  | some last => exact (hinStep.stored last hprogress).1.trans (Nat.le_succ last)

theorem recorded_nextHeight
    (hstart : start ≤ loops.nextHeight start)
    (height : ℕ) :
    recorded start height (some (loops.nextHeight start)) =
      recorded start height loops.progress + (decide (loops.nextHeight start = height)).toNat := by
  unfold Loops.nextHeight at hstart ⊢
  unfold recorded
  cases hprogress : loops.progress with
  | none =>
      simp only [Option.map_none, Option.getD_none, Option.any_none, Option.any_some,
        decide_eq_true_eq, Bool.false_eq_true, and_false, if_false, Nat.zero_add]
      by_cases hheight : start = height
      · simp [hheight]
      · have hnot : ¬ (start ≤ height ∧ height ≤ start) := by omega
        simp [hheight, hnot]
  | some last =>
      rw [hprogress] at hstart
      simp only [Option.map_some, Option.getD_some, Option.any_some, decide_eq_true_eq] at hstart ⊢
      by_cases hheight : last + 1 = height
      · have hlow : start ≤ height := by omega
        have hbeyond : ¬ height ≤ last := by omega
        simp [hlow, hbeyond, hheight]
      · have hsame : height ≤ last + 1 ↔ height ≤ last := by omega
        simp [hsame, hheight]

/-- A save leaves the progress where it is or puts it to its height. -/
theorem saved_cases_of_result
    {phase : CoordinatorPhase}
    {progress : Option ℕ}
    {result : SaveResult}
    {saved : CoordinatorPhase × Option ℕ}
    (hsaved : phase.saved progress result = some saved) :
    ∃ next tip, phase = .saving next tip ∧
      ((result = .lost ∧ saved = (.waiting, progress)) ∨
        result ≠ .lost ∧ (saved = (.waiting, some next) ∨
          next < tip ∧ saved = (.processing (next + 1) tip, some next))) := by
  obtain ⟨next, tip, rfl, -⟩ := saved_cases hsaved
  refine ⟨next, tip, rfl, ?_⟩
  cases result with
  | lost => exact .inl ⟨rfl, (Option.some.inj hsaved).symm⟩
  | unacknowledged => exact .inr ⟨by simp, .inl (Option.some.inj hsaved).symm⟩
  | saved =>
      refine .inr ⟨by simp, ?_⟩
      simp only [CoordinatorPhase.saved, Option.some.injEq] at hsaved
      split at hsaved
      · next hbelow => exact .inr ⟨hbelow, hsaved.symm⟩
      · exact .inl hsaved.symm

theorem inStep_step
    (hinStep : loops.InStep start)
    (htip : ∀ tip, action = .coordinatorTip (some tip) → tip < 2 ^ 64 - 1)
    (hstep : loops.step (some start) action = some loops') :
    loops'.InStep start := by
  have hstart := hinStep.start_le
  obtain ⟨hstored, hreading, hprocessing, hsaving⟩ := hinStep
  cases steps_of_step hstep with
  | pollerTip => exact ⟨hstored, hreading, hprocessing, hsaving⟩
  | pollerRefreshed => exact ⟨hstored, hreading, hprocessing, hsaving⟩
  | pollerProcessed => exact ⟨hstored, hreading, hprocessing, hsaving⟩
  | coordinatorTip answer phase' hsignalled hanswer =>
      cases hphase : loops.coordinator with
      | waiting =>
          rw [hphase] at hanswer
          cases answer with
          | none =>
              cases hanswer
              exact ⟨hstored, by simp, by simp, by simp⟩
          | some tip =>
              cases hanswer
              refine ⟨hstored, ?_, by simp, by simp⟩
              rintro _ ⟨⟩
              exact htip tip rfl
      | reading tip => simp [hphase, CoordinatorPhase.tip] at hanswer
      | processing next tip => simp [hphase, CoordinatorPhase.tip] at hanswer
      | saving next tip => simp [hphase, CoordinatorPhase.tip] at hanswer
  | coordinatorRead ok _ phase' heq hread =>
      cases heq
      cases hphase : loops.coordinator with
      | waiting => simp [hphase, CoordinatorPhase.read] at hread
      | processing next tip => simp [hphase, CoordinatorPhase.read] at hread
      | saving next tip => simp [hphase, CoordinatorPhase.read] at hread
      | reading tip =>
          have hwaiting : ({ loops with coordinator := .waiting } : Loops).InStep start :=
            ⟨hstored, by simp, by simp, by simp⟩
          have hnext : (loops.progress.map saturatingSucc).getD start = loops.nextHeight start := by
            unfold Loops.nextHeight
            cases hprogress : loops.progress with
            | none => rfl
            | some last =>
                have hlt := (hstored last hprogress).2
                rw [Option.map_some, Option.map_some, saturatingSucc, if_neg (Nat.ne_of_lt hlt)]
          simp only [hphase, CoordinatorPhase.read, hnext] at hread
          split at hread
          · split at hread
            · cases hread
              exact hwaiting
            next hle =>
              cases hread
              refine ⟨hstored, by simp, ?_, by simp⟩
              rintro _ _ ⟨⟩
              exact ⟨rfl, Nat.not_lt.mp hle, hreading _ hphase⟩
          · cases hread
            exact hwaiting
  | coordinatorProcessed ok current phase' hcurrent hprocessed =>
      obtain ⟨next, tip, hphase, _, hcases⟩ := coordinatorProcessed_cases hprocessed
      rcases hcases with ⟨rfl, rfl⟩ | ⟨rfl, rfl⟩
      · refine ⟨hstored, by simp, by simp, ?_⟩
        rintro _ _ ⟨⟩
        exact hprocessing next tip hphase
      · exact ⟨hstored, by simp, by simp, by simp⟩
  | coordinatorSaved result saved hsaved =>
      obtain ⟨next, tip, hphase, hcases⟩ := saved_cases_of_result hsaved
      obtain ⟨hnext, hle, hroom⟩ := hsaving next tip hphase
      have hstored' : ∀ last, some next = some last → start ≤ last ∧ last < 2 ^ 64 - 1 := by
        rintro _ ⟨⟩
        exact ⟨hnext ▸ hstart, by omega⟩
      rcases hcases with ⟨rfl, rfl⟩ | ⟨hresult, rfl | ⟨hbelow, rfl⟩⟩
      · exact ⟨hstored, by simp, by simp, by simp⟩
      · exact ⟨hstored', by simp, by simp, by simp⟩
      · refine ⟨hstored', by simp, ?_, by simp⟩
        rintro _ _ ⟨⟩
        exact ⟨rfl, hbelow, hroom⟩

/-- A call is kept or made again, and what is kept is only lost with its save. -/
theorem kept_step
    (hinStep : loops.InStep start)
    (hstep : loops.step (some start) action = some loops')
    (height : ℕ) :
    (callsHeight height (loops, action)).toNat + loops.kept start height =
      (repeatsHeight height (loops, action)).toNat + loops'.kept start height := by
  cases steps_of_step hstep with
  | pollerTip => rfl
  | pollerRefreshed => rfl
  | pollerProcessed => rfl
  | coordinatorTip answer phase' hsignalled hanswer =>
      have hbefore : loops.coordinator.unsaved = none := by
        cases hphase : loops.coordinator <;> cases answer <;>
          simp_all [CoordinatorPhase.tip, CoordinatorPhase.unsaved]
      have hafter : phase'.unsaved = none := by
        rcases coordinatorTip_cases hanswer with rfl | ⟨tip, rfl⟩ <;> rfl
      simp only [callsHeight, repeatsHeight, Loops.kept, hbefore, hafter]
  | coordinatorRead ok _ phase' heq hread =>
      obtain ⟨tip, hphase, hcases⟩ := read_cases hread
      have hbefore : loops.coordinator.unsaved = none := by
        rw [hphase]
        rfl
      have hafter : phase'.unsaved = none := by
        rcases hcases with rfl | rfl <;> rfl
      simp only [callsHeight, repeatsHeight, Loops.kept, hbefore, hafter]
  | coordinatorProcessed ok current phase' hcurrent hprocessed =>
      obtain ⟨next, tip, hphase, _, hcases⟩ := coordinatorProcessed_cases hprocessed
      simp only [callsHeight, repeatsHeight, Loops.kept, hphase, CoordinatorPhase.current]
      rcases hcases with ⟨rfl, rfl⟩ | ⟨rfl, rfl⟩
      · simp only [CoordinatorPhase.unsaved, Bool.not_true, Bool.false_and, Bool.toNat_false,
          reduceCtorEq, decide_false, Option.some.injEq]
        omega
      · simp only [CoordinatorPhase.unsaved, Bool.not_false, Bool.true_and, reduceCtorEq,
          decide_false, Option.some.injEq]
  | coordinatorSaved result saved hsaved =>
      obtain ⟨next, tip, hphase, hcases⟩ := saved_cases_of_result hsaved
      obtain ⟨rfl, -, -⟩ := hinStep.saving next tip hphase
      have hbefore : loops.coordinator.unsaved = some (loops.nextHeight start) := by
        rw [hphase]
        rfl
      have hafter : saved.1.unsaved = none := by
        rcases hcases with ⟨_, rfl⟩ | ⟨_, rfl | ⟨_, rfl⟩⟩ <;> rfl
      simp only [callsHeight, repeatsHeight, Loops.kept, hbefore, hafter, reduceCtorEq,
        decide_false, Bool.toNat_false, Nat.zero_add, Nat.add_zero, Option.some.injEq]
      rcases hcases with ⟨rfl, rfl⟩ | ⟨hresult, hcases⟩
      · simp only [decide_true, Bool.true_and]
        omega
      · -- the saved height is the one behind the progress
        have hprogress : saved.2 = some (loops.nextHeight start) := by
          rcases hcases with rfl | ⟨_, rfl⟩ <;> rfl
        simp only [hprogress, hresult, recorded_nextHeight hinStep.start_le height, decide_false,
          Bool.false_and, Bool.toNat_false, Nat.zero_add]

theorem kept_run
    {actions : List LoopAction}
    (hrun : Loops.run (some start) actions = some loops)
    (htips : ∀ tip, .coordinatorTip (some tip) ∈ actions → tip < 2 ^ 64 - 1)
    (height : ℕ) :
    loops.InStep start ∧
      (visits (Loops.step (some start)) .start actions).countP (callsHeight height) =
        (visits (Loops.step (some start)) .start actions).countP (repeatsHeight height) +
          loops.kept start height := by
  induction actions using List.reverseRecOn generalizing loops with
  | nil =>
      cases hrun
      exact ⟨inStep_start, by simp [visits, Loops.kept, recorded, Loops.start,
        CoordinatorPhase.unsaved]⟩
  | append_singleton actions action ih =>
      obtain ⟨last, hlast, hstep⟩ := run_concat_eq_some_iff.mp hrun
      obtain ⟨hinStep, hcalls⟩ :=
        ih hlast fun tip hmem => htips tip (List.mem_append_left _ hmem)
      have htip : ∀ tip, action = .coordinatorTip (some tip) → tip < 2 ^ 64 - 1 :=
        fun tip heq => htips tip (heq ▸ List.mem_append_right _ (List.mem_singleton_self _))
      have hkept := kept_step hinStep hstep height
      refine ⟨inStep_step hinStep htip hstep, ?_⟩
      rw [visits_concat hlast, countP_concat, countP_concat]
      omega

end Calls

/-- In every interleaving the coordinator calls each height from the start height to the
progress once, and every height once more for each of its calls that has failed or was not
saved, and once where it is being saved; so a recorded height that nothing went wrong at
has been called exactly once. -/
theorem catchUp_calls
    {start : ℕ}
    {actions : List LoopAction}
    {loops : Loops}
    (hrun : Loops.run (some start) actions = some loops)
    (htips : ∀ tip, .coordinatorTip (some tip) ∈ actions → tip < 2 ^ 64 - 1)
    (height : ℕ) :
    let calls := visits (Loops.step (some start)) .start actions
    calls.countP (callsHeight height) = recorded start height loops.progress +
        calls.countP (repeatsHeight height) +
          (decide (loops.coordinator.unsaved = some height)).toNat ∧
      (start ≤ height → loops.CaughtUp height →
        (∀ call ∈ calls, repeatsHeight height call = false) →
          calls.countP (callsHeight height) = 1) := by
  obtain ⟨hinStep, hcalls⟩ := kept_run hrun htips height
  rw [Loops.kept] at hcalls
  refine ⟨by omega, fun hstart ⟨last, hlast, hle⟩ hnone => ?_⟩
  have hrepeats : (visits (Loops.step (some start)) .start actions).countP
      (repeatsHeight height) = 0 :=
    List.countP_eq_zero.mpr fun call hcall => by simp [hnone call hcall]
  have hrecorded : recorded start height loops.progress = 1 := by
    simp [recorded, hlast, hstart, hle]
  have hsaving : loops.coordinator.unsaved ≠ some height := by
    intro heq
    cases hphase : loops.coordinator with
    | saving next tip =>
        rw [hphase] at heq
        cases heq
        have hnext := (hinStep.saving height tip hphase).1
        rw [Loops.nextHeight, hlast, Option.map_some, Option.getD_some] at hnext
        omega
    | _ =>
        rw [hphase] at heq
        cases heq
  rw [hcalls, hrepeats, hrecorded, decide_eq_false hsaving]
  rfl

/-- Height 6 is called again because its save was lost, and height 7 is not. -/
theorem failingCatchUp_calls :
    (visits (Loops.step (some 6)) .start failingCatchUp).countP (callsHeight 6) = 1 + 1 + 0 ∧
      (visits (Loops.step (some 6)) .start failingCatchUp).countP (callsHeight 7) = 1 := by
  have hrun : ∃ loops, Loops.run (some 6) failingCatchUp = some loops := ⟨_, rfl⟩
  obtain ⟨loops, hrun⟩ := hrun
  have hends : (Loops.run (some 6) failingCatchUp).map
      (fun loops => (loops.progress, loops.coordinator.unsaved)) = some (some 7, none) := by decide
  rw [hrun, Option.map_some, Option.some.injEq, Prod.mk.injEq] at hends
  obtain ⟨hprogress, hunsaved⟩ := hends
  have htips : ∀ tip, .coordinatorTip (some tip) ∈ failingCatchUp → tip < 2 ^ 64 - 1 := by
    intro tip hmem
    simp [failingCatchUp] at hmem
    omega
  constructor
  · have hsix := (catchUp_calls hrun htips 6).1
    rw [hprogress, hunsaved] at hsix
    exact hsix.trans (by decide)
  · exact (catchUp_calls hrun htips 7).2 (by decide) ⟨7, hprogress, le_rfl⟩ (by decide)

end AlkanesIndexer
