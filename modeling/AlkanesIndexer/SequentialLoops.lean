import AlkanesIndexer.BlockFetch
import AlkanesIndexer.TipFollowing

/-!
# The loops as the source has them

A tick of the poller and a pass of the coordinator run to their end before the next one of
the same loop begins.  Here each of them is one function, with the loop over the new
heights inside; done one after the other they are a run of the two loops whose single
calls interleave, so what every such run keeps holds of them too.
-/

namespace AlkanesIndexer

open Runs

/-! ## A tick of the poller -/

/-- What a tick meets: the answer for the tip, and which heights are processed. -/
structure PollerTick where
  metashrewHeight : Except String ℕ
  processes : ℕ → Bool

structure BlockPoller where
  lastHeight : Option ℕ
  signalled : Bool
  deriving DecidableEq, Repr

/-- `for h in (prev + 1)..=height`, with the pointer and the ended processings. -/
def followBlocks
    (processes : ℕ → Bool)
    (lastHeight : Option ℕ) : List ℕ → Option ℕ × List (ℕ × Bool)
  | [] => (lastHeight, [])
  | height :: rest =>
      if processes height then
        let followed := followBlocks processes (some height) rest
        (followed.1, (height, true) :: followed.2)
      -- stop advancing, to retry this height on the next tick
      else (lastHeight, [(height, false)])

namespace BlockPoller

def start : BlockPoller := ⟨none, false⟩

def tick
    (startHeight : Option ℕ)
    (poller : BlockPoller)
    (tick : PollerTick) : BlockPoller × List (ℕ × Bool) :=
  match canonicalTipHeight tick.metashrewHeight with
  | .error _ => (poller, [])
  | .ok height =>
      match poller.lastHeight with
      | none =>
          (⟨some height, true⟩,
            if startHeight.isNone then [(height, tick.processes height)] else [])
      | some prev =>
          if height > prev then
            let followed := followBlocks tick.processes (some prev)
              (List.range' (prev + 1) (height - prev))
            ({ poller with lastHeight := followed.1 }, followed.2)
          else if height < prev then ({ poller with lastHeight := some height }, [])
          else (poller, [])

end BlockPoller

/-! ## A pass of the coordinator -/

structure CatchUpPass where
  metashrewHeight : Except String ℕ
  reads : Bool
  processes : ℕ → Bool
  saves : ℕ → SaveResult

/-- `for h in next..=tip`: a block that fails ends the loop, a save that fails the
pass. -/
def catchUp
    (pass : CatchUpPass)
    (progress : Option ℕ) : List ℕ → Option ℕ × List (ℕ × Bool)
  | [] => (progress, [])
  | height :: rest =>
      if pass.processes height then
        match pass.saves height with
        | .saved =>
            let caught := catchUp pass (some height) rest
            (caught.1, (height, true) :: caught.2)
        | .lost => (progress, [(height, true)])
        | .unacknowledged => (some height, [(height, true)])
      else (progress, [(height, false)])

def runOnce
    (startHeight progress : Option ℕ)
    (pass : CatchUpPass) : Option ℕ × List (ℕ × Bool) :=
  match startHeight, canonicalTipHeight pass.metashrewHeight with
  | some start, .ok tip =>
      if pass.reads then
        let next := (progress.map saturatingSucc).getD start
        if next > tip then (progress, [])
        else catchUp pass progress (List.range' next (tip + 1 - next))
      else (progress, [])
  | _, _ => (progress, [])

/-! ## Turns -/

inductive Turn where
  | poller (tick : PollerTick)
  | coordinator (pass : CatchUpPass)

structure SourceLoops where
  poller : BlockPoller
  progress : Option ℕ
  attempts : List (ℕ × Bool)
  deriving DecidableEq, Repr

namespace SourceLoops

def start : SourceLoops := ⟨.start, none, []⟩

/-- With a start height the coordinator has no turn before the signal. -/
def turn (startHeight : Option ℕ) (loops : SourceLoops) : Turn → Option SourceLoops
  | .poller tick =>
      let ticked := loops.poller.tick startHeight tick
      some { loops with poller := ticked.1, attempts := loops.attempts ++ ticked.2 }
  | .coordinator pass =>
      if startHeight.isSome && !loops.poller.signalled then none
      else
        let passed := runOnce startHeight loops.progress pass
        some { loops with progress := passed.1, attempts := loops.attempts ++ passed.2 }

/-- Both loops between two of their turns. -/
structure Matches (source : SourceLoops) (loops : Loops) : Prop where
  poller : loops.poller = ⟨source.poller.lastHeight, source.poller.signalled, .waiting⟩
  coordinator : loops.coordinator = .waiting
  progress : loops.progress = source.progress
  attempts : loops.attempts = source.attempts

end SourceLoops

/-! ## A turn is a run of single calls -/

section Turns

variable {startHeight : Option ℕ} {loops : Loops}

variable (startHeight) in
/-- The loop over `count` new heights, from the call for the first of them on. -/
theorem run_followBlocks
    (processes : ℕ → Bool)
    {prev height tip : ℕ}
    {signalled : Bool}
    (count : ℕ)
    (hpoller : loops.poller = ⟨some prev, signalled, .processing height tip⟩)
    (htip : height + count = tip) :
    ∃ actions, run (Loops.step startHeight) loops actions = some { loops with
      poller := ⟨(followBlocks processes (some prev) (List.range' height (count + 1))).1,
        signalled, .waiting⟩
      attempts := loops.attempts ++
        (followBlocks processes (some prev) (List.range' height (count + 1))).2 } := by
  induction count generalizing loops prev height with
  | zero =>
      refine ⟨[.pollerProcessed (processes height)], ?_⟩
      have hlast : ¬ height < tip := by omega
      cases hok : processes height <;>
        simp [run, Loops.step, hpoller, Poller.current, Poller.processed, followBlocks, hok, hlast]
  | succ count ih =>
      rw [List.range'_succ, followBlocks]
      cases hok : processes height with
      | false =>
          refine ⟨[.pollerProcessed false], ?_⟩
          simp [run, Loops.step, hpoller, Poller.current, Poller.processed]
      | true =>
          have hbelow : height < tip := by omega
          let next : Loops := { loops with
            poller := ⟨some height, signalled, .processing (height + 1) tip⟩
            attempts := loops.attempts ++ [(height, true)] }
          have hstep : Loops.step startHeight loops (.pollerProcessed true) = some next := by
            simp [Loops.step, hpoller, Poller.current, Poller.processed, hbelow, next]
          have hnext : next.poller = ⟨some height, signalled, .processing (height + 1) tip⟩ := rfl
          obtain ⟨actions, hactions⟩ := ih hnext (by omega)
          refine ⟨.pollerProcessed true :: actions,
            run_cons_eq_some_iff.mpr ⟨_, hstep, hactions.trans ?_⟩⟩
          simp [next]

theorem run_tick
    {source : BlockPoller}
    (hpoller : loops.poller = ⟨source.lastHeight, source.signalled, .waiting⟩)
    (tick : PollerTick) :
    ∃ actions, run (Loops.step startHeight) loops actions = some { loops with
      poller := ⟨(source.tick startHeight tick).1.lastHeight,
        (source.tick startHeight tick).1.signalled, .waiting⟩
      attempts := loops.attempts ++ (source.tick startHeight tick).2
      firstTip := loops.firstTip.or (canonicalTipHeight tick.metashrewHeight).toOption } := by
  obtain ⟨answer, processes⟩ := tick
  obtain ⟨lastHeight, signalled⟩ := source
  dsimp only
  cases htip : canonicalTipHeight answer with
  | error error =>
      refine ⟨[.pollerTip none], ?_⟩
      simp [run, Loops.step, hpoller, Poller.tip, BlockPoller.tick, htip, Except.toOption]
  | ok height =>
      cases lastHeight with
      | none =>
          cases startHeight with
          | none =>
              refine ⟨[.pollerTip (some height), .pollerRefreshed,
                .pollerProcessed (processes height)], ?_⟩
              simp [run, Loops.step, hpoller, Poller.tip, Poller.refreshed, Poller.current,
                Poller.processed, Poller.initialized, BlockPoller.tick, htip, Except.toOption]
          | some start =>
              refine ⟨[.pollerTip (some height), .pollerRefreshed], ?_⟩
              simp [run, Loops.step, hpoller, Poller.tip, Poller.refreshed, Poller.initialized,
                BlockPoller.tick, htip, Except.toOption]
      | some prev =>
          rcases Nat.lt_trichotomy prev height with habove | hequal | hbelow
          · obtain ⟨count, hcount⟩ : ∃ count, height - prev = count + 1 :=
              ⟨height - prev - 1, by omega⟩
            let next : Loops := { loops with
              poller := ⟨some prev, signalled, .processing (prev + 1) height⟩
              firstTip := loops.firstTip.or (some height) }
            have hnext : next.poller = ⟨some prev, signalled, .processing (prev + 1) height⟩ := rfl
            obtain ⟨actions, hactions⟩ :=
              run_followBlocks startHeight processes count hnext (by omega)
            refine ⟨[.pollerTip (some height), .pollerRefreshed] ++ actions,
              run_append_eq_some_iff.mpr ⟨next, ?_, hactions.trans ?_⟩⟩
            · simp [run, Loops.step, hpoller, Poller.tip, Poller.refreshed, habove, next]
            · simp [BlockPoller.tick, htip, Except.toOption, habove, hcount, next]
          · refine ⟨[.pollerTip (some height)], ?_⟩
            simp [run, Loops.step, hpoller, Poller.tip, BlockPoller.tick, htip, Except.toOption,
              hequal]
          · refine ⟨[.pollerTip (some height)], ?_⟩
            simp [run, Loops.step, hpoller, Poller.tip, BlockPoller.tick, htip, Except.toOption,
              hbelow, Nat.not_lt.mpr hbelow.le]

variable (startHeight) in
/-- The loop over `count` heights to catch up with, from the call for the first on. -/
theorem run_catchUp
    (pass : CatchUpPass)
    {height tip : ℕ}
    (count : ℕ)
    (hcoordinator : loops.coordinator = .processing height tip)
    (htip : height + count = tip) :
    ∃ actions, run (Loops.step startHeight) loops actions = some { loops with
      coordinator := .waiting
      progress := (catchUp pass loops.progress (List.range' height (count + 1))).1
      attempts := loops.attempts ++
        (catchUp pass loops.progress (List.range' height (count + 1))).2 } := by
  induction count generalizing loops height with
  | zero =>
      have hlast : ¬ height < tip := by omega
      cases hok : pass.processes height with
      | false =>
          refine ⟨[.coordinatorProcessed false], ?_⟩
          simp [run, Loops.step, hcoordinator, CoordinatorPhase.current,
            CoordinatorPhase.processed, catchUp, hok]
      | true =>
          refine ⟨[.coordinatorProcessed true, .coordinatorSaved (pass.saves height)], ?_⟩
          cases hsaves : pass.saves height <;>
            simp [run, Loops.step, hcoordinator, CoordinatorPhase.current,
              CoordinatorPhase.processed, CoordinatorPhase.saved, catchUp, hok, hsaves, hlast]
  | succ count ih =>
      have hbelow : height < tip := by omega
      rw [List.range'_succ, catchUp]
      cases hok : pass.processes height with
      | false =>
          refine ⟨[.coordinatorProcessed false], ?_⟩
          simp [run, Loops.step, hcoordinator, CoordinatorPhase.current,
            CoordinatorPhase.processed]
      | true =>
          cases hsaves : pass.saves height with
          | saved =>
              let next : Loops := { loops with
                coordinator := .processing (height + 1) tip
                progress := some height
                attempts := loops.attempts ++ [(height, true)] }
              have hnext : next.coordinator = .processing (height + 1) tip := rfl
              obtain ⟨actions, hactions⟩ := ih hnext (by omega)
              refine ⟨[.coordinatorProcessed true, .coordinatorSaved .saved] ++ actions,
                run_append_eq_some_iff.mpr ⟨next, ?_, hactions.trans ?_⟩⟩
              · simp [run, Loops.step, hcoordinator, CoordinatorPhase.current,
                  CoordinatorPhase.processed, CoordinatorPhase.saved, hbelow, next]
              · simp [next]
          | lost =>
              refine ⟨[.coordinatorProcessed true, .coordinatorSaved .lost], ?_⟩
              simp [run, Loops.step, hcoordinator, CoordinatorPhase.current,
                CoordinatorPhase.processed, CoordinatorPhase.saved]
          | unacknowledged =>
              refine ⟨[.coordinatorProcessed true, .coordinatorSaved .unacknowledged], ?_⟩
              simp [run, Loops.step, hcoordinator, CoordinatorPhase.current,
                CoordinatorPhase.processed, CoordinatorPhase.saved]

theorem run_runOnce
    (hcoordinator : loops.coordinator = .waiting)
    (hsignalled : (startHeight.isSome && !loops.poller.signalled) = false)
    (pass : CatchUpPass) :
    ∃ actions, run (Loops.step startHeight) loops actions = some { loops with
      progress := (runOnce startHeight loops.progress pass).1
      attempts := loops.attempts ++ (runOnce startHeight loops.progress pass).2 } := by
  obtain ⟨answer, reads, processes, saves⟩ := pass
  cases startHeight with
  | none => exact ⟨[], by simp [runOnce]⟩
  | some start =>
      have hsignal : loops.poller.signalled = true := by simpa using hsignalled
      cases htip : canonicalTipHeight answer with
      | error error => exact ⟨[], by simp [runOnce, htip]⟩
      | ok tip =>
          have hreading : run (Loops.step (some start)) loops [.coordinatorTip (some tip)] =
              some { loops with coordinator := .reading tip } := by
            simp [run, Loops.step, hsignal, hcoordinator, CoordinatorPhase.tip]
          cases reads with
          | false =>
              refine ⟨[.coordinatorTip (some tip)] ++ [.coordinatorRead false],
                run_append_eq_some_iff.mpr ⟨_, hreading, ?_⟩⟩
              simp [run, Loops.step, CoordinatorPhase.read, runOnce, htip, ← hcoordinator]
          | true =>
              by_cases hbeyond : (loops.progress.map saturatingSucc).getD start > tip
              · refine ⟨[.coordinatorTip (some tip)] ++ [.coordinatorRead true],
                  run_append_eq_some_iff.mpr ⟨_, hreading, ?_⟩⟩
                simp [run, Loops.step, CoordinatorPhase.read, runOnce, htip, hbeyond,
                  ← hcoordinator]
              · obtain ⟨count, hcount⟩ : ∃ count,
                    tip + 1 - (loops.progress.map saturatingSucc).getD start = count + 1 :=
                  ⟨tip - (loops.progress.map saturatingSucc).getD start, by omega⟩
                let next : Loops := { loops with
                  coordinator := .processing ((loops.progress.map saturatingSucc).getD start) tip }
                have hnext : next.coordinator = .processing
                  ((loops.progress.map saturatingSucc).getD start) tip := rfl
                obtain ⟨actions, hactions⟩ := run_catchUp (some start)
                  ⟨answer, true, processes, saves⟩ count hnext (by omega)
                refine ⟨[.coordinatorTip (some tip)] ++ ([.coordinatorRead true] ++ actions),
                  run_append_eq_some_iff.mpr ⟨_, hreading,
                    run_append_eq_some_iff.mpr ⟨next, ?_, hactions.trans ?_⟩⟩⟩
                · simp [run, Loops.step, CoordinatorPhase.read, hbeyond, next]
                · simp [runOnce, htip, hbeyond, hcount, ← hcoordinator, next]

end Turns

/-! ## Turns one after the other -/

section Simulation

variable {startHeight : Option ℕ}

theorem matches_turn
    {source source' : SourceLoops}
    {turn : Turn}
    {loops : Loops}
    (hmatches : source.Matches loops)
    (hturn : source.turn startHeight turn = some source') :
    ∃ actions loops', run (Loops.step startHeight) loops actions = some loops' ∧
      source'.Matches loops' := by
  obtain ⟨hpoller, hcoordinator, hprogress, hattempts⟩ := hmatches
  cases turn with
  | poller tick =>
      obtain ⟨actions, hactions⟩ := run_tick hpoller tick
      cases hturn
      refine ⟨actions, _, hactions, rfl, hcoordinator, hprogress, ?_⟩
      rw [hattempts]
  | coordinator pass =>
      obtain ⟨hsignalled, hrest⟩ := Option.ite_none_left_eq_some.mp hturn
      cases hrest
      have hsignal : loops.poller.signalled = source.poller.signalled := by rw [hpoller]
      rw [Bool.not_eq_true, ← hsignal] at hsignalled
      obtain ⟨actions, hactions⟩ := run_runOnce hcoordinator hsignalled pass
      refine ⟨actions, _, hactions, hpoller, hcoordinator, ?_, ?_⟩
      · rw [hprogress]
      · rw [hprogress, hattempts]

/-- The source's loops, turn by turn, are a run of the loops whose calls interleave. -/
theorem exists_run_of_turns
    {turns : List Turn}
    {source : SourceLoops}
    (hrun : run (SourceLoops.turn startHeight) .start turns = some source) :
    ∃ actions loops, Loops.run startHeight actions = some loops ∧ source.Matches loops :=
  exists_run_of_simulation
    (fun _ _ _ _ hmatches hturn => matches_turn hmatches hturn) ⟨rfl, rfl, rfl, rfl⟩ hrun

/-- So what the interleaved loops keep the source's loops keep: with a start height
every height up to the stored progress is processed, and without one the pointer stands
above no height whose latest processing failed, once the first one has succeeded. -/
theorem turns_simulated
    {turns : List Turn}
    {source : SourceLoops}
    (hrun : run (SourceLoops.turn startHeight) .start turns = some source) :
    (∃ actions loops, Loops.run startHeight actions = some loops ∧ source.Matches loops) ∧
      (∀ start last, startHeight = some start → source.progress = some last →
        ∀ height, start ≤ height → height ≤ last → (height, true) ∈ source.attempts) ∧
      (startHeight = none → FirstProcessed source.attempts →
        ∀ height prev, lastOutcome source.attempts height = some false →
          source.poller.lastHeight = some prev → prev < height) := by
  obtain ⟨actions, loops, hloops, hmatches⟩ := exists_run_of_turns hrun
  have hattempts := hmatches.attempts
  refine ⟨⟨actions, loops, hloops, hmatches⟩, fun start last hstart hlast height hlow hhigh => ?_,
    fun hnone hfirst height prev hfailed hprev => ?_⟩
  · subst hstart
    have hprocessed := (covers_run hloops).progress last (hmatches.progress.trans hlast) height
      hlow hhigh
    rwa [Loops.Processed, hattempts] at hprocessed
  · subst hnone
    rw [← hattempts] at hfirst hfailed
    refine ((followsTip_run hloops).guarantee hfirst).not_past height prev hfailed ?_
    rw [hmatches.poller]
    exact hprev

end Simulation

/-- From height 3 a pass of the coordinator to the tip 5, at which a block fails, and one
from there to the tip 6, with a tick of the poller in front of each. -/
def twoPasses : List Turn :=
  [.poller ⟨.ok 5, fun _ => true⟩, .coordinator ⟨.ok 5, true, (· ≠ 5), fun _ => .saved⟩,
    .poller ⟨.ok 6, fun _ => true⟩, .coordinator ⟨.ok 6, true, fun _ => true, fun _ => .saved⟩]

theorem twoPasses_simulated :
    ∃ source, run (SourceLoops.turn (some 3)) .start twoPasses = some source ∧
      source.progress = some 6 ∧
      ∀ height, 3 ≤ height → height ≤ 6 → (height, true) ∈ source.attempts := by
  have hmap : (run (SourceLoops.turn (some 3)) .start twoPasses).map SourceLoops.progress =
      some (some 6) := by decide
  obtain ⟨source, hrun, hprogress⟩ := Option.map_eq_some_iff.mp hmap
  exact ⟨source, hrun, hprogress, (turns_simulated hrun).2.1 3 6 rfl hprogress⟩

end AlkanesIndexer
