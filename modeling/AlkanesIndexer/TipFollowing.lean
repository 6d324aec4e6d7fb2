import AlkanesIndexer.IndexerLoops

/-!
# What the loops have processed

The pointer of the poller and the stored progress stand for heights which have
been processed.  For the poller alone that is true after its first observation,
which moves the pointer whether or not the block was processed.  With a start
height the two pointers together leave no gap.
-/

namespace AlkanesIndexer

open Runs

/-! ## The poller alone -/

def lastOutcome (attempts : List (ℕ × Bool)) (height : ℕ) : Option Bool :=
  ((attempts.filter fun attempt => attempt.1 = height).getLast?).map Prod.snd

theorem lastOutcome_append_self
    (attempts : List (ℕ × Bool))
    (height : ℕ)
    (ok : Bool) :
    lastOutcome (attempts ++ [(height, ok)]) height = some ok := by
  simp [lastOutcome, List.filter_append]

theorem lastOutcome_append_of_ne
    (attempts : List (ℕ × Bool))
    {height other : ℕ}
    (ok : Bool)
    (hne : other ≠ height) :
    lastOutcome (attempts ++ [(other, ok)]) height = lastOutcome attempts height := by
  simp [lastOutcome, List.filter_append, hne]

/-- Everything from the first tip up to the pointer has been processed, and the
pointer has passed no height whose latest processing failed. -/
structure NeverSkips (loops : Loops) : Prop where
  covered : ∀ first prev, loops.firstTip = some first → loops.poller.lastHeight = some prev →
    ∀ height, first ≤ height → height ≤ prev → loops.Processed height
  not_past : ∀ height prev, lastOutcome loops.attempts height = some false →
    loops.poller.lastHeight = some prev → prev < height

/-- The first call of `process_block_sequential`, if there was one, succeeded. -/
def FirstProcessed (attempts : List (ℕ × Bool)) : Prop :=
  ∀ attempt, attempts.head? = some attempt → attempt.2 = true

theorem firstProcessed_of_initial
    {attempts attempts' : List (ℕ × Bool)}
    (hinitial : attempts <+: attempts')
    (hfirst : FirstProcessed attempts') :
    FirstProcessed attempts := by
  intro attempt hhead
  obtain ⟨rest, rfl⟩ := hinitial
  refine hfirst attempt ?_
  cases attempts with
  | nil => cases hhead
  | cons head tail => exact hhead

/-- The invariant of the poller without a start height. -/
structure FollowsTip (loops : Loops) : Prop where
  sound : loops.PollerSound
  idle : loops.coordinator = .waiting
  fresh : loops.poller.lastHeight = none ↔ loops.attempts = []
  guarantee : FirstProcessed loops.attempts → NeverSkips loops

theorem followsTip_start :
    FollowsTip .start where
  sound := pollerSound_start
  idle := rfl
  fresh := ⟨fun _ => rfl, fun _ => rfl⟩
  guarantee := fun _ => ⟨by simp [Loops.start, Poller.start], by simp [Loops.start, Poller.start]⟩

section Poller

variable {loops loops' : Loops}

theorem lastHeight_of_tip
    {poller poller' : Poller}
    {answer : Option ℕ}
    (htip : poller.tip answer = some poller') :
    (poller'.lastHeight = none ↔ poller.lastHeight = none) ∧
      ∀ prev, poller'.lastHeight = some prev →
        ∃ prev', poller.lastHeight = some prev' ∧ prev ≤ prev' := by
  obtain ⟨_, ⟨_, rfl⟩ | ⟨height, _, hcases⟩⟩ := tip_cases htip
  · exact ⟨Iff.rfl, fun prev hprev => ⟨prev, hprev, le_refl prev⟩⟩
  · rcases hcases with ⟨_, rfl⟩ | ⟨old, hold, ⟨_, rfl⟩ | ⟨hlt, rfl⟩ | ⟨_, rfl⟩⟩
    · exact ⟨Iff.rfl, fun prev hprev => ⟨prev, hprev, le_refl prev⟩⟩
    · exact ⟨Iff.rfl, fun prev hprev => ⟨prev, hprev, le_refl prev⟩⟩
    · refine ⟨by simp [hold], fun prev hprev => ⟨old, hold, ?_⟩⟩
      rw [← Option.some.inj hprev]
      exact hlt.le
    · exact ⟨Iff.rfl, fun prev hprev => ⟨prev, hprev, le_refl prev⟩⟩

theorem neverSkips_of_le
    (hskips : NeverSkips loops)
    (hattempts : loops'.attempts = loops.attempts)
    (hfirst : ∀ first prev, loops'.firstTip = some first →
      loops.poller.lastHeight = some prev → loops.firstTip = some first)
    (hback : ∀ prev, loops'.poller.lastHeight = some prev →
      ∃ prev', loops.poller.lastHeight = some prev' ∧ prev ≤ prev') :
    NeverSkips loops' := by
  constructor
  · intro first prev hfirstTip hprev height hlow hhigh
    obtain ⟨prev', hprev', hle⟩ := hback prev hprev
    unfold Loops.Processed
    rw [hattempts]
    exact hskips.covered first prev' (hfirst first prev' hfirstTip hprev') hprev' height hlow
      (hhigh.trans hle)
  · intro height prev hfailed hprev
    obtain ⟨prev', hprev', hle⟩ := hback prev hprev
    rw [hattempts] at hfailed
    exact hle.trans_lt (hskips.not_past height prev' hfailed hprev')

theorem neverSkips_of_success
    {prev : ℕ}
    (hskips : NeverSkips loops)
    (hprev : loops.poller.lastHeight = some prev)
    (hattempts : loops'.attempts = loops.attempts ++ [(prev + 1, true)])
    (hfirst : loops'.firstTip = loops.firstTip)
    (hnext : loops'.poller.lastHeight = some (prev + 1)) :
    NeverSkips loops' := by
  constructor
  · intro first pointer hfirstTip hpointer height hlow hhigh
    unfold Loops.Processed
    rw [hattempts, List.mem_append]
    rw [hnext] at hpointer
    cases hpointer
    by_cases hnew : height = prev + 1
    · right
      simp [hnew]
    · left
      exact hskips.covered first prev (hfirst ▸ hfirstTip) hprev height hlow (by omega)
  · intro height pointer hfailed hpointer
    rw [hnext] at hpointer
    cases hpointer
    rw [hattempts] at hfailed
    by_cases hnew : prev + 1 = height
    · subst hnew
      rw [lastOutcome_append_self] at hfailed
      cases hfailed
    · rw [lastOutcome_append_of_ne _ _ hnew] at hfailed
      have hlt := hskips.not_past height prev hfailed hprev
      omega

theorem neverSkips_of_failure
    {prev : ℕ}
    (hskips : NeverSkips loops)
    (hprev : loops.poller.lastHeight = some prev)
    (hattempts : loops'.attempts = loops.attempts ++ [(prev + 1, false)])
    (hfirst : loops'.firstTip = loops.firstTip)
    (hstays : loops'.poller.lastHeight = some prev) :
    NeverSkips loops' := by
  constructor
  · intro first pointer hfirstTip hpointer height hlow hhigh
    unfold Loops.Processed
    rw [hattempts, List.mem_append]
    rw [hstays] at hpointer
    cases hpointer
    left
    exact hskips.covered first prev (hfirst ▸ hfirstTip) hprev height hlow hhigh
  · intro height pointer hfailed hpointer
    rw [hstays] at hpointer
    cases hpointer
    rw [hattempts] at hfailed
    by_cases hnew : prev + 1 = height
    · omega
    · rw [lastOutcome_append_of_ne _ _ hnew] at hfailed
      exact hskips.not_past height prev hfailed hprev

theorem followsTip_step
    {action : LoopAction}
    (hfollows : FollowsTip loops)
    (hstep : loops.step none action = some loops') :
    FollowsTip loops' := by
  have hsound' := pollerSound_step hfollows.sound hstep
  obtain ⟨hsound, hidle, hfresh, hguarantee⟩ := hfollows
  cases steps_of_step hstep with
  | pollerTip answer poller' htip =>
      obtain ⟨hnone, hback⟩ := lastHeight_of_tip htip
      refine ⟨hsound', hidle, hnone.trans hfresh, fun hok => ?_⟩
      refine neverSkips_of_le (hguarantee hok) rfl ?_ hback
      intro first prev hfirstTip hprev
      obtain ⟨tip, hseen⟩ := hsound.seen prev hprev
      simpa [hseen] using hfirstTip
  | pollerRefreshed poller' hrefreshed =>
      obtain ⟨tip, _, hcases⟩ := refreshed_cases hrefreshed
      have hsame : poller'.lastHeight = loops.poller.lastHeight := by
        rcases hcases with ⟨_, _, rfl⟩ | ⟨_, hstart, _⟩ | ⟨prev, _, rfl⟩
        · rfl
        · exact absurd rfl hstart
        · rfl
      refine ⟨hsound', hidle, hsame ▸ hfresh, fun hok => ?_⟩
      refine neverSkips_of_le (hguarantee hok) rfl (fun _ _ hfirstTip _ => hfirstTip) ?_
      intro prev hprev
      exact ⟨prev, hsame.symm.trans hprev, le_refl prev⟩
  | pollerProcessed ok height poller' hcurrent hprocessed =>
      obtain ⟨height', tip, hphase, hcurrent', hcases⟩ := processed_cases hprocessed
      have hheight : height' = height := by simpa [hcurrent'] using hcurrent
      subst hheight
      have hinitial : loops.attempts <+: loops.attempts ++ [(height', ok)] :=
        List.prefix_append _ _
      rcases hcases with ⟨hlast, rfl⟩ | ⟨prev, hprev, ⟨rfl, rfl⟩ | ⟨rfl, rfl⟩⟩
      · -- the first observation: the pointer is set whatever the result
        obtain ⟨rfl, hfirstTip⟩ := hsound.first height' tip hlast hphase
        have hattempts := hfresh.mp hlast
        refine ⟨hsound', hidle, by simp [Poller.initialized], fun hok => ?_⟩
        have hsucceeded : ok = true := hok (height', ok) (by simp [hattempts])
        subst hsucceeded
        constructor
        · intro first pointer hfirst hpointer height hlow hhigh
          have heq : height = height' := by
            simp_all [Poller.initialized]
            omega
          simp [Loops.Processed, heq]
        · intro height pointer hfailed _
          by_cases hnew : height' = height
          · subst hnew
            rw [lastOutcome_append_self] at hfailed
            cases hfailed
          · rw [lastOutcome_append_of_ne _ _ hnew, hattempts] at hfailed
            cases hfailed
      · have hnext := hsound.next prev height' tip hprev hphase
        subst hnext
        refine ⟨hsound', hidle, by simp, fun hok => ?_⟩
        exact neverSkips_of_success (hguarantee (firstProcessed_of_initial hinitial hok)) hprev
          rfl rfl rfl
      · have hnext := hsound.next prev height' tip hprev hphase
        subst hnext
        refine ⟨hsound', hidle, by simp [hprev], fun hok => ?_⟩
        exact neverSkips_of_failure (hguarantee (firstProcessed_of_initial hinitial hok)) hprev
          rfl rfl hprev
  | coordinatorTip answer phase' hsignalled => cases hsignalled
  | coordinatorRead ok start phase' hstart => cases hstart
  | coordinatorProcessed ok height phase' hcurrent =>
      simp [hidle, CoordinatorPhase.current] at hcurrent
  | coordinatorSaved result saved hsaved => simp [hidle, CoordinatorPhase.saved] at hsaved

theorem followsTip_run
    {actions : List LoopAction}
    (hrun : Loops.run none actions = some loops) :
    FollowsTip loops :=
  invariant_of_run (fun _ _ _ => followsTip_step) followsTip_start hrun

theorem attempts_extend_of_run
    {startHeight : Option ℕ}
    {actions : List LoopAction}
    (hrun : run (Loops.step startHeight) loops actions = some loops') :
    loops.attempts <+: loops'.attempts :=
  relation_of_run (P := fun _ => True)
    (R := fun before after => before.attempts <+: after.attempts)
    (fun _ => List.prefix_rfl) (fun _ _ _ => List.IsPrefix.trans) (fun _ _ _ _ _ => trivial)
    (fun _ _ _ _ => attempts_extend) trivial hrun

/-- After a failure of the very first call there is a state in which the pointer
stands on the failed height. -/
theorem exists_skip
    {actions : List LoopAction}
    (hrun : Loops.run none actions = some loops)
    (hfailed : ¬ FirstProcessed loops.attempts) :
    ∃ before, before <+: actions ∧ ∃ state, Loops.run none before = some state ∧
      ¬ NeverSkips state := by
  induction actions using List.reverseRecOn generalizing loops with
  | nil =>
      cases hrun
      exact absurd (by simp [FirstProcessed, Loops.start]) hfailed
  | append_singleton actions action ih =>
      obtain ⟨last, hlast, hstep⟩ := run_concat_eq_some_iff.mp hrun
      by_cases hbefore : FirstProcessed last.attempts
      · refine ⟨actions ++ [action], List.prefix_rfl, loops, hrun, fun hskips => ?_⟩
        obtain ⟨hsound, hidle, hfresh, _⟩ := followsTip_run hlast
        have hnil : last.attempts = [] := by
          cases hattempts : last.attempts with
          | nil => rfl
          | cons head tail =>
              obtain ⟨rest, hrest⟩ := attempts_extend hstep
              refine absurd (fun attempt hhead => hbefore attempt ?_) hfailed
              rw [← hrest, hattempts] at hhead
              rw [hattempts]
              exact hhead
        -- the only step that adds a call here is the end of the first observation
        cases steps_of_step hstep with
        | pollerTip => exact hfailed hbefore
        | pollerRefreshed => exact hfailed hbefore
        | pollerProcessed ok height poller' hcurrent hprocessed =>
            obtain ⟨height', tip, hphase, hcurrent', hcases⟩ := processed_cases hprocessed
            have hheight : height' = height := by simpa [hcurrent'] using hcurrent
            subst hheight
            have hnone := hfresh.mpr hnil
            obtain ⟨rfl, _⟩ := hsound.first height' tip hnone hphase
            have hok : ok = false := by
              cases ok with
              | false => rfl
              | true => exact absurd (by simp [FirstProcessed, hnil]) hfailed
            subst hok
            rcases hcases with ⟨_, rfl⟩ | ⟨prev, hprev, _⟩
            · have hlt := hskips.not_past height' height' (lastOutcome_append_self _ _ _) rfl
              omega
            · simp [hnone] at hprev
        | coordinatorTip answer phase' hsignalled => cases hsignalled
        | coordinatorRead ok start phase' hstart => cases hstart
        | coordinatorProcessed ok height phase' hcurrent =>
            simp [hidle, CoordinatorPhase.current] at hcurrent
        | coordinatorSaved result saved hsaved => simp [hidle, CoordinatorPhase.saved] at hsaved
      · obtain ⟨before, hinitial, hstate⟩ := ih hlast hbefore
        exact ⟨before, hinitial.trans (List.prefix_append _ _), hstate⟩

end Poller

/-- In every state of a run without a start height the pointer is sound, exactly
when the first call of `process_block_sequential` succeeded. -/
theorem neverSkips_iff_firstProcessed
    {actions : List LoopAction}
    {loops : Loops}
    (hrun : Loops.run none actions = some loops) :
    (∀ before, before <+: actions → ∀ state, Loops.run none before = some state →
      NeverSkips state) ↔ FirstProcessed loops.attempts := by
  constructor
  · intro hskips
    by_contra hfailed
    obtain ⟨before, hinitial, state, hstate, hnot⟩ := exists_skip hrun hfailed
    exact hnot (hskips before hinitial state hstate)
  · intro hfirst before hinitial state hstate
    obtain ⟨rest, rfl⟩ := hinitial
    obtain ⟨middle, hmiddle, hrest⟩ := run_append_eq_some_iff.mp hrun
    have hsame : middle = state := by
      rw [Loops.run, hmiddle] at hstate
      exact Option.some.inj hstate
    subst hsame
    exact (followsTip_run hstate).guarantee
      (firstProcessed_of_initial (attempts_extend_of_run hrest) hfirst)

/-- The first tip is observed, its block fails, and the pointer stands on it. -/
def failingStart : List LoopAction :=
  [.pollerTip (some 5), .pollerRefreshed, .pollerProcessed false]

theorem failingStart_skips :
    ∃ loops, Loops.run none failingStart = some loops ∧ loops.poller.lastHeight = some 5 ∧
      ¬ NeverSkips loops := by
  refine ⟨⟨.initialized 5, .waiting, none, [(5, false)], some 5⟩, rfl, rfl, fun hskips => ?_⟩
  have hprocessed := hskips.covered 5 5 rfl rfl 5 (le_refl 5) (le_refl 5)
  exact absurd hprocessed (by decide)

/-- A first tip that is processed, and then a higher one. -/
def promptStart : List LoopAction :=
  [.pollerTip (some 5), .pollerRefreshed, .pollerProcessed true, .pollerTip (some 6),
    .pollerRefreshed, .pollerProcessed false]

theorem promptStart_neverSkips :
    ∃ loops, Loops.run none promptStart = some loops ∧ loops.poller.lastHeight = some 5 ∧
      ∀ before, before <+: promptStart → ∀ state, Loops.run none before = some state →
        NeverSkips state := by
  refine ⟨_, rfl, rfl, (neverSkips_iff_firstProcessed rfl).mpr ?_⟩
  intro attempt hhead
  cases hhead
  rfl

/-! ## Catching up and following -/

/-- The invariant of both loops with a start height: what the stored progress, the
phase of the coordinator and the pointer of the poller stand for. -/
structure Covers (start : ℕ) (loops : Loops) : Prop where
  sound : loops.PollerSound
  progress : ∀ last, loops.progress = some last →
    ∀ height, start ≤ height → height ≤ last → loops.Processed height
  processing : ∀ next tip, loops.coordinator = .processing next tip →
    (∀ height, start ≤ height → height < next → loops.Processed height) ∧
      ∀ last, loops.progress = some last → last ≤ next
  saving : ∀ next tip, loops.coordinator = .saving next tip →
    (∀ height, start ≤ height → height ≤ next → loops.Processed height) ∧
      ∀ last, loops.progress = some last → last ≤ next
  following : ∀ first prev, loops.firstTip = some first →
    loops.poller.lastHeight = some prev →
      ∀ height, first < height → height ≤ prev → loops.Processed height

theorem covers_start
    (start : ℕ) :
    Covers start .start := by
  constructor
  · exact pollerSound_start
  all_goals simp [Loops.start, Poller.start]

theorem le_of_next
    {progress : Option ℕ}
    {start next : ℕ}
    (hnext : next = (progress.map saturatingSucc).getD start) :
    (∀ last, progress = some last → last ≤ next ∧ next ≤ last + 1) ∧
      (progress = none → next = start) := by
  subst hnext
  cases progress with
  | none => simp
  | some last =>
      simp only [Option.map_some, Option.getD_some, Option.some.injEq, reduceCtorEq,
        IsEmpty.forall_iff, and_true]
      rintro _ rfl
      unfold saturatingSucc
      split <;> omega

section Both

variable {start : ℕ} {loops loops' : Loops}

/-- A step of the poller keeps the coordinator and the progress, and new calls only
add to what is processed. -/
theorem Covers.of_poller
    (hcovers : Covers start loops)
    (hsound : loops'.PollerSound)
    (hcoordinator : loops'.coordinator = loops.coordinator)
    (hprogress : loops'.progress = loops.progress)
    (hmono : ∀ height, loops.Processed height → loops'.Processed height)
    (hfollowing : ∀ first prev, loops'.firstTip = some first →
      loops'.poller.lastHeight = some prev →
        ∀ height, first < height → height ≤ prev → loops'.Processed height) :
    Covers start loops' where
  sound := hsound
  progress := fun last hlast height hlow hhigh =>
    hmono height (hcovers.progress last (hprogress ▸ hlast) height hlow hhigh)
  processing := fun next tip hphase => by
    obtain ⟨hdone, hle⟩ := hcovers.processing next tip (hcoordinator ▸ hphase)
    exact ⟨fun height hlow hhigh => hmono height (hdone height hlow hhigh), hprogress ▸ hle⟩
  saving := fun next tip hphase => by
    obtain ⟨hdone, hle⟩ := hcovers.saving next tip (hcoordinator ▸ hphase)
    exact ⟨fun height hlow hhigh => hmono height (hdone height hlow hhigh), hprogress ▸ hle⟩
  following := hfollowing

theorem covers_step
    {action : LoopAction}
    (hcovers : Covers start loops)
    (hstep : loops.step (some start) action = some loops') :
    Covers start loops' := by
  have hsound' := pollerSound_step hcovers.sound hstep
  have hmono : ∀ height, loops.Processed height → loops'.Processed height :=
    fun _ => processed_mono hstep
  cases steps_of_step hstep with
  | pollerTip answer poller' htip =>
      refine hcovers.of_poller hsound' rfl rfl hmono ?_
      intro first prev hfirst hprev height hlow hhigh
      obtain ⟨prev', hprev', hle⟩ := (lastHeight_of_tip htip).2 prev hprev
      obtain ⟨tip, hseen⟩ := hcovers.sound.seen prev' hprev'
      have hsame : tip = first := by simpa [hseen] using hfirst
      subst hsame
      exact hcovers.following tip prev' hseen hprev' height hlow (hhigh.trans hle)
  | pollerRefreshed poller' hrefreshed =>
      refine hcovers.of_poller hsound' rfl rfl hmono ?_
      intro first prev hfirst hprev height hlow hhigh
      obtain ⟨tip, hphase, hcases⟩ := refreshed_cases hrefreshed
      rcases hcases with ⟨_, hnone, _⟩ | ⟨hlast, _, rfl⟩ | ⟨old, hold, rfl⟩
      · cases hnone
      · -- the pointer is set to the first tip, with nothing in between
        have hobserved := hcovers.sound.observed tip hlast hphase
        have hsame : tip = first := by simpa [hobserved] using hfirst
        have hpointer : tip = prev := by simpa [Poller.initialized] using hprev
        omega
      · exact hcovers.following first prev hfirst hprev height hlow hhigh
  | pollerProcessed ok height' poller' hcurrent' hprocessed =>
      obtain ⟨next, tip, hphase, hcurrent, hcases⟩ := processed_cases hprocessed
      have hheight : next = height' := by simpa [hcurrent] using hcurrent'
      subst hheight
      refine hcovers.of_poller hsound' rfl rfl hmono ?_
      intro first prev hfirst hprev height hlow hhigh
      rcases hcases with ⟨hlast, rfl⟩ | ⟨old, hold, ⟨rfl, rfl⟩ | ⟨rfl, rfl⟩⟩
      · obtain ⟨_, hobserved⟩ := hcovers.sound.first next tip hlast hphase
        have hsame : tip = first := by simpa [hobserved] using hfirst
        have hpointer : tip = prev := by simpa [Poller.initialized] using hprev
        omega
      · have hnext := hcovers.sound.next old next tip hold hphase
        have hpointer : next = prev := by simpa using hprev
        by_cases hnew : height = next
        · simp [Loops.Processed, hnew]
        · refine hmono height (hcovers.following first old hfirst hold height hlow ?_)
          omega
      · exact hmono height (hcovers.following first prev hfirst hprev height hlow hhigh)
  | coordinatorTip answer phase' _ htip =>
      refine ⟨hsound', hcovers.progress, ?_, ?_, hcovers.following⟩ <;>
        · intro next tip hphase
          rcases coordinatorTip_cases htip with rfl | ⟨_, rfl⟩ <;> cases hphase
  | coordinatorRead ok _ phase' hstart hread =>
      cases hstart
      obtain ⟨tip', _, hcases⟩ := read_cases hread
      refine ⟨hsound', hcovers.progress, ?_, ?_, hcovers.following⟩
      · intro next tip hphase
        rcases hcases with rfl | rfl
        · cases hphase
        · obtain ⟨hlast, hnone⟩ := le_of_next (CoordinatorPhase.processing.inj hphase).1.symm
          refine ⟨fun height hlow hhigh => ?_, fun last hprogress => (hlast last hprogress).1⟩
          cases hprogress : loops.progress with
          | none =>
              have heq := hnone hprogress
              omega
          | some last =>
              have hle := (hlast last hprogress).2
              exact hcovers.progress last hprogress height hlow (by omega)
      · intro next tip hphase
        rcases hcases with rfl | rfl <;> cases hphase
  | coordinatorProcessed ok height' phase' hcurrent' hprocessed =>
      obtain ⟨next, tip, hphase, hcurrent, hcases⟩ := coordinatorProcessed_cases hprocessed
      have hheight : next = height' := by simpa [hcurrent] using hcurrent'
      subst hheight
      obtain ⟨hdone, hle⟩ := hcovers.processing next tip hphase
      refine ⟨hsound', fun last hlast height hlow hhigh => hmono height
        (hcovers.progress last hlast height hlow hhigh), ?_, ?_,
        fun first prev hfirst hprev height hlow hhigh => hmono height
          (hcovers.following first prev hfirst hprev height hlow hhigh)⟩
      · intro next' tip' hphase'
        rcases hcases with ⟨_, rfl⟩ | ⟨_, rfl⟩ <;> cases hphase'
      · intro next' tip' hphase'
        rcases hcases with ⟨rfl, rfl⟩ | ⟨_, rfl⟩
        · cases hphase'
          refine ⟨fun height hlow hhigh => ?_, hle⟩
          by_cases hnew : height = next
          · simp [Loops.Processed, hnew]
          · exact hmono height (hdone height hlow (by omega))
        · cases hphase'
  | coordinatorSaved result saved hsaved =>
      obtain ⟨height', tip, hphase, hcases⟩ := saved_cases hsaved
      obtain ⟨hdone, hle⟩ := hcovers.saving height' tip hphase
      rcases hcases with rfl | rfl | rfl
      · exact ⟨hsound', hcovers.progress, by simp, by simp, hcovers.following⟩
      · refine ⟨hsound', ?_, by simp, by simp, hcovers.following⟩
        rintro _ ⟨⟩
        exact hdone
      · refine ⟨hsound', ?_, ?_, by simp, hcovers.following⟩
        · rintro _ ⟨⟩
          exact hdone
        · rintro _ _ ⟨⟩
          refine ⟨fun height hlow hhigh => hdone height hlow (by omega), ?_⟩
          rintro _ ⟨⟩
          omega

def ProgressLe (before after : Loops) : Prop :=
  ∀ last, before.progress = some last → ∃ last', after.progress = some last' ∧ last ≤ last'

theorem progressLe_step
    {action : LoopAction}
    (hcovers : Covers start loops)
    (hstep : loops.step (some start) action = some loops') :
    ProgressLe loops loops' := by
  intro last hlast
  cases steps_of_step hstep with
  | coordinatorSaved result saved hsaved =>
      obtain ⟨height, tip, hphase, hcases⟩ := saved_cases hsaved
      have hle := (hcovers.saving height tip hphase).2 last hlast
      rcases hcases with rfl | rfl | rfl
      · exact ⟨last, hlast, le_refl last⟩
      · exact ⟨height, rfl, hle⟩
      · exact ⟨height, rfl, hle⟩
  | _ => exact ⟨last, hlast, le_refl last⟩

theorem covers_run
    {actions : List LoopAction}
    (hrun : Loops.run (some start) actions = some loops) :
    Covers start loops :=
  invariant_of_run (fun _ _ _ => covers_step) (covers_start start) hrun

end Both

/-- Under every interleaving the stored progress never decreases, everything from
the start height up to it has been processed, and once it has reached the first
tip, everything up to the further one of the two pointers has. -/
theorem joint_coverage
    {start : ℕ}
    {actions : List LoopAction}
    {loops : Loops}
    (hrun : Loops.run (some start) actions = some loops) :
    (∀ later loops', run (Loops.step (some start)) loops later = some loops' →
        ProgressLe loops loops') ∧
      (∀ last, loops.progress = some last →
        ∀ height, start ≤ height → height ≤ last → loops.Processed height) ∧
      ∀ first last prev, loops.firstTip = some first → loops.progress = some last →
        first ≤ last → loops.poller.lastHeight = some prev →
          ∀ height, start ≤ height → height ≤ max prev last → loops.Processed height := by
  have hcovers := covers_run hrun
  refine ⟨?_, hcovers.progress, ?_⟩
  · intro later loops' hlater
    refine relation_of_run (P := Covers start) (R := ProgressLe) ?_ ?_
      (fun _ _ _ => covers_step) (fun _ _ _ => progressLe_step) hcovers hlater
    · exact fun _ last hlast => ⟨last, hlast, le_refl last⟩
    · intro _ _ _ hfirst hsecond last hlast
      obtain ⟨middle, hmiddle, hle⟩ := hfirst last hlast
      obtain ⟨last', hlast', hle'⟩ := hsecond middle hmiddle
      exact ⟨last', hlast', hle.trans hle'⟩
  · intro first last prev hfirst hlast hreached hprev height hlow hhigh
    rcases Nat.lt_or_ge last height with hbeyond | hwithin
    · have hle : height ≤ prev := by
        rcases le_max_iff.mp hhigh with hle | hle
        · exact hle
        · omega
      exact hcovers.following first prev hfirst hprev height (by omega) hle
    · exact hcovers.progress last hlast height hlow hwithin

/-- The coordinator catches up from height 3 to the first tip 4 while the poller
goes on to height 5. -/
def catchUpRun : List LoopAction :=
  [.pollerTip (some 4), .pollerRefreshed, .coordinatorTip (some 4), .coordinatorRead true,
    .pollerTip (some 5), .coordinatorProcessed true, .pollerRefreshed, .coordinatorSaved .saved,
    .pollerProcessed true, .coordinatorProcessed true, .coordinatorSaved .unacknowledged]

theorem catchUpRun_covers :
    ∃ loops, Loops.run (some 3) catchUpRun = some loops ∧ loops.progress = some 4 ∧
      loops.poller.lastHeight = some 5 ∧ ∀ height, 3 ≤ height → height ≤ 5 →
        loops.Processed height := by
  refine ⟨_, rfl, rfl, rfl, fun height hlow hhigh => ?_⟩
  have hrun : Loops.run (some 3) catchUpRun = _ := rfl
  exact (joint_coverage hrun).2.2 4 4 5 rfl rfl (le_refl 4) rfl height hlow hhigh

end AlkanesIndexer
