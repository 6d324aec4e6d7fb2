import AlkanesIndexer.PipelineEffects
import AlkanesIndexer.TipFollowing

/-!
# Following a chain that is reorganised

The poller compares heights and never hashes.  The record of a height says which
block the best chain had there when the height was last processed, and a height
at or below the pointer is processed again only after a lower tip has been
observed.
-/

namespace AlkanesIndexer

open Runs

/-- The hash `ProcessedBlocks` has for a height. -/
def Db.recordedHash (db : Db) (height : ℕ) : Option String :=
  (db.processedBlocks.find? fun row => row.blockHeight = height).map
    ProcessedBlockRow.blockHash

/-- The poller, the database it writes and the best chain, from height 0 on.
`asked` is the answer to the block-hash request of the running processing.  The
last two fields record, for each height, that answer in the processing which
wrote its marker last, and how many ticks have ended since the chain changed. -/
structure Follower where
  loops : Loops
  db : Db
  chain : List String
  asked : Option String
  hashSeen : ℕ → Option String
  steadyTicks : ℕ

inductive FollowerAction where
  | chainChanges (chain : List String)
  | pollerTip (answer : Option ℕ)
  | pollerRefreshed
  | blockHash
  | pollerProcessed (attempt : Attempt)

namespace Follower

def start (db : Db) (chain : List String) : Follower :=
  ⟨.start, db, chain, none, fun _ => none, 0⟩

/-- A step of the poller; a tick has ended if it waits for the next tip. -/
def advance (follower : Follower) (loops : Loops) : Follower :=
  { follower with
    loops := loops
    steadyTicks := follower.steadyTicks + if loops.poller.phase = .waiting then 1 else 0 }

/-- The block-hash request of an attempt failed or was answered by the best chain. -/
def Answered (follower : Follower) (attempt : Attempt) (height : ℕ) : Prop :=
  match attempt.rpc.blockHash height with
  | .ok hash => follower.asked = some hash
  | .error _ => True

instance (follower : Follower) (attempt : Attempt) (height : ℕ) :
    Decidable (follower.Answered attempt height) :=
  match h : attempt.rpc.blockHash height with
  | .ok hash =>
      decidable_of_iff (follower.asked = some hash) (by simp only [Answered, h])
  | .error _ => isTrue (by simp only [Answered, h])

def written (follower : Follower) (height : ℕ) (outcome : Outcome) : Follower :=
  { follower with
    db := outcome.db
    asked := none
    hashSeen :=
      if .processedBlock ∈ outcome.committed then
        Function.update follower.hashSeen height follower.asked
      else follower.hashSeen }

def step (follower : Follower) : FollowerAction → Option Follower
  | .chainChanges chain => some { follower with chain := chain, steadyTicks := 0 }
  | .pollerTip answer => (follower.loops.step none (.pollerTip answer)).map follower.advance
  | .pollerRefreshed => (follower.loops.step none .pollerRefreshed).map follower.advance
  | .blockHash =>
      follower.loops.poller.current.map fun height =>
        { follower with asked := follower.chain[height]? }
  | .pollerProcessed attempt =>
      follower.loops.poller.current.bind fun height =>
        if follower.Answered attempt height then
          let outcome := processBlockSequential attempt height true follower.db
          (follower.loops.step none (.pollerProcessed outcome.error.isNone)).map
            (follower.written height outcome).advance
        else none

def run (db : Db) (chain : List String) (actions : List FollowerAction) : Option Follower :=
  Runs.run step (start db chain) actions

def NoFailure (follower : Follower) : Prop :=
  ∀ attempt ∈ follower.loops.attempts, attempt.2 = true

/-- A tick has ended with the pointer at the tip of a chain which has not changed
since the tick before. -/
def Settled (follower : Follower) : Prop :=
  follower.loops.poller.phase = .waiting ∧ 2 ≤ follower.steadyTicks ∧
    ∃ tip, follower.loops.poller.lastHeight = some tip ∧ follower.chain.length = tip + 1

/-- What holds of every height from the first processed one to the pointer. -/
def OnRange (follower : Follower) (property : ℕ → Prop) : Prop :=
  ∀ first prev, follower.loops.firstTip = some first →
    follower.loops.poller.lastHeight = some prev →
      ∀ height, first ≤ height → height ≤ prev → property height

def Converged (follower : Follower) : Prop :=
  follower.OnRange fun height => follower.db.recordedHash height = follower.chain[height]?

end Follower

/-! ## The marker of a block -/

theorem recordedHash_after
    (data : BlockData)
    (pools : DerivedTable → List PoolRow)
    {stages : List Stage}
    (db : Db)
    (hmarked : .processedBlock ∈ stages)
    (height : ℕ) :
    (data.after pools stages db).recordedHash height =
      if height = data.height then some data.blockHash else db.recordedHash height := by
  unfold Db.recordedHash
  rw [after_processedBlocks, if_pos hmarked, List.find?_append, List.find?_filter]
  by_cases hsame : height = data.height
  · have hnone : (db.processedBlocks.find? fun row =>
        decide (decide (row.blockHeight ≠ data.height) = true ∧
          decide (row.blockHeight = height) = true)) = none := by
      rw [List.find?_eq_none]
      intro row _ hrow
      simp only [decide_eq_true_eq] at hrow
      exact hrow.1 (hrow.2.trans hsame)
    rw [hnone, if_pos hsame]
    simp [BlockData.processedBlockRow, hsame]
  · have hother : (fun row : ProcessedBlockRow =>
        decide (decide (row.blockHeight ≠ data.height) = true ∧
          decide (row.blockHeight = height) = true)) =
        fun row => decide (row.blockHeight = height) := by
      funext row
      simp only [decide_eq_true_eq, decide_eq_decide, and_iff_right_iff_imp]
      intro hrow
      rw [hrow]
      exact hsame
    have hrow : [data.processedBlockRow].find? (fun row => decide (row.blockHeight = height)) =
        none := by
      simp [BlockData.processedBlockRow, eq_comm, hsame]
    rw [hother, hrow, Option.or_none, if_neg hsame]

section Attempts

variable {attempt : Attempt} {height : ℕ} {emitPublish : Bool} {db : Db}

theorem recordedHash_of_marked
    (hmarked : .processedBlock ∈
      (processBlockSequential attempt height emitPublish db).committed) :
    ∃ hash, attempt.rpc.blockHash height = .ok hash ∧ ∀ other,
      (processBlockSequential attempt height emitPublish db).db.recordedHash other =
        if other = height then some hash else db.recordedHash other := by
  cases hfetch : fetchBlock attempt.rpc attempt.schedule height with
  | error error => simp [processBlockSequential, hfetch] at hmarked
  | ok data =>
      rw [processBlockSequential_of_fetch attempt emitPublish db hfetch] at hmarked ⊢
      obtain ⟨hhash, _⟩ := answers_of_fetchBlock hfetch
      obtain ⟨hheight, _⟩ := height_of_fetchBlock hfetch
      refine ⟨data.blockHash, hhash, fun other => ?_⟩
      rw [writeBlock_db, recordedHash_after data attempt.pools db hmarked, hheight]

theorem recordedHash_of_not_marked
    (hmarked : .processedBlock ∉
      (processBlockSequential attempt height emitPublish db).committed)
    (other : ℕ) :
    (processBlockSequential attempt height emitPublish db).db.recordedHash other =
      db.recordedHash other := by
  cases hfetch : fetchBlock attempt.rpc attempt.schedule height with
  | error error => simp [processBlockSequential, hfetch]
  | ok data =>
      rw [processBlockSequential_of_fetch attempt emitPublish db hfetch] at hmarked ⊢
      rw [writeBlock_db, Db.recordedHash, after_processedBlocks, if_neg hmarked]
      rfl

theorem marked_of_error_eq_none
    (herror : (processBlockSequential attempt height emitPublish db).error = none) :
    .processedBlock ∈ (processBlockSequential attempt height emitPublish db).committed := by
  obtain ⟨data, hfetch⟩ := exists_data_of_error_eq_none attempt emitPublish db herror
  rw [processBlockSequential_of_fetch attempt emitPublish db hfetch] at herror ⊢
  rw [writeBlock_committed attempt emitPublish db data herror, List.mem_filter]
  refine ⟨?_, rfl⟩
  unfold BlockData.stages
  split <;> simp

end Attempts

/-! ## The recorded hashes over a run -/

namespace Follower

variable {follower follower' : Follower}

/-- What the records stand for. -/
structure Tracks (follower : Follower) : Prop where
  recorded : ∀ height hash, follower.hashSeen height = some hash →
    follower.db.recordedHash height = some hash
  seen : ∀ height, follower.loops.Processed height →
    ∃ hash, follower.hashSeen height = some hash

theorem tracks_start
    (db : Db)
    (chain : List String) :
    (start db chain).Tracks := by
  constructor
  · intro height hash hseen
    cases hseen
  · intro height hprocessed
    simp [start, Loops.Processed, Loops.start] at hprocessed

/-- The end of a processing, with the height and the result. -/
theorem processed_step_cases
    {attempt : Attempt}
    (hstep : follower.step (.pollerProcessed attempt) = some follower') :
    ∃ height loops, follower.loops.poller.current = some height ∧
      follower.Answered attempt height ∧
      follower.loops.step none (.pollerProcessed
        (processBlockSequential attempt height true follower.db).error.isNone) = some loops ∧
      follower' = (follower.written height
        (processBlockSequential attempt height true follower.db)).advance loops := by
  simp only [step, Option.bind_eq_some_iff, Option.ite_none_right_eq_some,
    Option.map_eq_some_iff] at hstep
  obtain ⟨height, hcurrent, hanswered, loops, hloops, rfl⟩ := hstep
  exact ⟨height, loops, hcurrent, hanswered, hloops, rfl⟩

theorem attempts_of_processed
    {startHeight : Option ℕ}
    {loops loops' : Loops}
    {height : ℕ}
    {ok : Bool}
    (hcurrent : loops.poller.current = some height)
    (hstep : loops.step startHeight (.pollerProcessed ok) = some loops') :
    loops'.attempts = loops.attempts ++ [(height, ok)] := by
  simp only [Loops.step, hcurrent, Option.bind_some, Option.map_eq_some_iff] at hstep
  obtain ⟨poller', _, rfl⟩ := hstep
  rfl

theorem tracks_written
    {attempt : Attempt}
    {height : ℕ}
    (htracks : follower.Tracks)
    (hanswered : follower.Answered attempt height)
    {loops : Loops}
    (hattempts : loops.attempts = follower.loops.attempts ++
      [(height, (processBlockSequential attempt height true follower.db).error.isNone)]) :
    ((follower.written height
      (processBlockSequential attempt height true follower.db)).advance loops).Tracks := by
  obtain ⟨hrecorded, hseen⟩ := htracks
  by_cases hmarked :
      .processedBlock ∈ (processBlockSequential attempt height true follower.db).committed
  · -- the marker has the hash that was asked for
    obtain ⟨hash, hhash, hdb⟩ := recordedHash_of_marked hmarked
    have hasked : follower.asked = some hash := by
      unfold Answered at hanswered
      simpa only [hhash] using hanswered
    constructor
    · intro other seen hother
      simp only [advance, written, if_pos hmarked] at hother ⊢
      rw [hdb]
      by_cases hsame : other = height
      · subst hsame
        rw [Function.update_self, hasked] at hother
        rw [if_pos rfl]
        exact hother
      · rw [Function.update_of_ne hsame] at hother
        rw [if_neg hsame]
        exact hrecorded other seen hother
    · intro other hprocessed
      simp only [advance, written, if_pos hmarked]
      by_cases hsame : other = height
      · subst hsame
        exact ⟨hash, by rw [Function.update_self, hasked]⟩
      · rw [Function.update_of_ne hsame]
        apply hseen other
        unfold Loops.Processed at hprocessed ⊢
        change (other, true) ∈ loops.attempts at hprocessed
        rw [hattempts, List.mem_append] at hprocessed
        rcases hprocessed with hold | hnew
        · exact hold
        · exact absurd (congrArg Prod.fst (List.mem_singleton.mp hnew)) hsame
  · have hfailed :
        (processBlockSequential attempt height true follower.db).error.isNone = false := by
      rw [Option.isNone_eq_false_iff, Option.isSome_iff_ne_none]
      exact fun hnone => hmarked (marked_of_error_eq_none hnone)
    constructor
    · intro other seen hother
      simp only [advance, written, if_neg hmarked] at hother ⊢
      rw [recordedHash_of_not_marked hmarked]
      exact hrecorded other seen hother
    · intro other hprocessed
      simp only [advance, written, if_neg hmarked]
      apply hseen other
      unfold Loops.Processed at hprocessed ⊢
      change (other, true) ∈ loops.attempts at hprocessed
      rw [hattempts, hfailed] at hprocessed
      simpa using hprocessed

theorem tracks_step
    {action : FollowerAction}
    (htracks : follower.Tracks)
    (hstep : follower.step action = some follower') :
    follower'.Tracks := by
  cases action with
  | chainChanges chain =>
      cases hstep
      exact ⟨htracks.recorded, htracks.seen⟩
  | pollerTip answer =>
      simp only [step, Loops.step, Option.map_eq_some_iff] at hstep
      obtain ⟨_, ⟨poller', _, rfl⟩, rfl⟩ := hstep
      exact ⟨htracks.recorded, htracks.seen⟩
  | pollerRefreshed =>
      simp only [step, Loops.step, Option.map_eq_some_iff] at hstep
      obtain ⟨_, ⟨poller', _, rfl⟩, rfl⟩ := hstep
      exact ⟨htracks.recorded, htracks.seen⟩
  | blockHash =>
      simp only [step, Option.map_eq_some_iff] at hstep
      obtain ⟨_, _, rfl⟩ := hstep
      exact ⟨htracks.recorded, htracks.seen⟩
  | pollerProcessed attempt =>
      obtain ⟨height, loops, hcurrent, hanswered, hloops, rfl⟩ := processed_step_cases hstep
      exact tracks_written htracks hanswered (attempts_of_processed hcurrent hloops)

theorem loops_step
    {action : FollowerAction}
    (hstep : follower.step action = some follower') :
    follower'.loops = follower.loops ∨
      ∃ label, follower.loops.step none label = some follower'.loops := by
  cases action with
  | chainChanges chain =>
      cases hstep
      exact Or.inl rfl
  | pollerTip answer =>
      simp only [step, Option.map_eq_some_iff] at hstep
      obtain ⟨loops, hloops, rfl⟩ := hstep
      exact Or.inr ⟨_, hloops⟩
  | pollerRefreshed =>
      simp only [step, Option.map_eq_some_iff] at hstep
      obtain ⟨loops, hloops, rfl⟩ := hstep
      exact Or.inr ⟨_, hloops⟩
  | blockHash =>
      simp only [step, Option.map_eq_some_iff] at hstep
      obtain ⟨_, _, rfl⟩ := hstep
      exact Or.inl rfl
  | pollerProcessed attempt =>
      obtain ⟨height, loops, _, _, hloops, rfl⟩ := processed_step_cases hstep
      exact Or.inr ⟨_, hloops⟩

theorem followsTip_of_run
    {db : Db}
    {chain : List String}
    {actions : List FollowerAction}
    (hrun : run db chain actions = some follower) :
    FollowsTip follower.loops := by
  obtain ⟨labels, hlabels⟩ :=
    exists_run_of_project Follower.loops (fun _ _ _ => loops_step) hrun
  exact followsTip_run hlabels

theorem firstProcessed_of_noFailure
    (hok : follower.NoFailure) :
    FirstProcessed follower.loops.attempts :=
  fun attempt hhead => hok attempt (List.mem_of_mem_head? hhead)

/-- Behind the pointer nothing is processed. -/
theorem recordedHash_step
    {action : FollowerAction}
    {prev height : ℕ}
    (hsound : follower.loops.PollerSound)
    (hprev : follower.loops.poller.lastHeight = some prev)
    (hle : height ≤ prev)
    (hstep : follower.step action = some follower') :
    follower'.db.recordedHash height = follower.db.recordedHash height := by
  cases action with
  | chainChanges chain =>
      cases hstep
      rfl
  | pollerTip answer =>
      simp only [step, Option.map_eq_some_iff] at hstep
      obtain ⟨_, _, rfl⟩ := hstep
      rfl
  | pollerRefreshed =>
      simp only [step, Option.map_eq_some_iff] at hstep
      obtain ⟨_, _, rfl⟩ := hstep
      rfl
  | blockHash =>
      simp only [step, Option.map_eq_some_iff] at hstep
      obtain ⟨_, _, rfl⟩ := hstep
      rfl
  | pollerProcessed attempt =>
      obtain ⟨next, loops, hcurrent, _, hloops, rfl⟩ := processed_step_cases hstep
      simp only [Loops.step, hcurrent, Option.bind_some, Option.map_eq_some_iff] at hloops
      obtain ⟨poller', hprocessed, _⟩ := hloops
      obtain ⟨next', tip, hphase, hcurrent', _⟩ := processed_cases hprocessed
      have hsame : next' = next := by simpa [hcurrent'] using hcurrent
      subst hsame
      have hnext : next' = prev + 1 := hsound.next prev next' tip hprev hphase
      by_cases hmarked :
          .processedBlock ∈ (processBlockSequential attempt next' true follower.db).committed
      · obtain ⟨hash, _, hdb⟩ := recordedHash_of_marked hmarked
        exact (hdb height).trans (if_neg (by omega))
      · exact recordedHash_of_not_marked hmarked height

def Past (follower : Follower) (height : ℕ) : Prop :=
  ∃ prev, follower.loops.poller.lastHeight = some prev ∧ height ≤ prev

theorem recordedHash_of_past
    {later : List FollowerAction}
    {height : ℕ}
    (hfollows : FollowsTip follower.loops)
    (hlater : Runs.run step follower later = some follower')
    (hpast : ∀ before, before <+: later → ∀ state, Runs.run step follower before = some state →
      state.Past height) :
    follower'.db.recordedHash height = follower.db.recordedHash height := by
  induction later generalizing follower with
  | nil =>
      cases hlater
      rfl
  | cons action rest ih =>
      obtain ⟨next, hnext, hrest⟩ := run_cons_eq_some_iff.mp hlater
      obtain ⟨prev, hprev, hle⟩ := hpast [] List.nil_prefix follower rfl
      have hfollows' : FollowsTip next.loops := by
        rcases loops_step hnext with hsame | ⟨label, hlabel⟩
        · rw [hsame]
          exact hfollows
        · exact followsTip_step hfollows hlabel
      have hrestPast : ∀ before, before <+: rest → ∀ state,
          Runs.run step next before = some state → state.Past height := by
        intro before hinitial state hstate
        apply hpast (action :: before) (List.cons_prefix_cons.mpr ⟨rfl, hinitial⟩) state
        exact run_cons_eq_some_iff.mpr ⟨next, hnext, hstate⟩
      calc
        follower'.db.recordedHash height = next.db.recordedHash height :=
          ih hfollows' hrest hrestPast
        _ = follower.db.recordedHash height :=
          recordedHash_step hfollows.sound hprev hle hnext

end Follower

/-- Without a failure every height from the first processed one to the pointer is
recorded with the hash the best chain had when it was last processed.  So the
records are those of the best chain exactly when none of these hashes has been
replaced since; and as long as the pointer is not moved below a height, its record
stays as it is. -/
theorem recorded_hashes_of_run
    {db : Db}
    {chain : List String}
    {actions : List FollowerAction}
    {follower : Follower}
    (hrun : Follower.run db chain actions = some follower)
    (hok : follower.NoFailure) :
    (follower.OnRange fun height => ∃ hash, follower.hashSeen height = some hash ∧
        follower.db.recordedHash height = some hash) ∧
      (follower.Converged ↔
        follower.OnRange fun height => follower.hashSeen height = follower.chain[height]?) ∧
      ∀ height later follower', Runs.run Follower.step follower later = some follower' →
        (∀ before, before <+: later → ∀ state,
          Runs.run Follower.step follower before = some state → state.Past height) →
        follower'.db.recordedHash height = follower.db.recordedHash height := by
  have hfollows := Follower.followsTip_of_run hrun
  have htracks : follower.Tracks :=
    invariant_of_run (fun _ _ _ => Follower.tracks_step) (Follower.tracks_start db chain) hrun
  have hskips := hfollows.guarantee (Follower.firstProcessed_of_noFailure hok)
  have hrecorded : follower.OnRange fun height => ∃ hash,
      follower.hashSeen height = some hash ∧ follower.db.recordedHash height = some hash := by
    intro first prev hfirst hprev height hlow hhigh
    have hprocessed := hskips.covered first prev hfirst hprev height hlow hhigh
    obtain ⟨hash, hseen⟩ := htracks.seen height hprocessed
    exact ⟨hash, hseen, htracks.recorded height hash hseen⟩
  refine ⟨hrecorded, ?_, ?_⟩
  · constructor
    · intro hconverged first prev hfirst hprev height hlow hhigh
      obtain ⟨hash, hseen, hdb⟩ := hrecorded first prev hfirst hprev height hlow hhigh
      rw [hseen, ← hdb]
      exact hconverged first prev hfirst hprev height hlow hhigh
    · intro hchain first prev hfirst hprev height hlow hhigh
      obtain ⟨hash, hseen, hdb⟩ := hrecorded first prev hfirst hprev height hlow hhigh
      rw [hdb, ← hseen]
      exact hchain first prev hfirst hprev height hlow hhigh
  · intro height later follower' hlater hpast
    exact Follower.recordedHash_of_past hfollows hlater hpast

/-! ## A tip that is replaced -/

/-- Height 2 is processed as the first tip, and then another block takes its place. -/
def replacedTip : List FollowerAction :=
  [.pollerTip (some 2), .pollerRefreshed, .blockHash,
    .pollerProcessed (.smooth (.serving "a2" []) []), .chainChanges ["g", "a1", "b2"]]

def sameTip : List FollowerAction := [.pollerTip (some 2), .pollerTip (some 2)]

/-- The tip falls below 2 and comes back. -/
def fallenTip : List FollowerAction :=
  [.pollerTip (some 1), .pollerTip (some 2), .pollerRefreshed, .blockHash,
    .pollerProcessed (.smooth (.serving "b2" []) [])]

def loopsAtTip : Loops := ⟨.initialized 2, .waiting, none, [(2, true)], some 2⟩

set_option maxRecDepth 4000 in
theorem sameTip_not_converged :
    ∃ follower, Follower.run .empty ["g", "a1", "a2"] (replacedTip ++ sameTip) = some follower ∧
      follower.NoFailure ∧ follower.Settled ∧ ¬ follower.Converged := by
  have hloops : (Follower.run .empty ["g", "a1", "a2"] (replacedTip ++ sameTip)).map
      Follower.loops = some loopsAtTip := by
    decide
  have hchain : (Follower.run .empty ["g", "a1", "a2"] (replacedTip ++ sameTip)).map
      (fun follower => (follower.chain, follower.steadyTicks, follower.db.recordedHash 2)) =
        some (["g", "a1", "b2"], 2, some "a2") := by
    decide
  obtain ⟨follower, hrun, hloops⟩ := Option.map_eq_some_iff.mp hloops
  simp only [hrun, Option.map_some, Option.some.injEq, Prod.mk.injEq] at hchain
  obtain ⟨hchain, hticks, hrecorded⟩ := hchain
  refine ⟨follower, hrun, ?_, ?_, ?_⟩
  · unfold Follower.NoFailure
    rw [hloops]
    decide
  · unfold Follower.Settled
    rw [hloops, hchain, hticks]
    exact ⟨rfl, le_refl 2, 2, rfl, rfl⟩
  · intro hconverged
    have hsame : follower.db.recordedHash 2 = follower.chain[2]? :=
      hconverged 2 2 (by rw [hloops]; rfl) (by rw [hloops]; rfl) 2 (le_refl 2) (le_refl 2)
    rw [hrecorded, hchain] at hsame
    exact absurd hsame (by decide)

set_option maxRecDepth 4000 in
theorem fallenTip_converged :
    ∃ follower, Follower.run .empty ["g", "a1", "a2"] (replacedTip ++ fallenTip) =
      some follower ∧ follower.loops.poller.lastHeight = some 2 ∧ follower.Converged := by
  have hloops : (Follower.run .empty ["g", "a1", "a2"] (replacedTip ++ fallenTip)).map
      Follower.loops =
        some { loopsAtTip with attempts := [(2, true), (2, true)] } := by
    decide
  have hchain : (Follower.run .empty ["g", "a1", "a2"] (replacedTip ++ fallenTip)).map
      (fun follower => (follower.chain, follower.hashSeen 2)) =
        some (["g", "a1", "b2"], some "b2") := by
    decide
  obtain ⟨follower, hrun, hloops⟩ := Option.map_eq_some_iff.mp hloops
  simp only [hrun, Option.map_some, Option.some.injEq, Prod.mk.injEq] at hchain
  obtain ⟨hchain, hseen⟩ := hchain
  have hok : follower.NoFailure := by
    unfold Follower.NoFailure
    rw [hloops]
    decide
  refine ⟨follower, hrun, by rw [hloops]; rfl, (recorded_hashes_of_run hrun hok).2.1.mpr ?_⟩
  intro first prev hfirst hprev height hlow hhigh
  rw [hloops] at hfirst hprev
  cases hfirst
  cases hprev
  have hheight : height = 2 := by omega
  rw [hheight, hseen, hchain]
  rfl

end AlkanesIndexer
