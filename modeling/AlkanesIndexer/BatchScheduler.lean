import Mathlib.Data.List.Perm.Basic
import Mathlib.Tactic

/-!
# Completion orders of concurrent work

Two ways of running a list of jobs concurrently and collecting what they
produce.  `bufferUnordered` keeps a bounded window of jobs in flight and yields
them as they complete.  `runBatches` gives every batch of jobs to one task; the
tasks push to one shared vector, and the first fatal error makes every task stop
before its next job.  What decides the order is an argument, so a statement for
every argument is one for every order of completion.
-/

namespace BatchScheduler

/-! ## A window of jobs in flight -/

section Window

variable {α β : Type*}

/-- The jobs in order of completion.  The first `window` of the pending jobs are
in flight; each pick says which of them completes next, and once the picks are
used up the rest completes in order. -/
def bufferUnordered (window : ℕ) : List ℕ → List α → List α
  | pick :: picks, pending =>
      match pending[pick % min window pending.length]? with
      | some job =>
          job :: bufferUnordered window picks
            (pending.eraseIdx (pick % min window pending.length))
      | none => pending
  | [], pending => pending

theorem bufferUnordered_perm
    (window : ℕ)
    (picks : List ℕ)
    (pending : List α) :
    (bufferUnordered window picks pending).Perm pending := by
  induction picks generalizing pending with
  | nil => exact List.Perm.refl pending
  | cons pick picks ih =>
      unfold bufferUnordered
      split
      · next job hjob =>
          obtain ⟨hlt, hget⟩ := List.getElem?_eq_some_iff.mp hjob
          refine ((ih _).cons job).trans ?_
          rw [← hget]
          exact List.getElem_cons_eraseIdx_perm hlt
      · exact List.Perm.refl pending

theorem bufferUnordered_map
    (f : α → β)
    (window : ℕ)
    (picks : List ℕ)
    (pending : List α) :
    bufferUnordered window picks (pending.map f) =
      (bufferUnordered window picks pending).map f := by
  induction picks generalizing pending with
  | nil => rfl
  | cons pick picks ih =>
      unfold bufferUnordered
      rw [List.getElem?_map, List.length_map]
      cases pending[pick % min window pending.length]? with
      | none => rfl
      | some job => simp [List.eraseIdx_map, ih]

end Window

/-! ## Batches pushing to one vector -/

/-- One batch: the job being worked on and the jobs behind it. -/
structure Task (α : Type*) where
  current : Option α
  rest : List α

structure Shared (ρ ε : Type*) where
  pushed : List ρ
  fatal : Option ε

section Batches

variable {α ρ ε : Type*}

def Task.start (jobs : List α) : Task α := ⟨none, jobs⟩

def Task.pending (task : Task α) : List α := task.current.toList ++ task.rest

def Task.map {β : Type*} (f : α → β) (task : Task α) : Task β :=
  ⟨task.current.map f, task.rest.map f⟩

/-- One move of a task.  Between two jobs it looks at the fatal flag and stops if
it is set; a job in progress ends by pushing a result, by pushing nothing, or by
setting the flag. -/
def Task.step
    (outcome : α → Except ε (Option ρ))
    (shared : Shared ρ ε)
    (task : Task α) : Shared ρ ε × Task α :=
  match task.current with
  | none =>
      match task.rest with
      | [] => (shared, task)
      | job :: rest =>
          if shared.fatal.isSome then (shared, ⟨none, []⟩) else (shared, ⟨some job, rest⟩)
  | some job =>
      match outcome job with
      | .ok (some result) =>
          ({ shared with pushed := shared.pushed ++ [result] }, ⟨none, task.rest⟩)
      | .ok none => (shared, ⟨none, task.rest⟩)
      | .error error => ({ shared with fatal := some error }, ⟨none, []⟩)

/-- The moves named by the schedule, a position of no task being skipped. -/
def runSteps
    (outcome : α → Except ε (Option ρ)) :
    List ℕ → Shared ρ ε → List (Task α) → Shared ρ ε × List (Task α)
  | [], shared, tasks => (shared, tasks)
  | turn :: schedule, shared, tasks =>
      match tasks[turn]? with
      | none => runSteps outcome schedule shared tasks
      | some task =>
          let moved := task.step outcome shared
          runSteps outcome schedule moved.1 (tasks.set turn moved.2)

def finishTask
    (outcome : α → Except ε (Option ρ)) :
    ℕ → Shared ρ ε → Task α → Shared ρ ε
  | 0, shared, _ => shared
  | moves + 1, shared, task =>
      let moved := task.step outcome shared
      finishTask outcome moves moved.1 moved.2

def finishAll
    (outcome : α → Except ε (Option ρ)) :
    Shared ρ ε → List (Task α) → Shared ρ ε
  | shared, [] => shared
  | shared, task :: tasks =>
      finishAll outcome
        (finishTask outcome (2 * task.pending.length) shared task) tasks

/-- All batches run to their end: first by the schedule, then, where it has left
jobs over, one task after another.  Whoever joins the tasks gets the pushed
results, or the recorded error. -/
def runBatches
    (outcome : α → Except ε (Option ρ))
    (schedule : List ℕ)
    (batches : List (List α)) : Except ε (List ρ) :=
  let moved := runSteps outcome schedule ⟨[], none⟩ (batches.map Task.start)
  let shared := finishAll outcome moved.1 moved.2
  match shared.fatal with
  | some error => .error error
  | none => .ok shared.pushed

end Batches

/-! ## What the batches produce -/

section Accounts

variable {α ρ ε : Type*} (outcome : α → Except ε (Option ρ))

def produced (job : α) : Option ρ :=
  match outcome job with
  | .ok result => result
  | .error _ => none

/-- The books of a run over `jobs` while `pending` jobs are left: without a fatal
error every result is either pushed or still to come, and a job that will fail is
still to come. -/
structure Accounts (jobs : List α) (shared : Shared ρ ε) (pending : List α) : Prop where
  pending_mem : ∀ job ∈ pending, job ∈ jobs
  results : shared.fatal = none →
    (shared.pushed ++ pending.filterMap (produced outcome)).Perm
      (jobs.filterMap (produced outcome))
  failures : shared.fatal = none →
    ∀ job ∈ jobs, ∀ error, outcome job = .error error → job ∈ pending
  fatal_mem : ∀ error, shared.fatal = some error →
    ∃ job ∈ jobs, outcome job = .error error

variable {outcome} {jobs : List α} {shared : Shared ρ ε}

theorem Accounts.of_perm
    {pending pending' : List α}
    (haccounts : Accounts outcome jobs shared pending)
    (hperm : pending'.Perm pending) :
    Accounts outcome jobs shared pending' where
  pending_mem := fun job hjob => haccounts.pending_mem job (hperm.mem_iff.mp hjob)
  results := fun hfatal =>
    ((hperm.filterMap _).append_left _).trans (haccounts.results hfatal)
  failures := fun hfatal job hjob error herror =>
    hperm.mem_iff.mpr (haccounts.failures hfatal job hjob error herror)
  fatal_mem := haccounts.fatal_mem

theorem Accounts.step
    {task : Task α}
    {others : List α}
    (haccounts : Accounts outcome jobs shared (task.pending ++ others)) :
    Accounts outcome jobs (task.step outcome shared).1
      ((task.step outcome shared).2.pending ++ others) := by
  obtain ⟨current, rest⟩ := task
  cases current with
  | none =>
      cases rest with
      | nil => exact haccounts
      | cons job rest =>
          cases hfatal : shared.fatal with
          | none => simpa [Task.step, Task.pending, hfatal] using haccounts
          | some error =>
              simp only [Task.step, hfatal, Option.isSome_some, if_true]
              refine ⟨fun left hleft => ?_, by simp [hfatal], by simp [hfatal], ?_⟩
              · exact haccounts.pending_mem left (List.mem_append_right _ hleft)
              · exact haccounts.fatal_mem
  | some job =>
      have hjob : job ∈ jobs :=
        haccounts.pending_mem job (by simp [Task.pending])
      have hrest : ∀ left ∈ rest ++ others, left ∈ jobs := fun left hleft =>
        haccounts.pending_mem left (List.mem_cons_of_mem job hleft)
      have hothers : ∀ left ∈ others, left ∈ jobs := fun left hleft =>
        hrest left (List.mem_append_right rest hleft)
      cases houtcome : outcome job with
      | error error =>
          simp only [Task.step, houtcome]
          refine ⟨fun left hleft => hothers left hleft, by simp, by simp, ?_⟩
          rintro _ ⟨⟩
          exact ⟨job, hjob, houtcome⟩
      | ok result =>
          have hfailures : shared.fatal = none →
              ∀ left ∈ jobs, ∀ error, outcome left = .error error →
                left ∈ rest ++ others := by
            intro hfatal left hleft error herror
            have hmem := haccounts.failures hfatal left hleft error herror
            rcases List.mem_cons.mp hmem with rfl | hmem
            · rw [houtcome] at herror
              cases herror
            · exact hmem
          cases result with
          | none =>
              simp only [Task.step, houtcome]
              refine ⟨hrest, fun hfatal => ?_, hfailures, haccounts.fatal_mem⟩
              simpa [Task.pending, produced, houtcome] using haccounts.results hfatal
          | some result =>
              simp only [Task.step, houtcome]
              refine ⟨hrest, fun hfatal => ?_, hfailures, haccounts.fatal_mem⟩
              simpa [Task.pending, produced, houtcome] using haccounts.results hfatal

theorem Accounts.runSteps
    (schedule : List ℕ)
    {tasks : List (Task α)}
    (haccounts : Accounts outcome jobs shared (tasks.flatMap Task.pending)) :
    Accounts outcome jobs (runSteps outcome schedule shared tasks).1
      ((runSteps outcome schedule shared tasks).2.flatMap Task.pending) := by
  induction schedule generalizing shared tasks with
  | nil => exact haccounts
  | cons turn schedule ih =>
      unfold BatchScheduler.runSteps
      cases hturn : tasks[turn]? with
      | none => exact ih haccounts
      | some task =>
          obtain ⟨hlt, hget⟩ := List.getElem?_eq_some_iff.mp hturn
          refine ih ?_
          have hsplit : (task.pending ++ (tasks.eraseIdx turn).flatMap Task.pending).Perm
              (tasks.flatMap Task.pending) := by
            rw [← hget]
            exact (List.getElem_cons_eraseIdx_perm hlt).flatMap_right _
          have hmoved := (haccounts.of_perm hsplit).step
          refine hmoved.of_perm ?_
          exact (List.set_perm_cons_eraseIdx hlt _).flatMap_right _

variable (outcome) in
theorem Task.step_pending_le
    (shared : Shared ρ ε)
    (task : Task α) :
    2 * (task.step outcome shared).2.rest.length +
        (task.step outcome shared).2.current.toList.length ≤
      2 * task.rest.length + task.current.toList.length - 1 := by
  obtain ⟨current, rest⟩ := task
  cases current with
  | none =>
      cases rest with
      | nil => simp [Task.step]
      | cons job rest =>
          simp only [Task.step]
          split <;> simp
          omega
  | some job =>
      simp only [Task.step]
      split <;> simp

theorem Accounts.finishTask
    {moves : ℕ}
    {task : Task α}
    {others : List α}
    (hmoves : 2 * task.rest.length + task.current.toList.length ≤ moves)
    (haccounts : Accounts outcome jobs shared (task.pending ++ others)) :
    Accounts outcome jobs (finishTask outcome moves shared task) others := by
  induction moves generalizing shared task with
  | zero =>
      obtain ⟨current, rest⟩ := task
      cases current with
      | some job => simp at hmoves
      | none =>
          have hrest : rest = [] := by simpa using hmoves
          subst hrest
          exact haccounts
  | succ moves ih =>
      refine ih ?_ haccounts.step
      have hle := Task.step_pending_le outcome shared task
      omega

theorem Accounts.finishAll
    {tasks : List (Task α)}
    (haccounts : Accounts outcome jobs shared (tasks.flatMap Task.pending)) :
    Accounts outcome jobs (finishAll outcome shared tasks) [] := by
  induction tasks generalizing shared with
  | nil => exact haccounts
  | cons task tasks ih =>
      refine ih (haccounts.finishTask ?_)
      simp only [Task.pending, List.length_append]
      omega

variable (outcome) in
theorem accounts_runBatches
    (schedule : List ℕ)
    (batches : List (List α)) :
    ∃ shared : Shared ρ ε,
      Accounts outcome batches.flatten shared [] ∧
        runBatches outcome schedule batches =
          match shared.fatal with
          | some error => .error error
          | none => .ok shared.pushed := by
  refine ⟨_, Accounts.finishAll (Accounts.runSteps schedule ?_), rfl⟩
  have hpending : (batches.map Task.start).flatMap Task.pending = batches.flatten := by
    rw [List.flatMap_map, List.flatMap_def]
    congr 1
    exact List.map_id'' (fun _ => rfl) batches
  rw [hpending]
  exact ⟨fun _ => id, fun _ => List.Perm.refl _, fun _ job hjob _ _ => hjob, by simp⟩

/-- A run succeeds exactly when no job fails, whatever the schedule. -/
theorem runBatches_isOk_iff
    (schedule : List ℕ)
    (batches : List (List α)) :
    (∃ results, runBatches outcome schedule batches = .ok results) ↔
      ∀ job ∈ batches.flatten, ∀ error, outcome job ≠ .error error := by
  obtain ⟨shared, haccounts, hrun⟩ := accounts_runBatches outcome schedule batches
  rw [hrun]
  cases hfatal : shared.fatal with
  | none =>
      refine ⟨fun _ job hjob error herror => ?_, fun _ => ⟨_, rfl⟩⟩
      exact absurd (haccounts.failures hfatal job hjob error herror) (by simp)
  | some error =>
      obtain ⟨job, hjob, herror⟩ := haccounts.fatal_mem error hfatal
      refine ⟨by simp, fun hnone => absurd herror (hnone job hjob error)⟩

/-- A successful run pushes what its jobs produce, in some order. -/
theorem perm_of_runBatches_eq_ok
    {schedule : List ℕ}
    {batches : List (List α)}
    {results : List ρ}
    (hrun : runBatches outcome schedule batches = .ok results) :
    results.Perm (batches.flatten.filterMap (produced outcome)) := by
  obtain ⟨shared, haccounts, hshared⟩ := accounts_runBatches outcome schedule batches
  rw [hshared] at hrun
  cases hfatal : shared.fatal with
  | some error => simp [hfatal] at hrun
  | none =>
      simp only [hfatal, Except.ok.injEq] at hrun
      subst hrun
      simpa using haccounts.results hfatal

theorem runBatches_nil
    (schedule : List ℕ) :
    runBatches outcome schedule [] = .ok [] := by
  have hok : ∃ results, runBatches outcome schedule [] = .ok results := by
    rw [runBatches_isOk_iff]
    simp
  obtain ⟨results, hrun⟩ := hok
  have hperm := perm_of_runBatches_eq_ok hrun
  have hnil : results = [] := by simpa using hperm
  rw [hrun, hnil]

end Accounts

/-! ## Jobs under other names -/

section Renaming

variable {α β ρ ε : Type*} (outcome : β → Except ε (Option ρ)) (f : α → β)

theorem Task.step_comp
    (shared : Shared ρ ε)
    (task : Task α) :
    (task.map f).step outcome shared =
      ((task.step (outcome ∘ f) shared).1, (task.step (outcome ∘ f) shared).2.map f) := by
  obtain ⟨current, rest⟩ := task
  cases current with
  | none =>
      cases rest with
      | nil => rfl
      | cons job rest =>
          simp only [Task.step, Task.map, Option.map_none, List.map_cons]
          split <;> rfl
  | some job =>
      simp only [Task.step, Task.map, Option.map_some, Function.comp_apply]
      split <;> rfl

theorem runSteps_comp
    (schedule : List ℕ)
    (shared : Shared ρ ε)
    (tasks : List (Task α)) :
    runSteps outcome schedule shared (tasks.map (Task.map f)) =
      ((runSteps (outcome ∘ f) schedule shared tasks).1,
        (runSteps (outcome ∘ f) schedule shared tasks).2.map (Task.map f)) := by
  induction schedule generalizing shared tasks with
  | nil => rfl
  | cons turn schedule ih =>
      unfold runSteps
      rw [List.getElem?_map]
      cases tasks[turn]? with
      | none => exact ih shared tasks
      | some task =>
          simp only [Option.map_some, Task.step_comp, ← List.map_set]
          exact ih _ _

theorem finishTask_comp
    (moves : ℕ)
    (shared : Shared ρ ε)
    (task : Task α) :
    finishTask outcome moves shared (task.map f) =
      finishTask (outcome ∘ f) moves shared task := by
  induction moves generalizing shared task with
  | zero => rfl
  | succ moves ih =>
      simp only [finishTask, Task.step_comp]
      exact ih _ _

theorem finishAll_comp
    (shared : Shared ρ ε)
    (tasks : List (Task α)) :
    finishAll outcome shared (tasks.map (Task.map f)) =
      finishAll (outcome ∘ f) shared tasks := by
  induction tasks generalizing shared with
  | nil => rfl
  | cons task tasks ih =>
      have hlength : (task.map f).pending.length = task.pending.length := by
        cases hcurrent : task.current <;> simp [Task.map, Task.pending, hcurrent]
      simp only [finishAll, List.map_cons, hlength, finishTask_comp]
      exact ih _

/-- Only the outcomes of the jobs matter for a run, not what the jobs are. -/
theorem runBatches_comp
    (schedule : List ℕ)
    (batches : List (List α)) :
    runBatches outcome schedule (batches.map (List.map f)) =
      runBatches (outcome ∘ f) schedule batches := by
  have htasks : (batches.map (List.map f)).map Task.start =
      (batches.map Task.start).map (Task.map f) := by
    rw [List.map_map, List.map_map]
    rfl
  unfold runBatches
  simp only [htasks, runSteps_comp, finishAll_comp]

end Renaming

/-! ## Who pushes when -/

section PushOrder

variable {α β ρ ε : Type*}

/-- A job of which it is only known whether it pushes. -/
def pushOutcome (pushes : α → Bool) (job : α) : Except Empty (Option α) :=
  .ok (if pushes job then some job else none)

/-- The pushing jobs in the order of their pushes. -/
def pushOrder (pushes : α → Bool) (schedule : List ℕ) (batches : List (List α)) : List α :=
  (runBatches (pushOutcome pushes) schedule batches).toOption.getD []

def Shared.collect (result : α → Option ρ) (shared : Shared α Empty) : Shared ρ ε :=
  ⟨shared.pushed.filterMap result, none⟩

theorem fatal_eq_none
    (shared : Shared α Empty) :
    shared.fatal = none := by
  cases hfatal : shared.fatal with
  | none => rfl
  | some error => exact error.elim

theorem Task.step_pending_subset
    (outcome : α → Except ε (Option ρ))
    (shared : Shared ρ ε)
    (task : Task α) :
    (task.step outcome shared).2.pending ⊆ task.pending := by
  obtain ⟨current, rest⟩ := task
  cases current with
  | none =>
      cases rest with
      | nil => simp [Task.step, Task.pending]
      | cons job rest =>
          simp only [Task.step]
          split <;> simp [Task.pending]
  | some job =>
      simp only [Task.step]
      split <;> simp [Task.pending]

section Collect

variable {outcome : α → Except ε (Option ρ)} {shared : Shared α Empty}

/-- Jobs that do not fail are scheduled by their pushes alone. -/
theorem Task.step_collect
    {task : Task α}
    (hfine : ∀ job ∈ task.pending, ∃ result, outcome job = .ok result) :
    task.step outcome (shared.collect (produced outcome)) =
      ((task.step (pushOutcome fun job => (produced outcome job).isSome) shared).1.collect
          (produced outcome),
        (task.step (pushOutcome fun job => (produced outcome job).isSome) shared).2) := by
  have hfatal := fatal_eq_none shared
  obtain ⟨current, rest⟩ := task
  cases current with
  | none =>
      cases rest with
      | nil => rfl
      | cons job rest => simp [Task.step, Shared.collect, hfatal]
  | some job =>
      obtain ⟨result, hresult⟩ := hfine job (by simp [Task.pending])
      cases result with
      | none => simp [Task.step, Shared.collect, pushOutcome, produced, hresult]
      | some result => simp [Task.step, Shared.collect, pushOutcome, produced, hresult]

variable (shared) in
theorem runSteps_collect
    (schedule : List ℕ)
    {tasks : List (Task α)}
    (hfine : ∀ job ∈ tasks.flatMap Task.pending, ∃ result, outcome job = .ok result) :
    runSteps outcome schedule (shared.collect (produced outcome)) tasks =
      ((runSteps (pushOutcome fun job => (produced outcome job).isSome) schedule shared
          tasks).1.collect (produced outcome),
        (runSteps (pushOutcome fun job => (produced outcome job).isSome) schedule shared
          tasks).2) ∧
      (runSteps (pushOutcome fun job => (produced outcome job).isSome) schedule shared
          tasks).2.flatMap Task.pending ⊆ tasks.flatMap Task.pending := by
  induction schedule generalizing shared tasks with
  | nil => exact ⟨rfl, List.Subset.refl _⟩
  | cons turn schedule ih =>
      unfold runSteps
      cases hturn : tasks[turn]? with
      | none => exact ih _ hfine
      | some task =>
          have hmem : task ∈ tasks := List.mem_of_getElem? hturn
          have htask : ∀ job ∈ task.pending, ∃ result, outcome job = .ok result :=
            fun job hjob => hfine job (List.mem_flatMap.mpr ⟨task, hmem, hjob⟩)
          have hsubset : (tasks.set turn (task.step (pushOutcome fun job =>
              (produced outcome job).isSome) shared).2).flatMap Task.pending ⊆
                tasks.flatMap Task.pending := by
            intro job hjob
            obtain ⟨other, hother, hpending⟩ := List.mem_flatMap.mp hjob
            rcases List.mem_or_eq_of_mem_set hother with hin | rfl
            · exact List.mem_flatMap.mpr ⟨other, hin, hpending⟩
            · exact List.mem_flatMap.mpr
                ⟨task, hmem, Task.step_pending_subset _ shared task hpending⟩
          simp only [Task.step_collect htask]
          obtain ⟨hrun, hleft⟩ := ih _ fun job hjob => hfine job (hsubset hjob)
          exact ⟨hrun, fun job hjob => hsubset (hleft hjob)⟩

theorem finishTask_collect
    (moves : ℕ)
    {task : Task α}
    (hfine : ∀ job ∈ task.pending, ∃ result, outcome job = .ok result) :
    finishTask outcome moves (shared.collect (produced outcome)) task =
      (finishTask (pushOutcome fun job => (produced outcome job).isSome) moves shared
        task).collect (produced outcome) := by
  induction moves generalizing shared task with
  | zero => rfl
  | succ moves ih =>
      simp only [finishTask, Task.step_collect hfine]
      exact ih fun job hjob => hfine job (Task.step_pending_subset _ shared task hjob)

theorem finishAll_collect
    {tasks : List (Task α)}
    (hfine : ∀ job ∈ tasks.flatMap Task.pending, ∃ result, outcome job = .ok result) :
    finishAll outcome (shared.collect (produced outcome)) tasks =
      (finishAll (pushOutcome fun job => (produced outcome job).isSome) shared
        tasks).collect (produced outcome) := by
  induction tasks generalizing shared with
  | nil => rfl
  | cons task tasks ih =>
      have htask : ∀ job ∈ task.pending, ∃ result, outcome job = .ok result :=
        fun job hjob => hfine job (List.mem_append_left _ hjob)
      simp only [finishAll, finishTask_collect _ htask]
      exact ih fun job hjob => hfine job (List.mem_append_right _ hjob)

end Collect

theorem pushOrder_perm
    (pushes : α → Bool)
    (schedule : List ℕ)
    (batches : List (List α)) :
    (pushOrder pushes schedule batches).Perm (batches.flatten.filter pushes) := by
  have hok : ∃ pushed, runBatches (pushOutcome pushes) schedule batches = .ok pushed := by
    rw [runBatches_isOk_iff]
    intro _ _ error
    exact error.elim
  obtain ⟨pushed, hpushed⟩ := hok
  have hperm := perm_of_runBatches_eq_ok hpushed
  have hproduced : produced (pushOutcome pushes) = Option.guard fun job => pushes job := by
    funext job
    simp [produced, pushOutcome, Option.guard]
  rw [hproduced, List.filterMap_eq_filter] at hperm
  rw [pushOrder, hpushed]
  exact hperm

/-- A successful run pushes the results of its jobs in their push order. -/
theorem eq_pushOrder_of_runBatches
    {outcome : β → Except ε (Option ρ)}
    {f : α → β}
    {schedule : List ℕ}
    {batches : List (List α)}
    {results : List ρ}
    (hrun : runBatches outcome schedule (batches.map (List.map f)) = .ok results) :
    results = (pushOrder (fun job => (produced outcome (f job)).isSome) schedule
      batches).filterMap fun job => produced outcome (f job) := by
  rw [runBatches_comp] at hrun
  have hpending : (batches.map Task.start).flatMap Task.pending = batches.flatten := by
    rw [List.flatMap_map, List.flatMap_def]
    congr 1
    exact List.map_id'' (fun _ => rfl) batches
  have hfine : ∀ job ∈ (batches.map Task.start).flatMap Task.pending,
      ∃ result, (outcome ∘ f) job = .ok result := by
    intro job hjob
    rw [hpending] at hjob
    have hnone := (runBatches_isOk_iff schedule _).mp ⟨results, hrun⟩
    cases houtcome : (outcome ∘ f) job with
    | ok result => exact ⟨result, rfl⟩
    | error error => exact absurd houtcome (hnone _ hjob error)
  obtain ⟨hsteps, hleft⟩ := runSteps_collect ⟨[], none⟩ schedule hfine
  have hstart : (⟨[], none⟩ : Shared ρ ε) =
      Shared.collect (produced (outcome ∘ f)) ⟨[], none⟩ := rfl
  unfold runBatches at hrun
  simp only [hstart, hsteps, finishAll_collect fun job hjob => hfine job (hleft hjob)] at hrun
  simp only [pushOrder, runBatches, fatal_eq_none]
  exact (Except.ok.inj hrun).symm

end PushOrder

end BatchScheduler
