import AlkanesIndexer.BatchScheduler

/-!
# Which orders can come about

For both ways of running jobs concurrently: exactly which orders some completion of the
jobs yields.  In a window a job overtakes fewer jobs than fit into the window, and this is
the only limit.  Batches that push to one vector yield exactly their interleavings.
-/

namespace BatchScheduler

/-! ## The orders of a window -/

/-- Behind no job there are `window` smaller ones. -/
def OvertakesFewer (window : ℕ) (order : List ℕ) : Prop :=
  ∀ earlier job later, order = earlier ++ job :: later → later.countP (· < job) < window

section Window

variable {window : ℕ} {pending order : List ℕ} {job : ℕ}

theorem overtakesFewer_cons :
    OvertakesFewer window (job :: order) ↔
      order.countP (· < job) < window ∧ OvertakesFewer window order := by
  constructor
  · intro hfewer
    exact ⟨hfewer [] job order rfl,
      fun earlier other later horder => hfewer (job :: earlier) other later (by simp [horder])⟩
  · rintro ⟨hjob, horder⟩ earlier other later hsplit
    cases earlier with
    | nil =>
        obtain ⟨rfl, rfl⟩ := List.cons.inj hsplit
        exact hjob
    | cons first earlier => exact horder earlier other later (List.cons.inj hsplit).2

theorem overtakesFewer_of_pairwise
    (hwindow : 0 < window)
    (hsorted : order.Pairwise (· < ·)) :
    OvertakesFewer window order := by
  intro earlier job later hsplit
  subst hsplit
  have hlater := (List.pairwise_cons.mp (List.pairwise_append.mp hsorted).2.1).1
  rw [List.countP_eq_zero.mpr fun other hother => by simpa using (hlater other hother).le]
  exact hwindow

/-- In front of a pending job stand exactly the smaller ones. -/
theorem countP_eraseIdx
    (hsorted : pending.Pairwise (· < ·))
    {place : ℕ}
    (hplace : place < pending.length) :
    (pending.eraseIdx place).countP (· < pending[place]) = place := by
  have hsplit : pending = pending.take place ++ pending[place] :: pending.drop (place + 1) := by
    rw [List.getElem_cons_drop, List.take_append_drop]
  obtain ⟨_, hcons, hcross⟩ := List.pairwise_append.mp (hsplit ▸ hsorted)
  have hfront : (pending.take place).countP (· < pending[place]) = place := by
    rw [List.countP_eq_length.mpr fun other hother => by
      simpa using hcross other hother _ List.mem_cons_self]
    exact List.length_take_of_le hplace.le
  have hback : (pending.drop (place + 1)).countP (· < pending[place]) = 0 :=
    List.countP_eq_zero.mpr fun other hother => by
      simpa using ((List.pairwise_cons.mp hcons).1 other hother).le
  rw [List.eraseIdx_eq_take_drop_succ, List.countP_append, hfront, hback, Nat.add_zero]

theorem overtakesFewer_bufferUnordered
    (hwindow : 0 < window)
    (hsorted : pending.Pairwise (· < ·))
    (picks : List ℕ) :
    OvertakesFewer window (bufferUnordered window picks pending) := by
  induction picks generalizing pending with
  | nil => exact overtakesFewer_of_pairwise hwindow hsorted
  | cons pick picks ih =>
      unfold bufferUnordered
      split
      next job hjob =>
        obtain ⟨hplace, rfl⟩ := List.getElem?_eq_some_iff.mp hjob
        have hsmaller := countP_eraseIdx hsorted hplace
        have hinFlight : pick % min window pending.length < window := by
          have hpositive : 0 < min window pending.length := by omega
          have hlt := Nat.mod_lt pick hpositive
          omega
        refine overtakesFewer_cons.mpr ⟨?_, ih (hsorted.sublist (List.eraseIdx_sublist _ _))⟩
        rwa [(bufferUnordered_perm window picks _).countP_eq, hsmaller]
      next => exact overtakesFewer_of_pairwise hwindow hsorted

theorem exists_picks
    (hsorted : pending.Pairwise (· < ·))
    (hperm : order.Perm pending)
    (hfewer : OvertakesFewer window order) :
    ∃ picks, bufferUnordered window picks pending = order := by
  induction order generalizing pending with
  | nil =>
      cases hperm.nil_eq
      exact ⟨[], rfl⟩
  | cons job order ih =>
      obtain ⟨hjob, horder⟩ := overtakesFewer_cons.mp hfewer
      obtain ⟨place, hplace, hget⟩ :=
        List.getElem_of_mem (hperm.mem_iff.mp List.mem_cons_self)
      subst hget
      have hrest : order.Perm (pending.eraseIdx place) :=
        (hperm.trans (List.getElem_cons_eraseIdx_perm hplace).symm).cons_inv
      obtain ⟨picks, hpicks⟩ := ih (hsorted.sublist (List.eraseIdx_sublist _ _)) hrest horder
      rw [hrest.countP_eq, countP_eraseIdx hsorted hplace] at hjob
      have hmod : place % min window pending.length = place :=
        Nat.mod_eq_of_lt (lt_min hjob hplace)
      refine ⟨place :: picks, ?_⟩
      simp only [bufferUnordered, hmod, List.getElem?_eq_getElem hplace, hpicks]

/-- The orders in which jobs can complete in a window. -/
theorem exists_picks_iff
    (hwindow : 0 < window)
    (hsorted : pending.Pairwise (· < ·)) :
    (∃ picks, bufferUnordered window picks pending = order) ↔
      order.Perm pending ∧ OvertakesFewer window order := by
  constructor
  · rintro ⟨picks, rfl⟩
    exact ⟨bufferUnordered_perm window picks pending,
      overtakesFewer_bufferUnordered hwindow hsorted picks⟩
  · rintro ⟨hperm, hfewer⟩
    exact exists_picks hsorted hperm hfewer

end Window

/-! ## The orders of the batches -/

variable {α : Type*}

/-- The second list takes the entries of the batches one by one, each time the first entry
of some batch. -/
inductive Interleaving : List (List α) → List α → Prop where
  | done
      {batches : List (List α)}
      (hempty : ∀ batch ∈ batches, batch = []) :
      Interleaving batches []
  | next
      {batches : List (List α)}
      {order : List α}
      (turn : ℕ)
      (job : α)
      (rest : List α)
      (hturn : batches[turn]? = some (job :: rest))
      (horder : Interleaving (batches.set turn rest) order) :
      Interleaving batches (job :: order)

/-- The jobs of a task that are still to be pushed. -/
def Task.unpushed (pushes : α → Bool) (task : Task α) : List α := task.pending.filter pushes

section Pushes

variable
  {pushes : α → Bool}
  {shared : Shared α Empty}
  {task : Task α}
  {tasks : List (Task α)}
  {batches : List (List α)}
  {order : List α}

theorem set_self
    {turn : ℕ}
    {entry : List α}
    (hturn : batches[turn]? = some entry) :
    batches.set turn entry = batches := by
  obtain ⟨hlt, rfl⟩ := List.getElem?_eq_some_iff.mp hturn
  exact List.set_getElem_self hlt

variable (pushes) in
/-- A move of a task pushes nothing, or the first of the jobs it has to push. -/
theorem step_pushes
    (shared : Shared α Empty)
    (task : Task α) :
    ((task.step (pushOutcome pushes) shared).1 = shared ∧
        (task.step (pushOutcome pushes) shared).2.unpushed pushes = task.unpushed pushes) ∨
      ∃ job, (task.step (pushOutcome pushes) shared).1.pushed = shared.pushed ++ [job] ∧
        task.unpushed pushes =
          job :: (task.step (pushOutcome pushes) shared).2.unpushed pushes := by
  have hfatal := fatal_eq_none shared
  obtain ⟨current, rest⟩ := task
  cases current with
  | none =>
      cases rest with
      | nil => exact .inl ⟨rfl, rfl⟩
      | cons job rest => simp [Task.step, Task.unpushed, Task.pending, hfatal]
  | some job =>
      cases hpushes : pushes job <;>
        simp [Task.step, Task.unpushed, Task.pending, pushOutcome, hpushes]

theorem finishTask_pushes
    {moves : ℕ}
    (hmoves : 2 * task.rest.length + task.current.toList.length ≤ moves) :
    (finishTask (pushOutcome pushes) moves shared task).pushed =
      shared.pushed ++ task.unpushed pushes := by
  induction moves generalizing shared task with
  | zero =>
      obtain ⟨current, rest⟩ := task
      cases current with
      | some job => simp at hmoves
      | none =>
          have hrest : rest = [] := by simpa using hmoves
          subst hrest
          simp [finishTask, Task.unpushed, Task.pending]
  | succ moves ih =>
      have hle := Task.step_pending_le (pushOutcome pushes) shared task
      rw [finishTask, ih (by omega)]
      rcases step_pushes pushes shared task with ⟨hshared, hleft⟩ | ⟨job, hpushed, hleft⟩
      · rw [hshared, hleft]
      · rw [hpushed, hleft, List.append_assoc, List.singleton_append]

theorem finishAll_pushes :
    (finishAll (pushOutcome pushes) shared tasks).pushed =
      shared.pushed ++ (tasks.map (Task.unpushed pushes)).flatten := by
  induction tasks generalizing shared with
  | nil => simp [finishAll]
  | cons task tasks ih =>
      have hmoves : 2 * task.rest.length + task.current.toList.length ≤
          2 * task.pending.length := by
        simp only [Task.pending, List.length_append]
        omega
      rw [finishAll, ih, finishTask_pushes hmoves, List.map_cons, List.flatten_cons,
        List.append_assoc]

theorem Interleaving.cons_nil
    (hinterleaving : Interleaving batches order) :
    Interleaving ([] :: batches) order := by
  induction hinterleaving with
  | done hempty => exact .done (List.forall_mem_cons.mpr ⟨rfl, hempty⟩)
  | next turn job rest hturn _ ih => exact .next (turn + 1) job rest hturn ih

theorem Interleaving.cons
    (hinterleaving : Interleaving batches order)
    (batch : List α) :
    Interleaving (batch :: batches) (batch ++ order) := by
  induction batch with
  | nil => exact hinterleaving.cons_nil
  | cons job rest ih => exact .next 0 job rest rfl ih

theorem Interleaving.perm
    (hinterleaving : Interleaving batches order) :
    order.Perm batches.flatten := by
  induction hinterleaving with
  | done hempty => rw [List.flatten_eq_nil_iff.mpr hempty]
  | @next batches order turn job rest hturn _ ih =>
      obtain ⟨hlt, hbatch⟩ := List.getElem?_eq_some_iff.mp hturn
      obtain ⟨earlier, later, hsplit, _, hset⟩ : ∃ earlier later,
          batches = earlier ++ batches[turn] :: later ∧ earlier.length = turn ∧
            batches.set turn rest = earlier ++ rest :: later :=
        List.exists_of_set hlt
      rw [hset] at ih
      rw [hsplit, hbatch]
      simp only [List.flatten_append, List.flatten_cons, List.cons_append] at ih ⊢
      exact (ih.cons job).trans List.perm_middle.symm

theorem interleaving_zip
    {first second : List α}
    (hlength : first.length = second.length) :
    Interleaving [first, second] ((first.zip second).flatMap fun turn => [turn.1, turn.2]) := by
  induction first generalizing second with
  | nil =>
      obtain rfl := List.length_eq_zero_iff.mp hlength.symm
      exact .done (by simp)
  | cons job rest ih =>
      obtain ⟨other, others, rfl⟩ :=
        List.exists_cons_of_length_eq_add_one (hlength.symm.trans List.length_cons)
      rw [List.zip_cons_cons, List.flatMap_cons]
      exact .next 0 job rest rfl (.next 1 other others rfl (ih (Nat.succ.inj hlength)))

/-- One batch after the other is one of the interleavings. -/
theorem interleaving_flatten
    (batches : List (List α)) :
    Interleaving batches batches.flatten := by
  induction batches with
  | nil => exact .done nofun
  | cons batch batches ih => exact ih.cons batch

variable (pushes) in
theorem interleaving_of_runSteps
    (schedule : List ℕ)
    (shared : Shared α Empty)
    (tasks : List (Task α)) :
    ∃ order, Interleaving (tasks.map (Task.unpushed pushes)) order ∧
      (finishAll (pushOutcome pushes) (runSteps (pushOutcome pushes) schedule shared tasks).1
        (runSteps (pushOutcome pushes) schedule shared tasks).2).pushed =
          shared.pushed ++ order := by
  induction schedule generalizing shared tasks with
  | nil => exact ⟨_, interleaving_flatten _, finishAll_pushes⟩
  | cons turn schedule ih =>
      rw [runSteps]
      cases hturn : tasks[turn]? with
      | none => exact ih shared tasks
      | some task =>
          obtain ⟨order, horder, hpushed⟩ := ih (task.step (pushOutcome pushes) shared).1
            (tasks.set turn (task.step (pushOutcome pushes) shared).2)
          have hbatch : (tasks.map (Task.unpushed pushes))[turn]? =
              some (task.unpushed pushes) := by
            rw [List.getElem?_map, hturn]
            rfl
          rw [List.map_set] at horder
          rcases step_pushes pushes shared task with ⟨hshared, hleft⟩ | ⟨job, hjob, hleft⟩
          · rw [hleft, set_self hbatch] at horder
            refine ⟨order, horder, hpushed.trans ?_⟩
            rw [hshared]
          · rw [hleft] at hbatch
            refine ⟨job :: order, .next turn job _ hbatch horder, hpushed.trans ?_⟩
            rw [hjob, List.append_assoc, List.singleton_append]

variable (shared) in
/-- A task gets to its next push by moves of its own. -/
theorem exists_moves
    {turn : ℕ}
    {job : α}
    {rest : List α}
    (hturn : tasks[turn]? = some task)
    (hunpushed : task.unpushed pushes = job :: rest) :
    ∃ moves shared' task', runSteps (pushOutcome pushes) (List.replicate moves turn) shared tasks =
        (shared', tasks.set turn task') ∧
      shared'.pushed = shared.pushed ++ [job] ∧ task'.unpushed pushes = rest := by
  obtain ⟨left, hleft⟩ : ∃ left, 2 * task.rest.length + task.current.toList.length = left :=
    ⟨_, rfl⟩
  induction left using Nat.strong_induction_on generalizing shared task tasks with
  | _ left ih =>
      have hlt := (List.getElem?_eq_some_iff.mp hturn).1
      have hle := Task.step_pending_le (pushOutcome pushes) shared task
      have hmove : ∀ moves, runSteps (pushOutcome pushes) (List.replicate (moves + 1) turn) shared
          tasks = runSteps (pushOutcome pushes) (List.replicate moves turn)
            (task.step (pushOutcome pushes) shared).1
            (tasks.set turn (task.step (pushOutcome pushes) shared).2) := by
        intro moves
        rw [List.replicate_succ, runSteps, hturn]
      rcases step_pushes pushes shared task with ⟨hshared, hsame⟩ | ⟨first, hpushed, hfirst⟩
      · have hpositive : left ≠ 0 := by
          rintro rfl
          have hnil : task.pending = [] := List.length_eq_zero_iff.mp (by
            simp only [Task.pending, List.length_append]
            omega)
          simp [Task.unpushed, hnil] at hunpushed
        obtain ⟨moves, shared', task', hmoves, hrest⟩ := ih _ (by omega) _
          (List.getElem?_set_self hlt) (hsame.trans hunpushed) rfl
        refine ⟨moves + 1, shared', task', ?_, hrest⟩
        rw [hmove, hshared, hmoves, List.set_set]
      · rw [hfirst] at hunpushed
        obtain ⟨rfl, rfl⟩ := List.cons.inj hunpushed
        exact ⟨1, _, _, hmove 0, hpushed, rfl⟩

theorem runSteps_append
    (schedule schedule' : List ℕ)
    (shared : Shared α Empty)
    (tasks : List (Task α)) :
    runSteps (pushOutcome pushes) (schedule ++ schedule') shared tasks =
      runSteps (pushOutcome pushes) schedule'
        (runSteps (pushOutcome pushes) schedule shared tasks).1
        (runSteps (pushOutcome pushes) schedule shared tasks).2 := by
  induction schedule generalizing shared tasks with
  | nil => rfl
  | cons turn schedule ih =>
      rw [List.cons_append, runSteps, runSteps]
      cases tasks[turn]? with
      | none => exact ih shared tasks
      | some task => exact ih _ _

variable (shared) in
theorem exists_schedule
    (hinterleaving : Interleaving batches order)
    (hbatches : tasks.map (Task.unpushed pushes) = batches) :
    ∃ schedule, (finishAll (pushOutcome pushes)
        (runSteps (pushOutcome pushes) schedule shared tasks).1
        (runSteps (pushOutcome pushes) schedule shared tasks).2).pushed =
      shared.pushed ++ order := by
  induction hinterleaving generalizing shared tasks with
  | done hempty =>
      refine ⟨[], ?_⟩
      have hnothing : (tasks.map (Task.unpushed pushes)).flatten = [] := by
        rw [hbatches, List.flatten_eq_nil_iff]
        exact hempty
      rw [runSteps, finishAll_pushes, hnothing]
  | next turn job rest hturn _ ih =>
      subst hbatches
      rw [List.getElem?_map] at hturn
      obtain ⟨task, htask, hunpushed⟩ := Option.map_eq_some_iff.mp hturn
      obtain ⟨moves, shared', task', hmoves, hpushed, hleft⟩ :=
        exists_moves shared htask hunpushed
      have hset : (tasks.set turn task').map (Task.unpushed pushes) =
          (tasks.map (Task.unpushed pushes)).set turn rest := by
        rw [List.map_set, hleft]
      obtain ⟨schedule, hschedule⟩ := ih shared' hset
      refine ⟨List.replicate moves turn ++ schedule, ?_⟩
      rw [runSteps_append, hmoves]
      rw [hschedule, hpushed, List.append_assoc, List.singleton_append]

/-- The orders in which the jobs of the batches can be pushed. -/
theorem exists_schedule_iff :
    (∃ schedule, pushOrder pushes schedule batches = order) ↔
      Interleaving (batches.map (List.filter pushes)) order := by
  have hstart : (batches.map Task.start).map (Task.unpushed pushes) =
      batches.map (List.filter pushes) := by
    rw [List.map_map]
    rfl
  have hpushed : ∀ schedule, pushOrder pushes schedule batches =
      (finishAll (pushOutcome pushes)
        (runSteps (pushOutcome pushes) schedule ⟨[], none⟩ (batches.map Task.start)).1
        (runSteps (pushOutcome pushes) schedule ⟨[], none⟩ (batches.map Task.start)).2).pushed := by
    intro schedule
    simp only [pushOrder, runBatches, fatal_eq_none]
    rfl
  constructor
  · rintro ⟨schedule, rfl⟩
    obtain ⟨order, horder, hrun⟩ :=
      interleaving_of_runSteps pushes schedule ⟨[], none⟩ (batches.map Task.start)
    rw [hpushed, hrun, ← hstart]
    exact horder
  · intro hinterleaving
    obtain ⟨schedule, hschedule⟩ :=
      exists_schedule ⟨[], none⟩ hinterleaving hstart
    exact ⟨schedule, (hpushed schedule).trans hschedule⟩

end Pushes

end BatchScheduler
