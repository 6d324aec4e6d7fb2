import Mathlib.Data.List.Perm.Basic
import Mathlib.Tactic

/-!
# Row versions under READ COMMITTED

A table as a list of row versions.  A statement sees what was committed before
it starts, and what its own transaction has done: an insert adds versions which
the others see after the commit, and a delete marks the versions it sees.  A row
is live once its creator has committed, unless a transaction that marked it has
committed too.

A version is never changed by anything but deletes that see it, so the fate of
each can be followed through a schedule on its own.  The last section does so for
two transactions that replace the same rows.  A delete which finds a version
already marked would wait in Postgres for the other transaction to end; as the
mark stays either way, it may mark at once.
-/

namespace RowVersions

variable {ρ X : Type*} [DecidableEq X]

/-! ## Statements and stores -/

inductive Statement (ρ : Type*) where
  | delete (matching : ρ → Bool)
  | insert (rows : List ρ)
  | commit

structure Version (ρ X : Type*) where
  row : ρ
  createdBy : Option X
  deletedBy : List X

def Version.fresh (session : X) (row : ρ) : Version ρ X := ⟨row, some session, []⟩

def Version.prior (row : ρ) : Version ρ X := ⟨row, none, []⟩

/-- The creator of a version is among the committed sessions. -/
def Version.settled (committed : List X) (version : Version ρ X) : Bool :=
  version.createdBy.all fun creator => creator ∈ committed

def Version.live (committed : List X) (version : Version ρ X) : Bool :=
  version.settled committed && version.deletedBy.all fun deleter => deleter ∉ committed

/-- What a statement of the given session sees. -/
def Version.visible (committed : List X) (session : X) (version : Version ρ X) : Bool :=
  version.live (session :: committed)

def Version.mark
    (committed : List X)
    (session : X)
    (matching : ρ → Bool)
    (version : Version ρ X) : Version ρ X :=
  if matching version.row && version.visible committed session then
    { version with deletedBy := session :: version.deletedBy }
  else version

structure Store (ρ X : Type*) where
  versions : List (Version ρ X)
  committed : List X

def Store.start (rows : List ρ) : Store ρ X := ⟨rows.map Version.prior, []⟩

def Store.step (store : Store ρ X) : X × Statement ρ → Store ρ X
  | (session, .delete matching) =>
      { store with
        versions := store.versions.map (Version.mark store.committed session matching) }
  | (session, .insert rows) =>
      { store with versions := store.versions ++ rows.map (Version.fresh session) }
  | (session, .commit) => { store with committed := session :: store.committed }

def Store.run (store : Store ρ X) (schedule : List (X × Statement ρ)) : Store ρ X :=
  schedule.foldl Store.step store

def Store.liveRows (store : Store ρ X) : List ρ :=
  (store.versions.filter (Version.live store.committed)).map Version.row

/-! ## The fate of one version -/

/-- Whether a version is live when the schedule has run. -/
def survives : List X → List (X × Statement ρ) → Version ρ X → Bool
  | committed, [], version => version.live committed
  | committed, (session, .delete matching) :: rest, version =>
      survives committed rest (version.mark committed session matching)
  | committed, (_, .insert _) :: rest, version => survives committed rest version
  | committed, (session, .commit) :: rest, version =>
      survives (session :: committed) rest version

def insertedSurvivors : List X → List (X × Statement ρ) → List ρ
  | _, [] => []
  | committed, (_, .delete _) :: rest => insertedSurvivors committed rest
  | committed, (session, .insert rows) :: rest =>
      (rows.filter fun row => survives committed rest (.fresh session row)) ++
        insertedSurvivors committed rest
  | committed, (session, .commit) :: rest => insertedSurvivors (session :: committed) rest

@[simp]
theorem mark_row
    (committed : List X)
    (session : X)
    (matching : ρ → Bool)
    (version : Version ρ X) :
    (version.mark committed session matching).row = version.row := by
  unfold Version.mark
  split <;> rfl

/-- The live rows after a schedule are the versions that survive it. -/
theorem liveRows_run
    (store : Store ρ X)
    (schedule : List (X × Statement ρ)) :
    (store.run schedule).liveRows =
      (store.versions.filter (survives store.committed schedule)).map Version.row ++
        insertedSurvivors store.committed schedule := by
  induction schedule generalizing store with
  | nil => simp [Store.run, Store.liveRows, survives, insertedSurvivors]
  | cons event rest ih =>
      obtain ⟨session, statement⟩ := event
      change ((store.step (session, statement)).run rest).liveRows = _
      rw [ih]
      cases statement with
      | delete matching =>
          simp only [Store.step, insertedSurvivors, List.filter_map, List.map_map]
          congr 1
          refine List.map_congr_left fun version _ => ?_
          simp
      | insert rows =>
          simp only [Store.step, insertedSurvivors, List.filter_append, List.map_append,
            List.filter_map, List.map_map, List.append_assoc]
          congr 2
          exact List.map_id _
      | commit => rfl

/-! ## Orderly schedules -/

/-- Every session deletes before it inserts and ends with its commit. -/
structure Orderly (schedule : List (X × Statement ρ)) : Prop where
  delete_ends : ∀ before session matching after,
    schedule = before ++ (session, .delete matching) :: after → (session, .commit) ∈ after
  insert_ends : ∀ before session rows after,
    schedule = before ++ (session, .insert rows) :: after →
      (session, .commit) ∈ after ∧ ∀ matching, (session, .delete matching) ∉ after
  commit_last : ∀ before session after,
    schedule = before ++ (session, .commit) :: after → ∀ statement, (session, statement) ∉ after

omit [DecidableEq X] in
theorem Orderly.tail
    {event : X × Statement ρ}
    {rest : List (X × Statement ρ)}
    (horderly : Orderly (event :: rest)) :
    Orderly rest where
  delete_ends := fun before session matching after heq =>
    horderly.delete_ends (event :: before) session matching after (by rw [heq]; rfl)
  insert_ends := fun before session rows after heq =>
    horderly.insert_ends (event :: before) session rows after (by rw [heq]; rfl)
  commit_last := fun before session after heq =>
    horderly.commit_last (event :: before) session after (by rw [heq]; rfl)

theorem survives_eq_false_of_marked
    {committed : List X}
    {schedule : List (X × Statement ρ)}
    {version : Version ρ X}
    {deleter : X}
    (hmarked : deleter ∈ version.deletedBy)
    (hcommits : deleter ∈ committed ∨ (deleter, .commit) ∈ schedule) :
    survives committed schedule version = false := by
  induction schedule generalizing committed version with
  | nil =>
      have hmem : deleter ∈ committed := by simpa using hcommits
      simp only [survives, Version.live, Bool.and_eq_false_iff]
      right
      rw [List.all_eq_false]
      exact ⟨deleter, hmarked, by simp [hmem]⟩
  | cons event rest ih =>
      obtain ⟨session, statement⟩ := event
      cases statement with
      | delete matching =>
          refine ih ?_ (by simpa using hcommits)
          unfold Version.mark
          split
          · exact List.mem_cons_of_mem session hmarked
          · exact hmarked
      | insert rows => exact ih hmarked (by simpa using hcommits)
      | commit =>
          refine ih hmarked ?_
          rcases hcommits with hmem | hmem
          · exact Or.inl (List.mem_cons_of_mem session hmem)
          · rcases List.mem_cons.mp hmem with heq | hmem
            · left
              rw [(Prod.mk.inj heq).1]
              exact List.mem_cons_self
            · exact Or.inr hmem

/-- A settled version which every delete matches survives when there is no
delete left. -/
theorem survives_settled_iff
    {committed : List X}
    {schedule : List (X × Statement ρ)}
    {version : Version ρ X}
    (horderly : Orderly schedule)
    (hsettled : version.settled committed = true)
    (hunmarked : version.deletedBy = [])
    (hmatching : ∀ session matching, (session, .delete matching) ∈ schedule →
      matching version.row = true) :
    survives committed schedule version = true ↔
      ∀ session matching, (session, .delete matching) ∉ schedule := by
  induction schedule generalizing committed with
  | nil => simp [survives, Version.live, hsettled, hunmarked]
  | cons event rest ih =>
      obtain ⟨session, statement⟩ := event
      have hrest : ∀ other matching, (other, .delete matching) ∈ rest →
          matching version.row = true := fun other matching hmem =>
        hmatching other matching (List.mem_cons_of_mem _ hmem)
      cases statement with
      | delete matching =>
          have hmatch := hmatching session matching List.mem_cons_self
          have hvisible : version.visible committed session = true := by
            simp only [Version.settled, Option.all_eq_true] at hsettled
            simp only [Version.visible, Version.live, Version.settled, hunmarked,
              List.all_nil, Bool.and_true, Option.all_eq_true]
            intro creator hcreator
            simpa using Or.inr (by simpa using hsettled creator hcreator)
          have hcommit := horderly.delete_ends [] session matching rest rfl
          have hlost : survives committed rest (version.mark committed session matching) =
              false := by
            refine survives_eq_false_of_marked ?_ (Or.inr hcommit)
            · simp [Version.mark, hmatch, hvisible]
          simp only [survives, hlost, Bool.false_eq_true, false_iff, not_forall, not_not]
          exact ⟨session, matching, List.mem_cons_self⟩
      | insert rows =>
          simp only [survives, ih horderly.tail hsettled hrest, List.mem_cons]
          simp
      | commit =>
          have hsettled' : version.settled (session :: committed) = true := by
            simp only [Version.settled, Option.all_eq_true] at hsettled ⊢
            intro creator hcreator
            simpa using Or.inr (by simpa using hsettled creator hcreator)
          simp only [survives, ih horderly.tail hsettled' hrest, List.mem_cons]
          simp

/-! ## Deletes after a commit -/

def Statement.isDelete : Statement ρ → Bool
  | .delete _ => true
  | _ => false

/-- Some delete starts after the commit of the session. -/
def overtaken (session : X) : List (X × Statement ρ) → Bool
  | [] => false
  | (other, .commit) :: rest =>
      (other = session && rest.any fun event => event.2.isDelete) || overtaken session rest
  | (_, .delete _) :: rest | (_, .insert _) :: rest => overtaken session rest

omit [DecidableEq X] in
theorem any_isDelete_eq_false_iff
    {schedule : List (X × Statement ρ)} :
    (schedule.any fun event => event.2.isDelete) = false ↔
      ∀ session matching, (session, .delete matching) ∉ schedule := by
  rw [List.any_eq_false]
  constructor
  · intro hnone session matching hmem
    exact hnone _ hmem rfl
  · rintro hnone ⟨session, statement⟩ hmem hdelete
    cases statement with
    | delete matching => exact hnone session matching hmem
    | insert rows => cases hdelete
    | commit => cases hdelete

theorem overtaken_eq_false_of_not_mem
    {session : X}
    {schedule : List (X × Statement ρ)}
    (hnot : (session, .commit) ∉ schedule) :
    overtaken session schedule = false := by
  induction schedule with
  | nil => rfl
  | cons event rest ih =>
      obtain ⟨other, statement⟩ := event
      have hrest := ih fun hmem => hnot (List.mem_cons_of_mem _ hmem)
      cases statement with
      | delete matching => exact hrest
      | insert rows => exact hrest
      | commit =>
          have hne : other ≠ session := fun heq => hnot (by simp [heq])
          simp [overtaken, hne, hrest]

theorem overtaken_eq_false_of_own
    {schedule : List (X × Statement ρ)}
    {session : X}
    (horderly : Orderly schedule)
    (hown : ∀ other matching, (other, .delete matching) ∈ schedule → other = session) :
    overtaken session schedule = false := by
  induction schedule with
  | nil => rfl
  | cons event rest ih =>
      obtain ⟨other, statement⟩ := event
      have hrest := ih horderly.tail fun other matching hmem =>
        hown other matching (List.mem_cons_of_mem _ hmem)
      cases statement with
      | delete matching => exact hrest
      | insert rows => exact hrest
      | commit =>
          by_cases heq : other = session
          · subst heq
            have hnone : (rest.any fun event => event.2.isDelete) = false := by
              rw [any_isDelete_eq_false_iff]
              intro deleter matching hmem
              have hdeleter := hown deleter matching (List.mem_cons_of_mem _ hmem)
              subst hdeleter
              exact horderly.commit_last [] deleter rest rfl _ hmem
            simp [overtaken, hnone, hrest]
          · simp [overtaken, heq, hrest]

theorem overtaken_asymm
    {schedule : List (X × Statement ρ)}
    {first second : X}
    (hne : first ≠ second)
    (horderly : Orderly schedule)
    (htwo : ∀ event ∈ schedule, event.1 = first ∨ event.1 = second)
    (hfirst : overtaken first schedule = true) :
    overtaken second schedule = false := by
  induction schedule with
  | nil => rfl
  | cons event rest ih =>
      obtain ⟨other, statement⟩ := event
      have htwo' : ∀ event ∈ rest, event.1 = first ∨ event.1 = second :=
        fun event hmem => htwo event (List.mem_cons_of_mem _ hmem)
      cases statement with
      | delete matching => exact ih horderly.tail htwo' hfirst
      | insert rows => exact ih horderly.tail htwo' hfirst
      | commit =>
          have hdone := horderly.commit_last [] other rest rfl
          have hlater : ∀ {session}, session ≠ other →
              (∀ event ∈ rest, event.1 = other ∨ event.1 = session) →
                overtaken session rest = false := by
            intro session hne hrest
            apply overtaken_eq_false_of_own horderly.tail
            intro deleter matching hmem
            rcases hrest _ hmem with heq | heq
            · cases heq
              exact absurd hmem (hdone _)
            · exact heq
          rcases htwo _ List.mem_cons_self with heq | heq
          · have hother : other = first := heq
            subst hother
            simp [overtaken, hne, hlater hne.symm htwo']
          · have hother : other = second := heq
            subst hother
            have hfalse := hlater hne fun event hmem => (htwo' event hmem).symm
            simp [overtaken, hne.symm, hfalse] at hfirst

/-- An uncommitted version which every delete matches survives when no delete
starts after the commit of its creator. -/
theorem survives_fresh_iff
    {committed : List X}
    {schedule : List (X × Statement ρ)}
    {session : X}
    {row : ρ}
    (horderly : Orderly schedule)
    (hopen : session ∉ committed)
    (hcommits : (session, .commit) ∈ schedule)
    (hdeleted : ∀ matching, (session, .delete matching) ∉ schedule)
    (hmatching : ∀ other matching, (other, .delete matching) ∈ schedule →
      matching row = true) :
    survives committed schedule (.fresh session row) = true ↔
      overtaken session schedule = false := by
  induction schedule generalizing committed with
  | nil => simp at hcommits
  | cons event rest ih =>
      obtain ⟨other, statement⟩ := event
      have hdeleted' : ∀ matching, (session, .delete matching) ∉ rest := fun matching hmem =>
        hdeleted matching (List.mem_cons_of_mem _ hmem)
      have hmatching' : ∀ other matching, (other, .delete matching) ∈ rest →
          matching row = true := fun other matching hmem =>
        hmatching other matching (List.mem_cons_of_mem _ hmem)
      cases statement with
      | delete matching =>
          have hne : other ≠ session := by
            rintro rfl
            exact hdeleted matching List.mem_cons_self
          have hhidden : (Version.fresh session row).mark committed other matching =
              .fresh session row := by
            simp [Version.mark, Version.visible, Version.live, Version.settled,
              Version.fresh, hopen, hne.symm]
          simp only [survives, hhidden, overtaken]
          exact ih horderly.tail hopen (by simpa using hcommits) hdeleted' hmatching'
      | insert rows =>
          exact ih horderly.tail hopen (by simpa using hcommits) hdeleted' hmatching'
      | commit =>
          by_cases heq : other = session
          · subst heq
            have hdone := horderly.commit_last [] other rest rfl
            have hlater := overtaken_eq_false_of_not_mem (hdone .commit)
            have hsettled : (Version.fresh other row).settled (other :: committed) = true := by
              simp [Version.settled, Version.fresh]
            have hiff := survives_settled_iff horderly.tail hsettled rfl hmatching'
            rw [← any_isDelete_eq_false_iff] at hiff
            simpa [survives, overtaken, hlater] using hiff
          · have hopen' : session ∉ other :: committed := by
              simp [hopen, Ne.symm heq]
            have hcommits' : (session, .commit) ∈ rest := by
              rcases List.mem_cons.mp hcommits with hhead | hmem
              · exact absurd (Prod.mk.inj hhead).1.symm heq
              · exact hmem
            simp only [survives, overtaken, heq, decide_false, Bool.false_and, Bool.false_or]
            exact ih horderly.tail hopen' hcommits' hdeleted' hmatching'

def Statement.insertedRows : Statement ρ → List ρ
  | .insert rows => rows
  | _ => []

/-- The rows a schedule inserts for the sessions that are kept. -/
def insertedRows (kept : X → Bool) (schedule : List (X × Statement ρ)) : List ρ :=
  schedule.flatMap fun event => if kept event.1 then event.2.insertedRows else []

omit [DecidableEq X] in
theorem insertedRows_cons_of_nil
    {kept : X → Bool}
    {event : X × Statement ρ}
    {rest : List (X × Statement ρ)}
    (hnil : event.2.insertedRows = []) :
    insertedRows kept (event :: rest) = insertedRows kept rest := by
  simp [insertedRows, hnil]

omit [DecidableEq X] in
theorem insertedRows_congr
    {kept kept' : X → Bool}
    {schedule : List (X × Statement ρ)}
    (hsame : ∀ session rows, (session, .insert rows) ∈ schedule →
      kept session = kept' session) :
    insertedRows kept schedule = insertedRows kept' schedule := by
  unfold insertedRows
  rw [List.flatMap_def, List.flatMap_def]
  congr 1
  refine List.map_congr_left ?_
  rintro ⟨session, statement⟩ hmem
  cases statement with
  | delete matching => simp [Statement.insertedRows]
  | commit => simp [Statement.insertedRows]
  | insert rows => simp [hsame session rows hmem]

theorem insertedSurvivors_eq
    {committed : List X}
    {schedule : List (X × Statement ρ)}
    (horderly : Orderly schedule)
    (hopen : ∀ session rows, (session, .insert rows) ∈ schedule → session ∉ committed)
    (hmatching : ∀ session rows other matching, (session, .insert rows) ∈ schedule →
      (other, .delete matching) ∈ schedule → ∀ row ∈ rows, matching row = true) :
    insertedSurvivors committed schedule =
      insertedRows (fun session => !overtaken session schedule) schedule := by
  induction schedule generalizing committed with
  | nil => rfl
  | cons event rest ih =>
      obtain ⟨session, statement⟩ := event
      have hopen' : ∀ other rows, (other, .insert rows) ∈ rest → other ∉ committed :=
        fun other rows hmem => hopen other rows (List.mem_cons_of_mem _ hmem)
      have hmatching' : ∀ first rows other matching, (first, .insert rows) ∈ rest →
          (other, .delete matching) ∈ rest → ∀ row ∈ rows, matching row = true :=
        fun first rows other matching hinsert hdelete =>
          hmatching first rows other matching (List.mem_cons_of_mem _ hinsert)
            (List.mem_cons_of_mem _ hdelete)
      cases statement with
      | delete matching =>
          rw [insertedRows_cons_of_nil rfl]
          exact ih horderly.tail hopen' hmatching'
      | insert rows =>
          obtain ⟨hcommits, hdeleted⟩ := horderly.insert_ends [] session rows rest rfl
          have hhead : rows.filter (fun row =>
              survives committed rest (.fresh session row)) =
                if !overtaken session rest then rows else [] := by
            have hfate : ∀ row ∈ rows, survives committed rest (.fresh session row) =
                !overtaken session rest := by
              intro row hrow
              rw [Bool.eq_iff_iff, survives_fresh_iff horderly.tail
                (hopen session rows List.mem_cons_self) hcommits hdeleted
                fun other matching hmem => hmatching session rows other matching
                  List.mem_cons_self (List.mem_cons_of_mem _ hmem) row hrow]
              simp
            rw [List.filter_congr hfate]
            cases overtaken session rest <;> simp
          simp only [insertedSurvivors, hhead, ih horderly.tail hopen' hmatching']
          rfl
      | commit =>
          have hdone := horderly.commit_last [] session rest rfl
          have hother : ∀ other rows, (other, .insert rows) ∈ rest → other ≠ session := by
            rintro other rows hmem rfl
            exact hdone _ hmem
          have hopen'' : ∀ other rows, (other, .insert rows) ∈ rest →
              other ∉ session :: committed := by
            intro other rows hmem
            simp [hother other rows hmem, hopen' other rows hmem]
          simp only [insertedSurvivors, ih horderly.tail hopen'' hmatching']
          rw [insertedRows_cons_of_nil rfl]
          apply insertedRows_congr
          intro other rows hmem
          simp [overtaken, (hother other rows hmem).symm]

/-- What a schedule of replacements leaves of the rows which every delete
matches: the prior ones if nothing is deleted at all, and of each session what it
inserts unless some delete starts after its commit. -/
theorem filter_liveRows_run
    {prior : List ρ}
    {schedule : List (X × Statement ρ)}
    (matched : ρ → Bool)
    (horderly : Orderly schedule)
    (hinserted : ∀ session rows, (session, .insert rows) ∈ schedule →
      ∀ row ∈ rows, matched row = true)
    (hmatching : ∀ session matching, (session, .delete matching) ∈ schedule →
      ∀ row, matched row = true → matching row = true) :
    (((Store.start prior).run schedule).liveRows).filter matched =
      (if schedule.any fun event => event.2.isDelete then [] else prior.filter matched) ++
        insertedRows (fun session => !overtaken session schedule) schedule := by
  have hpairs : ∀ session rows other matching, (session, .insert rows) ∈ schedule →
      (other, .delete matching) ∈ schedule → ∀ row ∈ rows, matching row = true :=
    fun session rows other matching hinsert hdelete row hrow =>
      hmatching other matching hdelete row (hinserted session rows hinsert row hrow)
  rw [liveRows_run, insertedSurvivors_eq horderly (by simp [Store.start]) hpairs,
    List.filter_append]
  congr 1
  · have hfate : ∀ row, matched row = true →
        survives ([] : List X) schedule (.prior row) =
          !(schedule.any fun event => event.2.isDelete) := by
      intro row hrow
      have hiff : survives ([] : List X) schedule (.prior row) = true ↔
          ∀ session matching, (session, .delete matching) ∉ schedule :=
        survives_settled_iff horderly rfl rfl
          fun session matching hmem => hmatching session matching hmem row hrow
      rw [← any_isDelete_eq_false_iff] at hiff
      rw [Bool.eq_iff_iff, hiff]
      simp
    change (((prior.map Version.prior).filter (survives [] schedule)).map
      Version.row).filter matched = _
    have hprior : (prior.map (Version.prior : ρ → Version ρ X)).filter (survives [] schedule) =
        (prior.filter (survives [] schedule ∘ Version.prior)).map Version.prior :=
      List.filter_map
    have hrow : ∀ rows : List ρ, (rows.map (Version.prior : ρ → Version ρ X)).map
        Version.row = rows := fun rows => by
      rw [List.map_map]
      exact List.map_id rows
    rw [hprior, hrow, List.filter_filter]
    split
    · rename_i hdelete
      rw [List.filter_eq_nil_iff]
      intro row _
      cases hmatched : matched row with
      | false => simp
      | true => simp [hfate row hmatched, hdelete]
    · rename_i hkeep
      apply List.filter_congr
      intro row _
      cases hmatched : matched row with
      | false => simp
      | true => simpa [hfate row hmatched] using hkeep
  · rw [List.filter_eq_self]
    intro row hrow
    obtain ⟨⟨session, statement⟩, hmem, hin⟩ := List.mem_flatMap.mp hrow
    dsimp only at hin
    split at hin
    · cases statement with
      | delete matching => cases hin
      | commit => cases hin
      | insert rows => exact hinserted session rows hmem row hin
    · cases hin

/-! ## Schedules made of replacements -/

def ofSession (session : X) (schedule : List (X × Statement ρ)) : List (Statement ρ) :=
  (schedule.filter fun event => event.1 = session).map Prod.snd

/-- Within a session, deletes come first and nothing follows the commit. -/
def Statement.MayPrecede : Statement ρ → Statement ρ → Prop
  | .delete _, _ => True
  | .insert _, .delete _ => False
  | .insert _, _ => True
  | .commit, _ => False

/-- The statements of one replacement: maybe a delete, inserts, a commit. -/
structure Replacement (statements : List (Statement ρ)) : Prop where
  ordered : statements.Pairwise Statement.MayPrecede
  commits : statements = [] ∨ statements.getLast? = some .commit

theorem ofSession_append_cons
    (before after : List (X × Statement ρ))
    (session : X)
    (statement : Statement ρ) :
    ofSession session (before ++ (session, statement) :: after) =
      ofSession session before ++ statement :: ofSession session after := by
  simp [ofSession]

theorem mem_ofSession
    {schedule : List (X × Statement ρ)}
    {session : X}
    {statement : Statement ρ} :
    statement ∈ ofSession session schedule ↔ (session, statement) ∈ schedule := by
  simp [ofSession]

theorem commit_mem_of_replacement
    {before after : List (Statement ρ)}
    {statement : Statement ρ}
    (hreplacement : Replacement (before ++ statement :: after))
    (hopen : statement ≠ .commit) :
    .commit ∈ after := by
  have hlast : (before ++ statement :: after).getLast? = some .commit := by
    rcases hreplacement.commits with hnil | hlast
    · simp at hnil
    · exact hlast
  rw [List.getLast?_append_of_ne_nil _ (List.cons_ne_nil _ _)] at hlast
  cases after with
  | nil =>
      simp only [List.getLast?_singleton, Option.some.injEq] at hlast
      exact absurd hlast hopen
  | cons next rest =>
      rw [List.getLast?_cons_cons] at hlast
      exact List.mem_of_getLast? hlast

/-- A schedule in which each session makes one replacement is orderly. -/
theorem orderly_of_replacements
    {schedule : List (X × Statement ρ)}
    (hsessions : ∀ session, Replacement (ofSession session schedule)) :
    Orderly schedule := by
  have hfollows : ∀ before session statement after,
      schedule = before ++ (session, statement) :: after →
        Replacement (ofSession session before ++ statement :: ofSession session after) ∧
          ∀ next, (session, next) ∈ after → statement.MayPrecede next := by
    intro before session statement after heq
    have hreplacement := hsessions session
    rw [heq, ofSession_append_cons] at hreplacement
    refine ⟨hreplacement, fun next hnext => ?_⟩
    have hpairwise := (List.pairwise_append.mp hreplacement.ordered).2.1
    exact (List.pairwise_cons.mp hpairwise).1 next (mem_ofSession.mpr hnext)
  constructor
  · intro before session matching after heq
    obtain ⟨hreplacement, _⟩ := hfollows before session _ after heq
    exact mem_ofSession.mp (commit_mem_of_replacement hreplacement (by simp))
  · intro before session rows after heq
    obtain ⟨hreplacement, hlater⟩ := hfollows before session _ after heq
    constructor
    · exact mem_ofSession.mp (commit_mem_of_replacement hreplacement (by simp))
    · intro matching hmem
      exact hlater _ hmem
  · intro before session after heq statement hmem
    exact (hfollows before session _ after heq).2 statement hmem

theorem insertedRows_perm
    (kept : X → Bool)
    (session : X)
    (schedule : List (X × Statement ρ)) :
    (insertedRows kept schedule).Perm
      ((if kept session then
          (ofSession session schedule).flatMap Statement.insertedRows else []) ++
        insertedRows kept (schedule.filter fun event => !(event.1 = session))) := by
  have hsplit := List.filter_append_perm (fun event : X × Statement ρ => event.1 = session)
    schedule
  have hmine : insertedRows kept (schedule.filter fun event => event.1 = session) =
      if kept session then (ofSession session schedule).flatMap Statement.insertedRows
      else [] := by
    have hsame : ∀ event ∈ schedule.filter (fun event => event.1 = session),
        (if kept event.1 then event.2.insertedRows else []) =
          if kept session then event.2.insertedRows else [] := by
      intro event hevent
      have heq : event.1 = session := by simpa using (List.mem_filter.mp hevent).2
      rw [heq]
    rw [insertedRows, List.flatMap_congr hsame, ofSession, List.flatMap_map]
    split
    · rfl
    · simp
  have hall := hsplit.symm.flatMap_right fun event : X × Statement ρ =>
    if kept event.1 then event.2.insertedRows else []
  rwa [List.flatMap_append, ← insertedRows, ← insertedRows, ← insertedRows, hmine] at hall

/-! ## Interleavings -/

/-- The events of several sessions, each with its list of them, when the sessions
take their turns in the given order. -/
def interleave {α : Type*} (programs : X → List α) : List X → List (X × α)
  | [] => []
  | session :: turns =>
      match programs session with
      | [] => interleave programs turns
      | next :: rest =>
          (session, next) :: interleave (Function.update programs session rest) turns

/-- With enough turns every session gets through its list. -/
theorem filter_interleave
    {α : Type*}
    (programs : X → List α)
    {turns : List X}
    {session : X}
    (henough : (programs session).length ≤ turns.count session) :
    ((interleave programs turns).filter fun event => event.1 = session).map Prod.snd =
      programs session := by
  induction turns generalizing programs with
  | nil =>
      have hnil : programs session = [] := by simpa using henough
      simp [interleave, hnil]
  | cons other turns ih =>
      unfold interleave
      by_cases heq : other = session
      · subst heq
        rw [List.count_cons_self] at henough
        cases hprogram : programs other with
        | nil =>
            have hrest := ih programs (by simp [hprogram])
            simpa [hprogram] using hrest
        | cons next rest =>
            have hlength : rest.length ≤ turns.count other := by
              simpa [hprogram] using henough
            have hrest := ih (Function.update programs other rest) (by simpa using hlength)
            simpa using hrest
      · rw [List.count_cons_of_ne heq] at henough
        cases hprogram : programs other with
        | nil => exact ih programs henough
        | cons next rest =>
            have hrest := ih (Function.update programs other rest)
              (by simpa [Function.update_of_ne (Ne.symm heq)] using henough)
            simpa [heq, Function.update_of_ne (Ne.symm heq)] using hrest

end RowVersions
