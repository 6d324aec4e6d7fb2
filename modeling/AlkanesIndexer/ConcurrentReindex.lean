import AlkanesIndexer.CleanReindex
import AlkanesIndexer.RowVersions

/-!
# Two executions of one block

`main` runs the poller and the catch-up coordinator side by side, and both may
process the same height.  Each table is then replaced twice, in transactions
which nothing orders.  This file looks at every order of the statements on the
five tables without a unique constraint.

The rows a decoder reads of `DecodedProtostone` are the same for both, as each of
the two has replaced them by the same rows in one transaction, so a batch is the
one the execution computes on its own.
-/

namespace AlkanesIndexer

open RowVersions Sequences

inductive Session where
  | poller
  | coordinator
  deriving DecidableEq, Repr

/-- The tables without a unique constraint, in the order of the pipeline. -/
def replacedTables : List DerivedTable :=
  [.poolSwap, .poolMint, .poolBurn, .subfrostWrap, .subfrostUnwrap]

/-! ## The statements of an execution -/

/-- A stage which is reached and not left out. -/
def BlockData.writes
    (data : BlockData)
    (pools : DerivedTable → List PoolRow)
    (stage : Stage) : Bool :=
  decide (stage ∈ data.stages) && !data.skipped pools stage

/-- The transaction that replaces a table.  Without transactions there is nothing
to delete. -/
def replaceStatements
    (data : BlockData)
    (pools : DerivedTable → List PoolRow)
    (table : DerivedTable) : List (Statement table.Row) :=
  if data.writes pools (.derived table) then
    (if data.txids = [] then []
      else [.delete fun row => table.transactionId row ∈ data.txids]) ++
      (chunks (Table.maxRows (.derived table)) (data.batch pools (.derived table))).map
        .insert ++
      [.commit]
  else []

abbrev Sql := (table : DerivedTable) × Statement table.Row

def sqlOf (data : BlockData) (pools : DerivedTable → List PoolRow) : List Sql :=
  replacedTables.flatMap fun table => (replaceStatements data pools table).map (Sigma.mk table)

def Sql.on (table : DerivedTable) (sql : Sql) : Option (Statement table.Row) :=
  if heq : sql.1 = table then some (heq ▸ sql.2) else none

theorem on_of_replaceStatements
    {table other : DerivedTable}
    (statements : List (Statement other.Row)) :
    (statements.map (Sigma.mk other)).filterMap (Sql.on table) =
      if heq : other = table then heq ▸ statements else [] := by
  by_cases heq : other = table
  · subst heq
    rw [List.filterMap_map]
    simp [Function.comp_def, Sql.on]
  · rw [List.filterMap_map]
    simp [Function.comp_def, Sql.on, heq]

theorem sqlOf_on
    {data : BlockData}
    {pools : DerivedTable → List PoolRow}
    {table : DerivedTable}
    (htable : table ∈ replacedTables) :
    (sqlOf data pools).filterMap (Sql.on table) = replaceStatements data pools table := by
  rw [sqlOf, List.filterMap_flatMap]
  simp only [on_of_replaceStatements]
  simp only [replacedTables, List.mem_cons, List.not_mem_nil, or_false] at htable
  rcases htable with rfl | rfl | rfl | rfl | rfl <;> simp [replacedTables]

theorem replacement_replaceStatements
    (data : BlockData)
    (pools : DerivedTable → List PoolRow)
    (table : DerivedTable) :
    Replacement (replaceStatements data pools table) := by
  unfold replaceStatements
  split
  · constructor
    · rw [List.append_assoc, List.pairwise_append]
      refine ⟨?_, ?_, ?_⟩
      · split <;> simp
      · rw [List.pairwise_append, List.pairwise_map]
        refine ⟨?_, List.pairwise_singleton _ _, ?_⟩
        · exact List.pairwise_of_forall fun _ _ => trivial
        · intro statement hstatement last hlast
          obtain ⟨chunk, _, rfl⟩ := List.mem_map.mp hstatement
          rw [List.mem_singleton.mp hlast]
          trivial
      · intro statement hstatement next _
        split at hstatement
        · cases hstatement
        · rw [List.mem_singleton.mp hstatement]
          trivial
    · right
      simp
  · exact ⟨List.Pairwise.nil, Or.inl rfl⟩

/-! ## Two executions -/

/-- Two executions of one block on one database, with the turns in which their
statements are made.  Each would succeed on its own. -/
structure ConcurrentRun where
  rpc : Rpc
  height : ℕ
  db : Db
  schedule : Session → Schedule
  pools : Session → DerivedTable → List PoolRow
  data : Session → BlockData
  turns : List Session
  fetched : ∀ session, fetchBlock rpc (schedule session) height = .ok (data session)
  succeeds : ∀ session, (processBlockSequential
    ⟨rpc, schedule session, pools session, fun _ => false⟩ height false db).error = none
  complete : ∀ session,
    (sqlOf (data session) (pools session)).length ≤ turns.count session

namespace ConcurrentRun

variable (run : ConcurrentRun) (table : DerivedTable)

def txids : List String := (run.data .poller).txids

def attempt (session : Session) : Attempt :=
  ⟨run.rpc, run.schedule session, run.pools session, fun _ => false⟩

def batch (session : Session) : List table.Row :=
  (run.data session).batch (run.pools session) (.derived table)

def sql : List (Session × Sql) :=
  interleave (fun session => sqlOf (run.data session) (run.pools session)) run.turns

def sqlOn : List (Session × Statement table.Row) :=
  run.sql.filterMap fun event => (event.2.on table).map (Prod.mk event.1)

/-- What both executions leave for the transactions of the block. -/
def finalRows : List table.Row :=
  (((Store.start (run.db.rows (.derived table))).run (run.sqlOn table)).liveRows).filter
    fun row => table.transactionId row ∈ run.txids

def aloneRows (session : Session) : List table.Row :=
  (processBlockSequential (run.attempt session) run.height false run.db).db.rowsOf
    (.derived table) run.txids

/-- Wherever both write rows, one starts its delete after the other's commit. -/
def Serialised : Prop :=
  ∀ table ∈ replacedTables, run.batch table .poller ≠ [] → run.batch table .coordinator ≠ [] →
    overtaken .poller (run.sqlOn table) = true ∨
      overtaken .coordinator (run.sqlOn table) = true

/-! ## What is left in one table -/

theorem mem_txids_iff
    (session : Session)
    (txid : String) :
    txid ∈ (run.data session).txids ↔ txid ∈ run.txids :=
  ((fetchBlock_perm (run.fetched session) (run.fetched .poller)).2.2.map _).mem_iff

theorem ofSession_sqlOn
    {table : DerivedTable}
    (htable : table ∈ replacedTables)
    (session : Session) :
    ofSession session (run.sqlOn table) =
      replaceStatements (run.data session) (run.pools session) table := by
  have hprogram := filter_interleave
    (fun session => sqlOf (run.data session) (run.pools session)) (run.complete session)
  rw [← sqlOf_on htable, ← hprogram, ofSession, sqlOn, List.filter_filterMap,
    List.map_filterMap, List.filterMap_map, List.filterMap_filter]
  apply List.filterMap_congr
  intro event _
  cases hon : event.2.on table <;> by_cases hsession : event.1 = session <;>
    simp [hon, hsession]

theorem orderly_sqlOn
    {table : DerivedTable}
    (htable : table ∈ replacedTables) :
    Orderly (run.sqlOn table) := by
  apply orderly_of_replacements
  intro session
  rw [run.ofSession_sqlOn htable session]
  exact replacement_replaceStatements _ _ _

def writes (session : Session) : Bool :=
  (run.data session).writes (run.pools session) (.derived table)

theorem batch_eq_nil_of_not_writes
    {session : Session}
    (hnot : run.writes table session = false) :
    run.batch table session = [] := by
  by_cases hstage : Stage.derived table ∈ (run.data session).stages
  · have hskipped : (run.data session).skipped (run.pools session) (.derived table) = true := by
      simpa [writes, BlockData.writes, hstage] using hnot
    exact batch_of_skipped (.derived table) hskipped
  · have hreturn : (run.data session).txs.any txHasOpReturn = false := by
      by_contra htrue
      exact hstage (stage_mem_stages _ (by simpa using htrue) (.derived table))
    exact batch_eq_nil (run.attempt session) _ ((run.data session).results_nil hreturn) _

theorem transactionId_mem_of_mem_batch
    {session : Session}
    {row : table.Row}
    (hrow : row ∈ run.batch table session) :
    table.transactionId row ∈ run.txids :=
  (run.mem_txids_iff session _).mp
    ((run.data session).mem_txids_of_mem_batch (run.pools session) hrow).1

theorem insertedRows_replaceStatements
    (session : Session) :
    (replaceStatements (run.data session) (run.pools session) table).flatMap
      Statement.insertedRows = run.batch table session := by
  unfold replaceStatements
  split
  · have hdeletes : (if (run.data session).txids = [] then []
        else [Statement.delete fun row =>
          table.transactionId row ∈ (run.data session).txids]).flatMap
        Statement.insertedRows = [] := by
      split <;> simp [Statement.insertedRows]
    have hinserts : ((chunks (Table.maxRows (.derived table)) (run.batch table session)).map
        Statement.insert).flatMap Statement.insertedRows = run.batch table session := by
      rw [List.flatMap_map]
      change List.flatMap id _ = _
      rw [List.flatMap_id, flatten_chunks]
    rw [List.flatMap_append, List.flatMap_append, hdeletes, List.nil_append]
    exact (List.append_nil _).trans hinserts
  · next hnot =>
    exact (run.batch_eq_nil_of_not_writes table (Bool.eq_false_iff.mpr hnot)).symm

theorem delete_mem_iff
    {table : DerivedTable}
    (htable : table ∈ replacedTables)
    {session : Session}
    {matching : table.Row → Bool} :
    (session, .delete matching) ∈ run.sqlOn table ↔
      run.writes table session = true ∧ (run.data session).txids ≠ [] ∧
        matching = fun row => decide (table.transactionId row ∈ (run.data session).txids) := by
  rw [← mem_ofSession, run.ofSession_sqlOn htable session, replaceStatements]
  change _ ∈ (if run.writes table session = true then _ else _) ↔ _
  cases run.writes table session with
  | false => simp
  | true =>
      by_cases hnil : (run.data session).txids = [] <;> simp [hnil]

theorem insert_mem_batch
    {table : DerivedTable}
    (htable : table ∈ replacedTables)
    {session : Session}
    {rows : List table.Row}
    (hinsert : (session, .insert rows) ∈ run.sqlOn table)
    {row : table.Row}
    (hrow : row ∈ rows) :
    row ∈ run.batch table session := by
  rw [← mem_ofSession, run.ofSession_sqlOn htable session] at hinsert
  rw [← insertedRows_replaceStatements]
  exact List.mem_flatMap.mpr ⟨_, hinsert, hrow⟩

def priorRows : List table.Row := run.db.rowsOf (.derived table) run.txids

/-- The rows of an execution which no later delete takes away. -/
def keptRows (session : Session) : List table.Row :=
  if overtaken session (run.sqlOn table) then [] else run.batch table session

theorem any_isDelete
    {table : DerivedTable}
    (htable : table ∈ replacedTables)
    (htxids : run.txids ≠ []) :
    ((run.sqlOn table).any fun event => event.2.isDelete) =
      (run.writes table .poller || run.writes table .coordinator) := by
  have hnonempty : ∀ session, (run.data session).txids ≠ [] := by
    intro session hnil
    obtain ⟨txid, htxid⟩ := List.exists_mem_of_ne_nil _ htxids
    have hmem := (run.mem_txids_iff session txid).mpr htxid
    simp [hnil] at hmem
  rw [← Bool.not_inj_iff, Bool.eq_iff_iff, Bool.not_eq_true', any_isDelete_eq_false_iff]
  simp only [run.delete_mem_iff htable, not_and, Bool.not_or, Bool.and_eq_true,
    Bool.not_eq_true']
  constructor
  · intro hnone
    have hidle : ∀ session, run.writes table session = false := by
      intro session
      by_contra hwrites
      exact hnone session _ (by simpa using hwrites) (hnonempty session) rfl
    exact ⟨hidle .poller, hidle .coordinator⟩
  · rintro ⟨hpoller, hcoordinator⟩ session matching hwrites
    cases session with
    | poller => simp [hpoller] at hwrites
    | coordinator => simp [hcoordinator] at hwrites

theorem insertedRows_sqlOn
    {table : DerivedTable}
    (htable : table ∈ replacedTables) :
    (insertedRows (fun session => !overtaken session (run.sqlOn table))
      (run.sqlOn table)).Perm (run.keptRows table .poller ++ run.keptRows table .coordinator) := by
  have hkept : ∀ session, (if !overtaken session (run.sqlOn table) then
      (ofSession session (run.sqlOn table)).flatMap Statement.insertedRows else []) =
        run.keptRows table session := by
    intro session
    rw [run.ofSession_sqlOn htable session, insertedRows_replaceStatements, keptRows]
    cases overtaken session (run.sqlOn table) <;> rfl
  have hfirst := insertedRows_perm (fun session => !overtaken session (run.sqlOn table))
    .poller (run.sqlOn table)
  have hsecond := insertedRows_perm (fun session => !overtaken session (run.sqlOn table))
    .coordinator ((run.sqlOn table).filter fun event => !(event.1 = Session.poller))
  have hsame : ofSession .coordinator
      ((run.sqlOn table).filter fun event => !(event.1 = Session.poller)) =
        ofSession .coordinator (run.sqlOn table) := by
    rw [ofSession, List.filter_filter, ofSession]
    congr 1
    apply List.filter_congr
    rintro ⟨session, statement⟩ _
    cases session <;> rfl
  have hnone : ((run.sqlOn table).filter fun event => !(event.1 = Session.poller)).filter
      (fun event => !(event.1 = Session.coordinator)) = [] := by
    rw [List.filter_filter, List.filter_eq_nil_iff]
    rintro ⟨session, statement⟩ _
    cases session <;> simp
  rw [hkept] at hfirst
  rw [hsame, hkept, hnone] at hsecond
  have hempty : insertedRows (fun session => !overtaken session (run.sqlOn table))
      ([] : List (Session × Statement table.Row)) = [] := rfl
  rw [hempty, List.append_nil] at hsecond
  exact hfirst.trans (hsecond.append_left _)

/-- Both executions together leave what each of them inserts, unless it is
overtaken. -/
theorem finalRows_perm
    {table : DerivedTable}
    (htable : table ∈ replacedTables) :
    (run.finalRows table).Perm
      ((if run.writes table .poller || run.writes table .coordinator then []
        else run.priorRows table) ++
        (run.keptRows table .poller ++ run.keptRows table .coordinator)) := by
  have hinserted : ∀ session rows, (session, .insert rows) ∈ run.sqlOn table →
      ∀ row ∈ rows, decide (table.transactionId row ∈ run.txids) = true := by
    intro session rows hinsert row hrow
    simpa using run.transactionId_mem_of_mem_batch table
      (run.insert_mem_batch htable hinsert hrow)
  have hmatching : ∀ session matching, (session, .delete matching) ∈ run.sqlOn table →
      ∀ row, decide (table.transactionId row ∈ run.txids) = true → matching row = true := by
    intro session matching hdelete row hrow
    obtain ⟨_, _, rfl⟩ := (run.delete_mem_iff htable).mp hdelete
    simpa [run.mem_txids_iff session] using hrow
  rw [finalRows, filter_liveRows_run _ (run.orderly_sqlOn htable) hinserted hmatching]
  have hprior : (if (run.sqlOn table).any fun event => event.2.isDelete then []
      else (run.db.rows (.derived table)).filter fun row =>
        table.transactionId row ∈ run.txids) =
      if run.writes table .poller || run.writes table .coordinator then []
        else run.priorRows table := by
    by_cases htxids : run.txids = []
    · simp [htxids, priorRows, Db.rowsOf]
    · rw [run.any_isDelete htable htxids]
      rfl
  rw [hprior]
  exact (run.insertedRows_sqlOn htable).append_left _

theorem aloneRows_eq
    (session : Session) :
    run.aloneRows table session =
      if run.writes table session then run.batch table session else run.priorRows table := by
  have hsame : ∀ row : table.Row, decide (table.transactionId row ∈ run.txids) =
      decide (table.transactionId row ∈ (run.data session).txids) := by
    intro row
    rw [Bool.eq_iff_iff, decide_eq_true_eq, decide_eq_true_eq]
    exact (run.mem_txids_iff session _).symm
  have hsuccess := run.succeeds session
  unfold aloneRows attempt
  rw [processBlockSequential_of_fetch _ _ _ (run.fetched session)] at hsuccess ⊢
  have hrows := rows_writeBlock hsuccess (.derived table)
  rw [Db.rowsOf, hrows]
  change List.filter _ (if Stage.derived table ∈ (run.data session).stages ∧
    (run.data session).skipped (run.pools session) (.derived table) = false then _ else _) = _
  have hwrites : (Stage.derived table ∈ (run.data session).stages ∧
      (run.data session).skipped (run.pools session) (.derived table) = false) ↔
        run.writes table session = true := by
    simp [writes, BlockData.writes]
  simp only [hwrites]
  split
  · rw [List.filter_append]
    have hothers : ((run.db.otherRows (.derived table) (run.data session).txids).filter fun row =>
        table.transactionId row ∈ run.txids) = [] := by
      rw [List.filter_congr fun row _ => hsame row]
      exact filter_otherRows_eq_nil (run.data session) run.db (.derived table)
    have hbatch : (run.batch table session).filter (fun row =>
        table.transactionId row ∈ run.txids) = run.batch table session := by
      rw [List.filter_eq_self]
      intro row hrow
      simpa using run.transactionId_mem_of_mem_batch table hrow
    exact (congrArg₂ List.append hothers hbatch).trans (List.nil_append _)
  · rfl

/-- In every table the final rows are those one of the executions leaves alone. -/
def TablesSingle : Prop :=
  ∀ table ∈ replacedTables, ∃ session,
    (run.finalRows table).Perm (run.aloneRows table session)

/-- The final rows of all tables are those one of the executions leaves alone. -/
def Single : Prop :=
  ∃ session, ∀ table ∈ replacedTables,
    (run.finalRows table).Perm (run.aloneRows table session)

def Agree : Prop :=
  ∀ table ∈ replacedTables,
    (run.batch table .poller).Perm (run.batch table .coordinator)

theorem writes_of_overtaken
    {table : DerivedTable}
    (htable : table ∈ replacedTables)
    {first second : Session}
    (hne : first ≠ second)
    (hovertaken : overtaken first (run.sqlOn table) = true) :
    run.writes table second = true := by
  by_contra hnot
  have hfalse : overtaken first (run.sqlOn table) = false := by
    apply overtaken_eq_false_of_own (run.orderly_sqlOn htable)
    intro deleter matching hdelete
    have hwrites := ((run.delete_mem_iff htable).mp hdelete).1
    cases deleter <;> cases first <;> cases second <;> simp_all
  simp [hfalse] at hovertaken

theorem overtaken_not_both
    {table : DerivedTable}
    (htable : table ∈ replacedTables)
    {first second : Session}
    (hne : first ≠ second)
    (hovertaken : overtaken first (run.sqlOn table) = true) :
    overtaken second (run.sqlOn table) = false := by
  apply overtaken_asymm hne (run.orderly_sqlOn htable) _ hovertaken
  rintro ⟨session, statement⟩ _
  cases session <;> cases first <;> cases second <;> simp_all

theorem finalRows_perm_of_ne
    {table : DerivedTable}
    (htable : table ∈ replacedTables)
    {first second : Session}
    (hne : first ≠ second) :
    (run.finalRows table).Perm
      ((if run.writes table first || run.writes table second then []
        else run.priorRows table) ++ (run.keptRows table first ++ run.keptRows table second)) := by
  have hperm := run.finalRows_perm htable
  cases first with
  | poller =>
      cases second with
      | poller => exact absurd rfl hne
      | coordinator => exact hperm
  | coordinator =>
      cases second with
      | coordinator => exact absurd rfl hne
      | poller =>
          rw [Bool.or_comm]
          exact hperm.trans (List.perm_append_comm.append_left _)

/-- When one execution inserts nothing or is overtaken, the rows are those of a
single one. -/
theorem single_of_lost
    {table : DerivedTable}
    (htable : table ∈ replacedTables)
    {first second : Session}
    (hne : first ≠ second)
    (hlost : run.batch table first = [] ∨ overtaken first (run.sqlOn table) = true) :
    ∃ session, (run.finalRows table).Perm (run.aloneRows table session) := by
  have hperm := run.finalRows_perm_of_ne htable hne
  have hfirst : run.keptRows table first = [] := by
    rcases hlost with hnil | hovertaken
    · simp [keptRows, hnil]
    · simp [keptRows, hovertaken]
  rw [hfirst, List.nil_append] at hperm
  cases hsecond : run.writes table second with
  | true =>
      rw [hsecond, Bool.or_true, if_pos rfl, List.nil_append] at hperm
      cases hovertaken : overtaken second (run.sqlOn table) with
      | true =>
          -- the first deletes what the second has inserted, and inserts nothing
          have hwrites := run.writes_of_overtaken htable hne.symm hovertaken
          have hkept := run.overtaken_not_both htable hne.symm hovertaken
          have hnil : run.batch table first = [] := hlost.resolve_right (by simp [hkept])
          refine ⟨first, ?_⟩
          rw [run.aloneRows_eq, if_pos hwrites, hnil]
          simpa [keptRows, hovertaken] using hperm
      | false =>
          refine ⟨second, ?_⟩
          rw [run.aloneRows_eq, if_pos hsecond]
          simpa [keptRows, hovertaken] using hperm
  | false =>
      have hnil := run.batch_eq_nil_of_not_writes table hsecond
      have hkept : run.keptRows table second = [] := by simp [keptRows, hnil]
      rw [hsecond, hkept, Bool.or_false, List.append_nil] at hperm
      refine ⟨first, ?_⟩
      rw [run.aloneRows_eq]
      cases hfirstWrites : run.writes table first with
      | false => simpa [hfirstWrites] using hperm
      | true =>
          have hbatch : run.batch table first = [] := by
            apply hlost.resolve_right
            intro hovertaken
            have hwrites := run.writes_of_overtaken htable hne hovertaken
            simp [hsecond] at hwrites
          simpa [hfirstWrites, hbatch] using hperm

theorem tableSingle_iff
    {table : DerivedTable}
    (htable : table ∈ replacedTables) :
    (∃ session, (run.finalRows table).Perm (run.aloneRows table session)) ↔
      (run.batch table .poller ≠ [] → run.batch table .coordinator ≠ [] →
        overtaken .poller (run.sqlOn table) = true ∨
          overtaken .coordinator (run.sqlOn table) = true) := by
  constructor
  · rintro ⟨session, hsingle⟩ hpoller hcoordinator
    by_contra hnot
    rw [not_or, Bool.not_eq_true, Bool.not_eq_true] at hnot
    have hwrites : ∀ session, run.batch table session ≠ [] →
        run.writes table session = true := by
      intro session hne
      by_contra hidle
      exact hne (run.batch_eq_nil_of_not_writes table (by simpa using hidle))
    -- both batches are there, which is more than either of them
    have hlength := (hsingle.symm.trans (run.finalRows_perm htable)).length_eq
    have hpollerLength := List.length_pos_iff.mpr hpoller
    have hcoordinatorLength := List.length_pos_iff.mpr hcoordinator
    rw [run.aloneRows_eq, List.length_append, List.length_append] at hlength
    simp only [keptRows, hnot.1, hnot.2, hwrites _ hpoller, Bool.true_or, if_true,
      Bool.false_eq_true, if_false, List.length_nil] at hlength
    cases session with
    | poller =>
        rw [if_pos (hwrites _ hpoller)] at hlength
        omega
    | coordinator =>
        rw [if_pos (hwrites _ hcoordinator)] at hlength
        omega
  · intro hserialised
    by_cases hpoller : run.batch table .poller = []
    · exact run.single_of_lost htable (by decide : Session.poller ≠ .coordinator) (Or.inl hpoller)
    by_cases hcoordinator : run.batch table .coordinator = []
    · exact run.single_of_lost htable (by decide : Session.coordinator ≠ .poller)
        (Or.inl hcoordinator)
    rcases hserialised hpoller hcoordinator with hovertaken | hovertaken
    · exact run.single_of_lost htable (by decide : Session.poller ≠ .coordinator)
        (Or.inr hovertaken)
    · exact run.single_of_lost htable (by decide : Session.coordinator ≠ .poller)
        (Or.inr hovertaken)

theorem writes_eq_of_agree
    (hagree : run.Agree)
    {table : DerivedTable}
    (htable : table ∈ replacedTables) :
    run.writes table .poller = run.writes table .coordinator := by
  have hstages : (run.data .poller).stages = (run.data .coordinator).stages := by
    have hperm := (fetchBlock_perm (run.fetched .poller) (run.fetched .coordinator)).2.1
    unfold BlockData.stages
    rw [hperm.any_eq]
  have hempty : (run.batch table .poller).isEmpty = (run.batch table .coordinator).isEmpty := by
    rw [Bool.eq_iff_iff, List.isEmpty_iff, List.isEmpty_iff]
    have hperm := hagree table htable
    exact ⟨fun hnil => (hnil ▸ hperm).nil_eq.symm, fun hnil => (hnil ▸ hperm).eq_nil⟩
  have hskipped : (run.data .poller).skipped (run.pools .poller) (.derived table) =
      (run.data .coordinator).skipped (run.pools .coordinator) (.derived table) :=
    congrArg (table.skipsEmptyBatch && ·) hempty
  rw [writes, writes, BlockData.writes, BlockData.writes, hstages, hskipped]

theorem aloneRows_perm_of_agree
    (hagree : run.Agree)
    {table : DerivedTable}
    (htable : table ∈ replacedTables) :
    (run.aloneRows table .poller).Perm (run.aloneRows table .coordinator) := by
  rw [run.aloneRows_eq, run.aloneRows_eq, run.writes_eq_of_agree hagree htable]
  split
  · exact hagree table htable
  · exact List.Perm.refl _

end ConcurrentRun

/-- In each table the rows are those of a single execution exactly when the two
are serialised wherever both insert rows, and if they compute the same rows, that
is so for all tables at once. -/
theorem single_iff_serialised
    (run : ConcurrentRun) :
    (run.TablesSingle ↔ run.Serialised) ∧ (run.Agree → (run.Single ↔ run.Serialised)) := by
  have htables : run.TablesSingle ↔ run.Serialised :=
    forall₂_congr fun table htable => run.tableSingle_iff htable
  refine ⟨htables, fun hagree => ?_⟩
  rw [← htables]
  constructor
  · rintro ⟨session, hsingle⟩ table htable
    exact ⟨session, hsingle table htable⟩
  · intro hsingle
    refine ⟨.coordinator, fun table htable => ?_⟩
    obtain ⟨session, hperm⟩ := hsingle table htable
    cases session with
    | coordinator => exact hperm
    | poller => exact hperm.trans (run.aloneRows_perm_of_agree hagree htable)

/-! ## A doubled mint -/

set_option maxRecDepth 4000 in
/-- After the swaps, both delete the mints before either of them commits. -/
def doublingRun : ConcurrentRun where
  rpc := mintingAttempt.rpc
  height := 5
  db := .empty
  schedule := fun _ => mintingAttempt.schedule
  pools := fun _ => mintingAttempt.pools
  data := fun _ => mintingData
  turns := [.poller, .poller, .coordinator, .coordinator, .poller, .coordinator, .poller,
    .coordinator, .poller, .coordinator]
  fetched := fun _ => mintingAttempt_fetches
  succeeds := fun _ => mintingAttempt_succeeds
  complete := fun session => by cases session <;> decide

set_option maxRecDepth 4000 in
theorem concurrent_mint_doubled :
    ¬ doublingRun.TablesSingle ∧ ¬ doublingRun.Single := by
  have hdoubled : ∀ session, ¬ (doublingRun.finalRows .poolMint).Perm
      (doublingRun.aloneRows .poolMint session) := by
    intro session hperm
    have hlength := hperm.length_eq
    cases session <;> exact absurd hlength (by decide)
  constructor
  · intro hsingle
    obtain ⟨session, hperm⟩ := hsingle .poolMint (by decide)
    exact hdoubled session hperm
  · rintro ⟨session, hsingle⟩
    exact hdoubled session (hsingle .poolMint (by decide))

set_option maxRecDepth 4000 in
def serialRun : ConcurrentRun where
  rpc := mintingAttempt.rpc
  height := 5
  db := .empty
  schedule := fun _ => mintingAttempt.schedule
  pools := fun _ => mintingAttempt.pools
  data := fun _ => mintingData
  turns := List.replicate 5 .poller ++ List.replicate 5 .coordinator
  fetched := fun _ => mintingAttempt_fetches
  succeeds := fun _ => mintingAttempt_succeeds
  complete := fun session => by cases session <;> decide

set_option maxRecDepth 4000 in
theorem serialRun_single :
    serialRun.Single := by
  have hagree : serialRun.Agree := fun _ _ => List.Perm.refl _
  refine ((single_iff_serialised serialRun).2 hagree).mpr ?_
  intro table htable hpoller hcoordinator
  simp only [replacedTables, List.mem_cons, List.not_mem_nil, or_false] at htable
  rcases htable with rfl | rfl | rfl | rfl | rfl
  · exact absurd (by decide) hpoller
  · exact Or.inl (by decide)
  · exact absurd (by decide) hpoller
  · exact absurd (by decide) hpoller
  · exact absurd (by decide) hpoller

end AlkanesIndexer
