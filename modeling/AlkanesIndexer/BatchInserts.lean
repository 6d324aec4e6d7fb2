import AlkanesIndexer.Sequences
import AlkanesIndexer.SqlStatements

/-!
# Statements of many rows

A builder makes one insert of some rows: it numbers the placeholders of each tuple from
a base, and binds the values row after row.  Cut into chunks that fit, the rows are
inserted as one statement of all of them would insert them.  Nothing here depends on the
indexer.
-/

namespace SqlStatements

open Sequences

variable {V : Type*}

/-- How one statement is built for some rows: the offsets of the placeholders in a
tuple, to be added to its base, and the values that are bound for a row. -/
structure RowInsert (ρ V : Type*) where
  table : String
  columns : List String
  perRow : ℕ
  offsets : List ℕ
  conflict : Option Conflict
  binds : ρ → List V
  columns_length : columns.length = perRow
  offsets_eq : offsets = List.range' 1 perRow
  binds_length : ∀ row, (binds row).length = perRow

namespace RowInsert

variable {ρ : Type*} (builder : RowInsert ρ V)

def statement (rows : List ρ) : Insert V where
  table := builder.table
  columns := builder.columns
  tuples := (List.range rows.length).map fun i =>
    let base := i * builder.perRow
    builder.offsets.map (base + ·)
  conflict := builder.conflict
  binds := rows.flatMap builder.binds

def record (row : ρ) : Record V := SqlStatements.record builder.columns (builder.binds row)

theorem length_binds
    (rows : List ρ) :
    (builder.statement rows).binds.length = rows.length * builder.perRow := by
  unfold statement
  rw [List.length_flatMap, List.map_congr_left fun row _ => builder.binds_length row]
  simp

theorem flatten_tuples
    (count : ℕ) :
    ((List.range count).map fun i => builder.offsets.map (i * builder.perRow + ·)).flatten =
      List.range' 1 (count * builder.perRow) := by
  induction count with
  | zero => simp
  | succ count ih =>
      have hlast : builder.offsets.map (count * builder.perRow + ·) =
          List.range' (1 + count * builder.perRow) builder.perRow := by
        rw [builder.offsets_eq, List.map_add_range', Nat.add_comm]
      rw [List.range_succ, List.map_append, List.flatten_append, ih, Nat.succ_mul,
        ← List.range'_append_1, List.map_singleton, hlast]
      simp

theorem placeholders_statement
    (rows : List ρ) :
    (builder.statement rows).placeholders =
      List.range' 1 (builder.statement rows).binds.length := by
  rw [length_binds]
  exact builder.flatten_tuples rows.length

theorem filterMap_bindAt
    (binds : List V)
    (base count : ℕ) :
    (List.range' (base + 1) count).filterMap (bindAt binds) = (binds.drop base).take count := by
  induction count generalizing base with
  | zero => simp
  | succ count ih =>
      rw [List.range'_succ, List.filterMap_cons]
      cases hbind : binds[base]? with
      | none =>
          have hempty : binds.drop base = [] :=
            List.drop_eq_nil_of_le (List.getElem?_eq_none_iff.mp hbind)
          have hrest : binds.drop (base + 1) = [] :=
            List.drop_eq_nil_of_le (by have := List.getElem?_eq_none_iff.mp hbind; omega)
          simp only [bindAt, hbind]
          rw [ih, hempty, hrest]
          simp
      | some value =>
          have hdrop : binds.drop base = value :: binds.drop (base + 1) := by
            obtain ⟨hlt, hvalue⟩ := List.getElem?_eq_some_iff.mp hbind
            rw [← hvalue]
            exact List.drop_eq_getElem_cons hlt
          simp only [bindAt, hbind]
          rw [ih, hdrop, List.take_succ_cons]

/-- The tuple of each row gets the values that are bound for that row. -/
theorem rows_statement
    (rows : List ρ) :
    (builder.statement rows).rows = rows.map builder.record := by
  have hslices : ∀ rows : List ρ, (List.range rows.length).map (fun i =>
      ((rows.flatMap builder.binds).drop (i * builder.perRow)).take builder.perRow) =
        rows.map builder.binds := by
    intro rows
    induction rows with
    | nil => rfl
    | cons row rows ih =>
        have hlength := builder.binds_length row
        rw [List.length_cons, List.range_succ_eq_map, List.map_cons, List.map_map, List.map_cons,
          ← ih]
        congr 1
        · simp [← hlength]
        · refine List.map_congr_left fun i _ => ?_
          have hindex : (i + 1) * builder.perRow =
              (builder.binds row).length + i * builder.perRow := by
            rw [hlength]
            ring
          simp only [Function.comp, Nat.succ_eq_add_one, List.flatMap_cons, hindex,
            List.drop_length_add_append]
  have htuple : ∀ i, (builder.offsets.map (i * builder.perRow + ·)).filterMap
      (bindAt (rows.flatMap builder.binds)) =
        ((rows.flatMap builder.binds).drop (i * builder.perRow)).take builder.perRow := by
    intro i
    rw [builder.offsets_eq, List.map_add_range', filterMap_bindAt]
  unfold Insert.rows statement record
  simp only [List.map_map, Function.comp_def, htuple]
  have hmap := congrArg (List.map (SqlStatements.record builder.columns)) (hslices rows)
  simpa only [List.map_map, Function.comp_def] using hmap

theorem accepted_statement
    {rows : List ρ}
    (hrows : rows ≠ [])
    (hfits : rows.length * builder.perRow ≤ 65535) :
    (builder.statement rows).Accepted := by
  have hplaceholders := builder.placeholders_statement rows
  refine ⟨?_, ?_, ?_, ?_, ?_⟩
  · simpa [statement] using hrows
  · intro tuple htuple
    obtain ⟨i, _, rfl⟩ := List.mem_map.mp htuple
    simp [statement, builder.columns_length, builder.offsets_eq]
  · intro number hnumber
    rw [hplaceholders, List.mem_range'_1] at hnumber
    omega
  · intro number hnumber
    rwa [hplaceholders]
  · rwa [length_binds]

theorem wellNumbered_statement
    {rows : List ρ}
    (hrows : rows ≠ [])
    (hfits : rows.length * builder.perRow ≤ 65535) :
    (builder.statement rows).WellNumbered where
  nonempty := (builder.accepted_statement hrows hfits).1
  placeholders := builder.placeholders_statement rows
  params_le := by rwa [length_binds]

section Run

variable [DecidableEq V]

theorem run_statement
    {rows : List ρ}
    (hrows : rows ≠ [])
    (hfits : rows.length * builder.perRow ≤ 65535)
    (honce : UpdatesOnce builder.conflict (rows.map builder.record))
    (table : List (Record V)) :
    (builder.statement rows).run table =
      some (addRows builder.conflict table (rows.map builder.record),
        changes builder.conflict table (rows.map builder.record)) := by
  have hkeys : UpdatesOnce (builder.statement rows).conflict (builder.statement rows).rows := by
    rw [builder.rows_statement]
    exact honce
  have hrun := (builder.statement rows).run_eq table (builder.accepted_statement hrows hfits) hkeys
  rw [builder.rows_statement] at hrun
  exact hrun

/-- An insert that skips known keys does to the stored rows what `insert` does to the
rows themselves. -/
theorem run_nothing
    {κ : Type*}
    {columns : List String}
    {key : ρ → κ}
    {insert : List ρ → ρ → List ρ}
    (hconflict : builder.conflict = some (.nothing columns))
    (hkey : ∀ row row', columns.map (builder.record row) = columns.map (builder.record row') ↔
      key row = key row')
    (hkept : ∀ table row, key row ∈ table.map key → insert table row = table)
    (hadded : ∀ table row, key row ∉ table.map key → insert table row = table ++ [row])
    {rows : List ρ}
    (hrows : rows ≠ [])
    (hfits : rows.length * builder.perRow ≤ 65535)
    (table : List ρ) :
    ∃ count, (builder.statement rows).run (table.map builder.record) =
      some ((rows.foldl insert table).map builder.record, count) := by
  have honce : UpdatesOnce builder.conflict (rows.map builder.record) := by
    rw [hconflict]
    trivial
  have hrun := builder.run_statement hrows hfits honce (table.map builder.record)
  rw [hconflict, addRows_nothing_map hkey hkept hadded] at hrun
  exact ⟨_, hrun⟩

end Run

end RowInsert

/-- A builder with a number of rows that fits one statement. -/
structure BatchInsert (ρ V : Type*) extends RowInsert ρ V where
  maxRows : ℕ
  maxRows_pos : 0 < maxRows
  fits : maxRows * perRow ≤ 65535

namespace BatchInsert

variable {ρ : Type*} (builder : BatchInsert ρ V)

def statements (rows : List ρ) : List (Statement V) :=
  (chunks builder.maxRows rows).map fun chunk => .insert (builder.statement chunk)

theorem fits_of_mem_chunks
    {rows chunk : List ρ}
    (hchunk : chunk ∈ chunks builder.maxRows rows) :
    chunk.length * builder.perRow ≤ 65535 :=
  (Nat.mul_le_mul_right _ (length_le_of_mem_chunks builder.maxRows_pos hchunk)).trans
    builder.fits

theorem table_of_mem_statements
    {rows : List ρ}
    {statement : Statement V}
    (hstatement : statement ∈ builder.statements rows) :
    statement.table = builder.table := by
  obtain ⟨chunk, _, rfl⟩ := List.mem_map.mp hstatement
  rfl

theorem wellNumbered_of_mem_statements
    {rows : List ρ}
    {insert : Insert V}
    (hinsert : .insert insert ∈ builder.statements rows) :
    insert.WellNumbered := by
  obtain ⟨chunk, hchunk, heq⟩ := List.mem_map.mp hinsert
  cases heq
  exact builder.wellNumbered_statement (ne_nil_of_mem_chunks hchunk)
    (builder.fits_of_mem_chunks hchunk)

section Run

variable [DecidableEq V]

/-- The chunks add what one statement of all the rows would add. -/
theorem runAll_statements
    {given : List ρ}
    {rows : List (Record V)}
    (honce : UpdatesOnce builder.conflict (given.map builder.record)) :
    runAll (builder.statements given) rows =
      some (addRows builder.conflict rows (given.map builder.record),
        changes builder.conflict rows (given.map builder.record)) := by
  have hall : ∀ (batches : List (List ρ)) (rows : List (Record V)),
      (∀ chunk ∈ batches, chunk ∈ chunks builder.maxRows given) →
      runAll (batches.map fun chunk => .insert (builder.statement chunk)) rows =
        some (addRows builder.conflict rows (batches.flatten.map builder.record),
          changes builder.conflict rows (batches.flatten.map builder.record)) := by
    intro batches
    induction batches with
    | nil => intro rows _; rfl
    | cons chunk batches ih =>
        intro rows hchunks
        have hchunk := hchunks chunk List.mem_cons_self
        have hsub : chunk.Sublist given := by
          rw [← flatten_chunks builder.maxRows given]
          exact List.sublist_flatten_of_mem hchunk
        have hrun := builder.run_statement (ne_nil_of_mem_chunks hchunk)
          (builder.fits_of_mem_chunks hchunk) (honce.sublist (hsub.map _)) rows
        have hrest := ih (addRows builder.conflict rows (chunk.map builder.record))
          fun chunk hmem => hchunks chunk (List.mem_cons_of_mem _ hmem)
        rw [List.map_cons, runAll, Statement.run, hrun, Option.bind_some, hrest, Option.map_some]
        rw [List.flatten_cons, List.map_append, addRows_append, changes_append]
  have hflat := hall (chunks builder.maxRows given) rows fun _ hmem => hmem
  rw [flatten_chunks] at hflat
  exact hflat

end Run

end BatchInsert

end SqlStatements
