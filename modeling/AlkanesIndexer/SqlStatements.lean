import Mathlib.Data.List.Nodup
import Mathlib.Tactic

/-!
# Parameterised statements

A row of a table gives values to columns.  Rows are deleted by the value of one
column, and inserted by statements of several tuples of numbered placeholders, one
after the other for the values that are bound.  An insert may say what happens to a
row whose key the table has already.  Nothing here depends on the indexer.
-/

namespace SqlStatements

variable {V : Type*}

/-- What the named columns of a row hold. -/
abbrev Record (V : Type*) := String → Option V

def record (columns : List String) (values : List V) : Record V := fun column =>
  (columns.zip values).lookup column

/-- Two columns may be named in either order, as long as their values are. -/
theorem record_swap
    {columns : List String}
    {values : List V}
    (hlength : columns.length = values.length)
    {first second : String}
    (hne : first ≠ second)
    (value value' : V) :
    record (columns ++ [first, second]) (values ++ [value, value']) =
      record (columns ++ [second, first]) (values ++ [value', value]) := by
  funext column
  unfold record
  rw [List.zip_append hlength, List.zip_append hlength, List.lookup_append, List.lookup_append]
  congr 1
  simp only [List.zip_cons_cons, List.zip_nil_right, List.lookup_cons, List.lookup_nil]
  cases hfirst : column == first with
  | false => rfl
  | true =>
      have hsecond : (column == second) = false := by
        rw [eq_of_beq hfirst]
        exact beq_false_of_ne hne
      rw [hsecond]

/-! ## Inserts -/

/-- `on conflict (key) do nothing`, or `do update` of the columns `set`, which is left
out for a row that agrees on the columns `guard`. -/
inductive Conflict where
  | nothing (key : List String)
  | update (key set guard : List String)
  deriving DecidableEq, Repr

/-- A tuple lists the numbers of its placeholders. -/
structure Insert (V : Type*) where
  table : String
  columns : List String
  tuples : List (List ℕ)
  conflict : Option Conflict
  binds : List V

def bindAt (binds : List V) : ℕ → Option V
  | 0 => none
  | number + 1 => binds[number]?

def Insert.placeholders (insert : Insert V) : List ℕ := insert.tuples.flatten

def Insert.rows (insert : Insert V) : List (Record V) :=
  insert.tuples.map fun tuple =>
    record insert.columns (tuple.filterMap (bindAt insert.binds))

/-- The server takes the statement: it has a tuple, each tuple has a value for each
column, and the placeholders are those of the binds, of which there are not too
many. -/
def Insert.Accepted (insert : Insert V) : Prop :=
  insert.tuples ≠ [] ∧
    (∀ tuple ∈ insert.tuples, tuple.length = insert.columns.length) ∧
    (∀ number ∈ insert.placeholders, 1 ≤ number ∧ number ≤ insert.binds.length) ∧
    (∀ number ∈ List.range' 1 insert.binds.length, number ∈ insert.placeholders) ∧
    insert.binds.length ≤ 65535

instance (insert : Insert V) : Decidable insert.Accepted :=
  inferInstanceAs (Decidable (_ ∧ _))

/-- Consecutive placeholders from `$1` on, as many as binds. -/
structure Insert.WellNumbered (insert : Insert V) : Prop where
  nonempty : insert.tuples ≠ []
  placeholders : insert.placeholders = List.range' 1 insert.binds.length
  params_le : insert.binds.length ≤ 65535

/-! ## Keys -/

/-- The key by which an insert looks for a row to keep or to update. -/
def Conflict.key : Conflict → List String
  | .nothing key => key
  | .update key _ _ => key

/-- No two rows have one key. -/
def Distinct (conflict : Option Conflict) (news : List (Record V)) : Prop :=
  ∀ clause ∈ conflict, (news.map clause.key.map).Nodup

/-- A row is neither inserted nor updated twice by one `do update`. -/
def Repeats (conflict : Option Conflict) (affected : List (Record V)) (new : Record V) : Prop :=
  match conflict with
  | some (.update key _ _) => key.map new ∈ affected.map key.map
  | _ => False

theorem Distinct.sublist
    {conflict : Option Conflict}
    {news news' : List (Record V)}
    (hdistinct : Distinct conflict news)
    (hsublist : news'.Sublist news) :
    Distinct conflict news' :=
  fun clause hclause => (hdistinct clause hclause).sublist (hsublist.map _)

/-- A `do update` meets each key once. -/
def UpdatesOnce (conflict : Option Conflict) (news : List (Record V)) : Prop :=
  match conflict with
  | some (.update key _ _) => (news.map key.map).Nodup
  | _ => True

theorem Distinct.updatesOnce
    {conflict : Option Conflict}
    {news : List (Record V)}
    (hdistinct : Distinct conflict news) :
    UpdatesOnce conflict news := by
  unfold UpdatesOnce
  split
  · exact hdistinct _ rfl
  · trivial

theorem UpdatesOnce.sublist
    {conflict : Option Conflict}
    {news news' : List (Record V)}
    (honce : UpdatesOnce conflict news)
    (hsublist : news'.Sublist news) :
    UpdatesOnce conflict news' := by
  unfold UpdatesOnce at honce ⊢
  split at honce
  · exact honce.sublist (hsublist.map _)
  · trivial

theorem not_repeats_of_updatesOnce
    {conflict : Option Conflict}
    {affected : List (Record V)}
    {new : Record V}
    (honce : UpdatesOnce conflict (affected ++ [new])) :
    ¬ Repeats conflict affected new := by
  intro hrepeats
  unfold Repeats at hrepeats
  split at hrepeats
  · next key set guard =>
    have hnodup : ((affected ++ [new]).map key.map).Nodup := honce
    rw [List.map_append, List.nodup_append] at hnodup
    exact hnodup.2.2 _ hrepeats _ (List.mem_singleton.mpr rfl) rfl
  · exact hrepeats

/-! ## Running a statement -/

def overwrite (set : List String) (old new : Record V) : Record V := fun column =>
  if column ∈ set then new column else old column

theorem map_overwrite
    {key set : List String}
    (hkey : ∀ column ∈ key, column ∉ set)
    (row new : Record V) :
    key.map (overwrite set row new) = key.map row :=
  List.map_congr_left fun column hcolumn => if_neg (hkey column hcolumn)

section Run

variable [DecidableEq V]

/-- The rows of the key of a new one take its values in some columns. -/
def overwriteKey (key set : List String) (rows : List (Record V)) (new : Record V) :
    List (Record V) :=
  rows.map fun row => if key.map row = key.map new then overwrite set row new else row

/-- The rows after a new one, and whether one was inserted or updated. -/
def addRow
    (conflict : Option Conflict)
    (rows : List (Record V))
    (new : Record V) : List (Record V) × Bool :=
  match conflict with
  | none => (rows ++ [new], true)
  | some (.nothing key) =>
      if key.map new ∈ rows.map key.map then (rows, false) else (rows ++ [new], true)
  | some (.update key set guard) =>
      match rows.find? fun old => key.map old = key.map new with
      | none => (rows ++ [new], true)
      | some old =>
          if guard.map old = guard.map new then (rows, false)
          else (overwriteKey key set rows new, true)

instance (conflict : Option Conflict) (affected : List (Record V)) (new : Record V) :
    Decidable (Repeats conflict affected new) :=
  match conflict with
  | none => inferInstanceAs (Decidable False)
  | some (.nothing _) => inferInstanceAs (Decidable False)
  | some (.update _ _ _) => inferInstanceAs (Decidable (_ ∈ _))

def insertRow
    (conflict : Option Conflict)
    (state : List (Record V) × List (Record V))
    (new : Record V) : Option (List (Record V) × List (Record V)) :=
  if Repeats conflict state.2 new then none
  else
    let added := addRow conflict state.1 new
    some (added.1, if added.2 then state.2 ++ [new] else state.2)

/-- The table afterwards, and the number of rows inserted or updated. -/
def Insert.run
    (insert : Insert V)
    (rows : List (Record V)) : Option (List (Record V) × ℕ) :=
  if insert.Accepted then
    (insert.rows.foldlM (insertRow insert.conflict) (rows, [])).map fun state =>
      (state.1, state.2.length)
  else none

inductive Statement (V : Type*) where
  | delete (table column : String) (values : List V)
  | insert (command : Insert V)

def Statement.table {V : Type*} : Statement V → String
  | .delete table _ _ => table
  | .insert command => command.table

/-- On the rows of the statement's table. -/
def Statement.run
    (statement : Statement V)
    (rows : List (Record V)) : Option (List (Record V) × ℕ) :=
  match statement with
  | .delete _ column values =>
      let kept := rows.filter fun row => row column ∉ values.map some
      some (kept, rows.length - kept.length)
  | .insert command => command.run rows

def runAll : List (Statement V) → List (Record V) → Option (List (Record V) × ℕ)
  | [], rows => some (rows, 0)
  | statement :: statements, rows =>
      (statement.run rows).bind fun done =>
        (runAll statements done.1).map fun rest => (rest.1, done.2 + rest.2)

theorem runAll_append
    {statements statements' : List (Statement V)}
    {rows rows' rows'' : List (Record V)}
    {count count' : ℕ}
    (hfirst : runAll statements rows = some (rows', count))
    (hsecond : runAll statements' rows' = some (rows'', count')) :
    runAll (statements ++ statements') rows = some (rows'', count + count') := by
  induction statements generalizing rows count with
  | nil =>
      cases hfirst
      rw [List.nil_append, hsecond, Nat.zero_add]
  | cons statement statements ih =>
      simp only [runAll, Option.bind_eq_some_iff, Option.map_eq_some_iff] at hfirst
      obtain ⟨done, hdone, ⟨last, counted⟩, hrest, heq⟩ := hfirst
      cases heq
      rw [List.cons_append, runAll, hdone, Option.bind_some, ih hrest, Option.map_some,
        Nat.add_assoc]

/-! ## What is added -/

variable {conflict : Option Conflict} {rows news : List (Record V)}

def addRows
    (conflict : Option Conflict)
    (rows news : List (Record V)) : List (Record V) :=
  news.foldl (fun rows new => (addRow conflict rows new).1) rows

def changes (conflict : Option Conflict) : List (Record V) → List (Record V) → ℕ
  | _, [] => 0
  | rows, new :: news =>
      (addRow conflict rows new).2.toNat + changes conflict (addRow conflict rows new).1 news

theorem addRows_append
    (news' : List (Record V)) :
    addRows conflict rows (news ++ news') = addRows conflict (addRows conflict rows news) news' :=
  List.foldl_append

theorem changes_append
    (news' : List (Record V)) :
    changes conflict rows (news ++ news') =
      changes conflict rows news + changes conflict (addRows conflict rows news) news' := by
  induction news generalizing rows with
  | nil => simp [changes, addRows]
  | cons new news ih =>
      have hcons : addRows conflict rows (new :: news) =
          addRows conflict (addRow conflict rows new).1 news := rfl
      rw [List.cons_append, changes, changes, ih, hcons, Nat.add_assoc]

theorem foldlM_insertRow
    {affected : List (Record V)}
    (honce : UpdatesOnce conflict (affected ++ news)) :
    (news.foldlM (insertRow conflict) (rows, affected)).map
        (fun state => (state.1, state.2.length)) =
      some (addRows conflict rows news, affected.length + changes conflict rows news) := by
  induction news generalizing rows affected with
  | nil => rfl
  | cons new news ih =>
      have hnot : ¬ Repeats conflict affected new :=
        not_repeats_of_updatesOnce (honce.sublist (by simp))
      rw [List.foldlM_cons, insertRow, if_neg hnot]
      simp only [Option.bind_eq_bind, Option.bind_some]
      cases hadded : (addRow conflict rows new).2 with
      | false =>
          have hrest : UpdatesOnce conflict (affected ++ news) := honce.sublist (by simp)
          rw [if_neg Bool.false_ne_true, ih hrest, changes, hadded]
          simp [addRows]
      | true =>
          have hrest : UpdatesOnce conflict ((affected ++ [new]) ++ news) := by simpa using honce
          rw [if_pos rfl, ih hrest, changes, hadded]
          simp [addRows, Nat.add_assoc]

variable (rows) in
theorem Insert.run_eq
    (insert : Insert V)
    (haccepted : insert.Accepted)
    (honce : UpdatesOnce insert.conflict insert.rows) :
    insert.run rows =
      some (addRows insert.conflict rows insert.rows,
        changes insert.conflict rows insert.rows) := by
  unfold Insert.run
  rw [if_pos haccepted, foldlM_insertRow, List.length_nil, Nat.zero_add]
  simpa using honce

theorem addRow_of_new
    {new : Record V}
    (hnew : ∀ clause ∈ conflict, clause.key.map new ∉ rows.map clause.key.map) :
    addRow conflict rows new = (rows ++ [new], true) := by
  cases conflict with
  | none => rfl
  | some clause =>
      have hkey := hnew clause rfl
      cases clause with
      | nothing key => exact if_neg hkey
      | update key set guard =>
          have hnone : (rows.find? fun old => key.map old = key.map new) = none := by
            rw [List.find?_eq_none]
            intro old hold heq
            exact hkey (List.mem_map.mpr ⟨old, hold, of_decide_eq_true heq⟩)
          simp only [addRow, hnone]

/-- Rows of keys the table does not have are added as they are. -/
theorem addRows_of_new
    (hdistinct : Distinct conflict news)
    (hnew : ∀ clause ∈ conflict, ∀ new ∈ news, clause.key.map new ∉ rows.map clause.key.map) :
    addRows conflict rows news = rows ++ news := by
  induction news generalizing rows with
  | nil => simp [addRows]
  | cons new news ih =>
      have hfirst := addRow_of_new fun clause hclause => hnew clause hclause new (by simp)
      have hrest : ∀ clause ∈ conflict, ∀ later ∈ news,
          clause.key.map later ∉ (rows ++ [new]).map clause.key.map := by
        intro clause hclause later hlater hmem
        rw [List.map_append, List.mem_append] at hmem
        cases hmem with
        | inl hold => exact hnew clause hclause later (by simp [hlater]) hold
        | inr hsame =>
            have hnodup := hdistinct clause hclause
            rw [List.map_cons, List.nodup_cons] at hnodup
            rw [List.map_singleton, List.mem_singleton] at hsame
            exact hnodup.1 (hsame ▸ List.mem_map_of_mem hlater)
      have hcons : addRows conflict rows (new :: news) =
          addRows conflict (addRow conflict rows new).1 news := rfl
      rw [hcons, hfirst, ih (hdistinct.sublist (by simp)) hrest]
      simp

/-- Rows that stand for items are inserted like the items, each key once. -/
theorem addRows_nothing_map
    {α κ : Type*}
    {columns : List String}
    {record : α → Record V}
    {key : α → κ}
    {insert : List α → α → List α}
    (hkey : ∀ item item', columns.map (record item) = columns.map (record item') ↔
      key item = key item')
    (hkept : ∀ items item, key item ∈ items.map key → insert items item = items)
    (hadded : ∀ items item, key item ∉ items.map key → insert items item = items ++ [item])
    (items items' : List α) :
    addRows (some (.nothing columns)) (items.map record) (items'.map record) =
      (items'.foldl insert items).map record := by
  induction items' generalizing items with
  | nil => rfl
  | cons item items' ih =>
      have hmem : columns.map (record item) ∈ (items.map record).map columns.map ↔
          key item ∈ items.map key := by
        simp only [List.map_map, List.mem_map, Function.comp, hkey]
      have hcons : addRows (some (.nothing columns)) (items.map record)
          ((item :: items').map record) =
            addRows (some (.nothing columns))
              (addRow (some (.nothing columns)) (items.map record) (record item)).1
              (items'.map record) := rfl
      rw [hcons, List.foldl_cons, ← ih]
      unfold addRow
      dsimp only
      by_cases hold : key item ∈ items.map key
      · rw [hkept items item hold, if_pos (hmem.mpr hold)]
      · rw [hadded items item hold, if_neg fun h => hold (hmem.mp h), List.map_append]
        rfl

/-! ## Upserts -/

section Upsert

variable {key set guard : List String} {new : Record V}

variable (rows key set guard new) in
/-- The three ways in which an upsert ends. -/
theorem addRow_update_cases :
    (key.map new ∉ rows.map key.map ∧
      addRow (some (.update key set guard)) rows new = (rows ++ [new], true)) ∨
    (∃ old ∈ rows, key.map old = key.map new ∧ guard.map old = guard.map new ∧
      addRow (some (.update key set guard)) rows new = (rows, false)) ∨
    (∃ old ∈ rows, key.map old = key.map new ∧
      addRow (some (.update key set guard)) rows new = (overwriteKey key set rows new, true)) := by
  cases hfind : rows.find? fun old => key.map old = key.map new with
  | none =>
      left
      refine ⟨fun hmem => ?_, by simp only [addRow, hfind]⟩
      obtain ⟨old, hold, heq⟩ := List.mem_map.mp hmem
      exact List.find?_eq_none.mp hfind old hold (decide_eq_true heq)
  | some old =>
      right
      have hold := List.mem_of_find?_eq_some hfind
      have hsame := List.find?_some hfind
      rw [decide_eq_true_eq] at hsame
      by_cases hguard : guard.map old = guard.map new
      · exact Or.inl ⟨old, hold, hsame, hguard, by simp only [addRow, hfind, hguard, if_true]⟩
      · exact Or.inr ⟨old, hold, hsame, by simp only [addRow, hfind, hguard, if_false]⟩

theorem map_overwriteKey
    (hkey : ∀ column ∈ key, column ∉ set) :
    (overwriteKey key set rows new).map key.map = rows.map key.map := by
  unfold overwriteKey
  rw [List.map_map]
  refine List.map_congr_left fun row _ => ?_
  simp only [Function.comp]
  split
  · exact map_overwrite hkey row new
  · rfl

theorem filter_overwriteKey
    (hkey : ∀ column ∈ key, column ∉ set)
    {keep : List (Option V) → Bool}
    (hkeep : keep (key.map new) = false) :
    (overwriteKey key set rows new).filter (fun row => keep (key.map row)) =
      rows.filter fun row => keep (key.map row) := by
  unfold overwriteKey
  rw [List.filter_map]
  have hsame : ∀ row ∈ rows, ((fun row => keep (key.map row)) ∘ fun row =>
      if key.map row = key.map new then overwrite set row new else row) row =
        keep (key.map row) := by
    intro row _
    simp only [Function.comp]
    split
    · rw [map_overwrite hkey row new]
    · rfl
  rw [List.filter_congr hsame]
  have hfixed : ∀ row ∈ rows.filter (fun row => keep (key.map row)),
      (if key.map row = key.map new then overwrite set row new else row) = row := by
    intro row hrow
    refine if_neg fun heq => ?_
    have hkept := (List.mem_filter.mp hrow).2
    rw [heq, hkeep] at hkept
    cases hkept
  rw [List.map_congr_left hfixed, List.map_id']

section Step

variable (hkey : ∀ column ∈ key, column ∉ set)

include hkey

variable (rows guard new) in
theorem addRow_update_filter
    (keep : List (Option V) → Bool)
    (hkeep : keep (key.map new) = false) :
    (addRow (some (.update key set guard)) rows new).1.filter (fun row => keep (key.map row)) =
      rows.filter fun row => keep (key.map row) := by
  rcases addRow_update_cases rows key set guard new with ⟨_, heq⟩ | ⟨old, _, _, _, heq⟩ |
    ⟨old, _, _, heq⟩
  · rw [heq, List.filter_append, List.filter_singleton, hkeep]
    simp
  · rw [heq]
  · rw [heq]
    exact filter_overwriteKey hkey hkeep

theorem addRow_update_nodup
    (hrows : (rows.map key.map).Nodup) :
    ((addRow (some (.update key set guard)) rows new).1.map key.map).Nodup := by
  rcases addRow_update_cases rows key set guard new with ⟨hnew, heq⟩ | ⟨old, _, _, _, heq⟩ |
    ⟨old, _, _, heq⟩
  · rw [heq, List.map_append, List.map_singleton, ← List.concat_eq_append]
    exact hrows.concat hnew
  · rwa [heq]
  · rw [heq, map_overwriteKey hkey]
    exact hrows

/-- The row of the key has the new values afterwards, whether or not it is written. -/
theorem exists_mem_addRow_update
    (hguard : ∀ column ∈ guard, column ∈ set) :
    ∃ row ∈ (addRow (some (.update key set guard)) rows new).1,
      key.map row = key.map new ∧ guard.map row = guard.map new := by
  rcases addRow_update_cases rows key set guard new with ⟨hnew, heq⟩ |
    ⟨old, hold, hsame, hvalues, heq⟩ | ⟨old, hold, hsame, heq⟩
  · rw [heq]
    exact ⟨new, by simp, rfl, rfl⟩
  · rw [heq]
    exact ⟨old, hold, hsame, hvalues⟩
  · rw [heq]
    refine ⟨overwrite set old new, List.mem_map.mpr ⟨old, hold, if_pos hsame⟩, ?_, ?_⟩
    · rw [map_overwrite hkey, hsame]
    · exact List.map_congr_left fun column hcolumn => if_pos (hguard column hcolumn)

end Step

theorem mem_addRow_update_of_ne
    {row : Record V}
    (hrow : row ∈ rows)
    (hne : key.map row ≠ key.map new) :
    row ∈ (addRow (some (.update key set guard)) rows new).1 := by
  rcases addRow_update_cases rows key set guard new with ⟨_, heq⟩ | ⟨old, _, _, _, heq⟩ |
    ⟨old, _, _, heq⟩
  · rw [heq]
    exact List.mem_append_left _ hrow
  · rwa [heq]
  · rw [heq]
    exact List.mem_map.mpr ⟨row, hrow, if_neg hne⟩

/-- The keys stay distinct, each new row has its values, and the rows of other keys
are what they were. -/
structure Upserted
    (key guard : List String)
    (rows news rows' : List (Record V)) : Prop where
  keys : (rows'.map key.map).Nodup
  given : ∀ new ∈ news, ∃ row ∈ rows',
    key.map row = key.map new ∧ guard.map row = guard.map new
  others : rows'.filter (fun row => key.map row ∉ news.map key.map) =
    rows.filter fun row => key.map row ∉ news.map key.map

variable (rows news) in
theorem upserted_addRows
    (hkey : ∀ column ∈ key, column ∉ set)
    (hguard : ∀ column ∈ guard, column ∈ set)
    (hrows : (rows.map key.map).Nodup)
    (hnews : (news.map key.map).Nodup) :
    Upserted key guard rows news (addRows (some (.update key set guard)) rows news) := by
  induction news using List.reverseRecOn with
  | nil => exact ⟨hrows, nofun, rfl⟩
  | append_singleton news new ih =>
      rw [List.map_append, List.nodup_append] at hnews
      have hbefore := ih hnews.1
      have hfresh : ∀ earlier ∈ news, key.map earlier ≠ key.map new := by
        intro earlier hearlier
        exact hnews.2.2 _ (List.mem_map_of_mem hearlier) _ (by simp)
      have hlast : addRows (some (.update key set guard)) rows (news ++ [new]) =
          (addRow (some (.update key set guard))
            (addRows (some (.update key set guard)) rows news) new).1 := by
        rw [addRows_append]
        rfl
      rw [hlast]
      constructor
      · exact addRow_update_nodup hkey hbefore.keys
      · intro given hgiven
        rw [List.mem_append, List.mem_singleton] at hgiven
        cases hgiven with
        | inl hearlier =>
            obtain ⟨row, hrow, hsame, hvalues⟩ := hbefore.given given hearlier
            refine ⟨row, mem_addRow_update_of_ne hrow ?_, hsame, hvalues⟩
            rw [hsame]
            exact hfresh given hearlier
        | inr hnew =>
            subst hnew
            exact exists_mem_addRow_update hkey hguard
      · have hstep := addRow_update_filter
          (addRows (some (.update key set guard)) rows news) guard new hkey
          (fun values => decide (values ∉ (news ++ [new]).map key.map)) (by simp)
        have hsplit : ∀ rows : List (Record V),
            rows.filter (fun row => key.map row ∉ (news ++ [new]).map key.map) =
              (rows.filter fun row => key.map row ∉ news.map key.map).filter
                fun row => key.map row ≠ key.map new := by
          intro rows
          rw [List.filter_filter]
          refine List.filter_congr fun row _ => ?_
          rw [Bool.eq_iff_iff]
          simp [and_comm]
        rw [hstep, hsplit, hsplit rows, hbefore.others]

/-- Rows the table has already change nothing. -/
theorem addRows_of_upserted
    (set : List String)
    {rows' : List (Record V)}
    (hupserted : Upserted key guard rows news rows') :
    addRows (some (.update key set guard)) rows' news = rows' ∧
      changes (some (.update key set guard)) rows' news = 0 := by
  have hkept : ∀ new ∈ news, addRow (some (.update key set guard)) rows' new = (rows', false) := by
    intro new hnew
    obtain ⟨row, hrow, hsame, hvalues⟩ := hupserted.given new hnew
    have hfind : (rows'.find? fun old => key.map old = key.map new) = some row := by
      cases hfound : rows'.find? fun old => key.map old = key.map new with
      | none => exact absurd (decide_eq_true hsame) (List.find?_eq_none.mp hfound row hrow)
      | some old =>
          have hold := List.find?_some hfound
          rw [decide_eq_true_eq] at hold
          have heq := List.inj_on_of_nodup_map hupserted.keys
            (List.mem_of_find?_eq_some hfound) hrow (hold.trans hsame.symm)
          rw [heq]
    simp only [addRow, hfind, hvalues, if_true]
  have hall : ∀ news' : List (Record V), (∀ new ∈ news', new ∈ news) →
      addRows (some (.update key set guard)) rows' news' = rows' ∧
        changes (some (.update key set guard)) rows' news' = 0 := by
    intro news'
    induction news' with
    | nil => exact fun _ => ⟨rfl, rfl⟩
    | cons new news' ih =>
        intro hmem
        have hfirst := hkept new (hmem new List.mem_cons_self)
        have hrest := ih fun later hlater => hmem later (List.mem_cons_of_mem _ hlater)
        constructor
        · have hcons : addRows (some (.update key set guard)) rows' (new :: news') =
              addRows (some (.update key set guard))
                (addRow (some (.update key set guard)) rows' new).1 news' := rfl
          rw [hcons, hfirst]
          exact hrest.1
        · rw [changes, hfirst]
          simpa using hrest.2
  exact hall news fun _ hmem => hmem

end Upsert

end Run

end SqlStatements
