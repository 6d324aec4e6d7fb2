import Mathlib.Data.List.Infix
import Mathlib.Logic.Function.Basic
import Mathlib.Tactic

/-!
# Statements over a catalog

A schema is a list of statements that create tables and indexes where they do not exist
yet.  A batch of statements ends at the first one that fails.  When each statement of a
schema only needs what the statements before it create, a batch of them never fails on a
catalog that holds nothing but parts of the schema, and adds exactly what is missing.
Tables may be dropped as long as no table is left that refers to them.
-/

namespace SchemaCatalog

structure ForeignKey (T : Type*) where
  columns : List String
  table : T
  tableColumns : List String
  deriving DecidableEq, Repr

structure TableDef (T : Type*) where
  columns : List String
  keys : List (List String)
  foreignKeys : List (ForeignKey T)
  deriving DecidableEq, Repr

structure IndexDef (T : Type*) where
  table : T
  columns : List String
  unique : Bool
  deriving DecidableEq, Repr

/-- Everything is created `if not exists`, and dropped `if exists` and `cascade`. -/
inductive Statement (T N : Type*) where
  | createExtension (name : String)
  | createTable (table : T) (definition : TableDef T)
  | createIndex (name : N) (definition : IndexDef T)
  | setStorage (table : T) (column : String)
  | setOptions (table : T)
  | addColumn (table : T) (column : String)
  | dropTable (table : T)
  deriving DecidableEq, Repr

structure Catalog (T N : Type*) where
  extensions : String → Bool
  tables : T → Option (TableDef T)
  indexes : N → Option (IndexDef T)

variable {T N : Type*}

def Catalog.empty : Catalog T N := ⟨fun _ => false, fun _ => none, fun _ => none⟩

def Catalog.HasColumns (catalog : Catalog T N) (table : T) (columns : List String) : Prop :=
  ∃ definition ∈ catalog.tables table, columns ⊆ definition.columns

instance (catalog : Catalog T N) (table : T) (columns : List String) :
    Decidable (catalog.HasColumns table columns) :=
  inferInstanceAs (Decidable (∃ definition ∈ catalog.tables table, _))

/-- The columns referred to are a key of their table. -/
def Catalog.HasKey (catalog : Catalog T N) (key : ForeignKey T) : Prop :=
  ∃ definition ∈ catalog.tables key.table, key.tableColumns ∈ definition.keys

instance (catalog : Catalog T N) (key : ForeignKey T) : Decidable (catalog.HasKey key) :=
  inferInstanceAs (Decidable (∃ definition ∈ catalog.tables key.table, _))

variable [DecidableEq T] [DecidableEq N]

def TableDef.withoutKeysTo (definition : TableDef T) (table : T) : TableDef T :=
  { definition with foreignKeys := definition.foreignKeys.filter (·.table ≠ table) }

/-- A dropped table takes its indexes with it, and the foreign keys that refer to it. -/
def Catalog.drop (catalog : Catalog T N) (table : T) : Catalog T N where
  extensions := catalog.extensions
  tables other :=
    if other = table then none else (catalog.tables other).map (·.withoutKeysTo table)
  indexes name := (catalog.indexes name).filter (·.table ≠ table)

def Statement.run (catalog : Catalog T N) : Statement T N → Option (Catalog T N)
  | .createExtension name =>
      some { catalog with extensions := Function.update catalog.extensions name true }
  | .createTable table definition =>
      if (catalog.tables table).isSome then some catalog
      else if ∀ key ∈ definition.foreignKeys, catalog.HasKey key then
        some { catalog with tables := Function.update catalog.tables table (some definition) }
      else none
  | .createIndex name definition =>
      if (catalog.indexes name).isSome then some catalog
      else if catalog.HasColumns definition.table definition.columns then
        some { catalog with indexes := Function.update catalog.indexes name (some definition) }
      else none
  | .setStorage table column => if catalog.HasColumns table [column] then some catalog else none
  | .setOptions table => if (catalog.tables table).isSome then some catalog else none
  | .addColumn table column =>
      (catalog.tables table).map fun definition =>
        if column ∈ definition.columns then catalog
        else
          let extended := { definition with columns := definition.columns ++ [column] }
          { catalog with tables := Function.update catalog.tables table (some extended) }
  | .dropTable table =>
      if (catalog.tables table).isSome then some (catalog.drop table) else some catalog

/-- Where the batch has come to, and whether to its end. -/
def executeBatch (catalog : Catalog T N) : List (Statement T N) → Catalog T N × Bool
  | [] => (catalog, true)
  | statement :: rest =>
      match statement.run catalog with
      | none => (catalog, false)
      | some next => executeBatch next rest

theorem executeBatch_append
    {catalog catalog' : Catalog T N}
    {first : List (Statement T N)}
    (hfirst : executeBatch catalog first = (catalog', true))
    (rest : List (Statement T N)) :
    executeBatch catalog (first ++ rest) = executeBatch catalog' rest := by
  induction first generalizing catalog with
  | nil =>
      cases hfirst
      rfl
  | cons statement first ih =>
      rw [List.cons_append, executeBatch]
      rw [executeBatch] at hfirst
      cases hrun : statement.run catalog with
      | none => simp [hrun] at hfirst
      | some next =>
          rw [hrun] at hfirst
          exact ih hfirst

/-! ## Schemas -/

/-- The definition that the first of the statements for a table gives it. -/
def tableIn (statements : List (Statement T N)) (table : T) : Option (TableDef T) :=
  statements.findSome? fun
    | .createTable other definition => if other = table then some definition else none
    | _ => none

/-- What is there stays as it is. -/
structure Catalog.Extends (catalog catalog' : Catalog T N) : Prop where
  extensions : ∀ name, catalog.extensions name = true → catalog'.extensions name = true
  tables : ∀ table definition, catalog.tables table = some definition →
    catalog'.tables table = some definition
  indexes : ∀ name definition, catalog.indexes name = some definition →
    catalog'.indexes name = some definition

/-- What a statement needs is created by one of the statements before it. -/
def Statement.Supported (before : List (Statement T N)) : Statement T N → Prop
  | .createExtension _ => True
  | .createTable _ definition => ∀ key ∈ definition.foreignKeys,
      ∃ target ∈ tableIn before key.table, key.tableColumns ∈ target.keys
  | .createIndex _ definition =>
      ∃ target ∈ tableIn before definition.table, definition.columns ⊆ target.columns
  | .setStorage table column | .addColumn table column =>
      ∃ target ∈ tableIn before table, column ∈ target.columns
  | .setOptions table => (tableIn before table).isSome
  | .dropTable _ => False

instance (before : List (Statement T N)) (statement : Statement T N) :
    Decidable (statement.Supported before) := by
  unfold Statement.Supported
  split <;> infer_instance

/-- Nothing but parts of the schema, and with each of them what it stands on. -/
structure Sound (ddl : List (Statement T N)) (catalog : Catalog T N) : Prop where
  extensions : ∀ name, catalog.extensions name = true → .createExtension name ∈ ddl
  tables : ∀ table definition, catalog.tables table = some definition →
    .createTable table definition ∈ ddl
  indexes : ∀ name definition, catalog.indexes name = some definition →
    .createIndex name definition ∈ ddl ∧ (catalog.tables definition.table).isSome
  closed : ∀ table definition, catalog.tables table = some definition →
    ∀ key ∈ definition.foreignKeys, (catalog.tables key.table).isSome

/-- What these statements create is there. -/
structure Created (statements : List (Statement T N)) (catalog : Catalog T N) : Prop where
  extensions : ∀ name, .createExtension name ∈ statements → catalog.extensions name = true
  tables : ∀ table definition, .createTable table definition ∈ statements →
    catalog.tables table = some definition
  indexes : ∀ name definition, .createIndex name definition ∈ statements →
    catalog.indexes name = some definition

/-- Each statement is supported by `before` and the statements in front of it. -/
def SupportedFrom (before : List (Statement T N)) : List (Statement T N) → Prop
  | [] => True
  | statement :: rest => statement.Supported before ∧ SupportedFrom (before ++ [statement]) rest

instance decidableSupportedFrom (before : List (Statement T N)) :
    (statements : List (Statement T N)) → Decidable (SupportedFrom before statements)
  | [] => inferInstanceAs (Decidable True)
  | statement :: rest =>
      have := decidableSupportedFrom (before ++ [statement]) rest
      inferInstanceAs (Decidable (_ ∧ _))

/-- A name stands for one definition, and each statement for what is there already. -/
structure WellFormed (ddl : List (Statement T N)) : Prop where
  tables : ∀ table definition definition', .createTable table definition ∈ ddl →
    .createTable table definition' ∈ ddl → definition = definition'
  indexes : ∀ name definition definition', .createIndex name definition ∈ ddl →
    .createIndex name definition' ∈ ddl → definition = definition'
  supported : SupportedFrom [] ddl

def Statement.createdTable : Statement T N → Option T
  | .createTable table _ => some table
  | _ => none

def Statement.createdIndex : Statement T N → Option N
  | .createIndex name _ => some name
  | _ => none

section Schema

variable
  {ddl before after : List (Statement T N)}
  {statement : Statement T N}
  {catalog catalog' : Catalog T N}

omit [DecidableEq N] in
theorem mem_of_tableIn
    {statements : List (Statement T N)}
    {table : T}
    {definition : TableDef T}
    (hdefined : tableIn statements table = some definition) :
    .createTable table definition ∈ statements := by
  obtain ⟨statement, hmem, hstatement⟩ := List.exists_of_findSome?_eq_some hdefined
  cases statement with
  | createTable other definition' =>
      obtain ⟨rfl, hsame⟩ := Option.ite_none_right_eq_some.mp hstatement
      cases hsame
      exact hmem
  | _ => cases hstatement

omit [DecidableEq T] [DecidableEq N] in
theorem eq_of_filterMap_nodup
    {M : Type*}
    {created : Statement T N → Option M}
    (hnodup : (ddl.filterMap created).Nodup)
    {name : M}
    {left right : Statement T N}
    (hleft : left ∈ ddl)
    (hright : right ∈ ddl)
    (hleftName : created left = some name)
    (hrightName : created right = some name) :
    left = right := by
  induction ddl with
  | nil => cases hleft
  | cons first rest ih =>
      have hmem : ∀ statement ∈ rest, created statement = some name →
          name ∈ rest.filterMap created :=
        fun statement hstatement hname => List.mem_filterMap.mpr ⟨statement, hstatement, hname⟩
      cases hfirst : created first with
      | none =>
          rw [List.filterMap_cons_none hfirst] at hnodup
          have hne : ∀ {statement}, created statement = some name → statement ∈ first :: rest →
              statement ∈ rest := by
            intro statement hname hstatement
            rcases List.mem_cons.mp hstatement with rfl | hrest
            · cases hfirst.symm.trans hname
            · exact hrest
          exact ih hnodup (hne hleftName hleft) (hne hrightName hright)
      | some other =>
          rw [List.filterMap_cons_some hfirst, List.nodup_cons] at hnodup
          rcases List.mem_cons.mp hleft with rfl | hleftRest <;>
            rcases List.mem_cons.mp hright with rfl | hrightRest
          · rfl
          · cases hfirst.symm.trans hleftName
            exact absurd (hmem right hrightRest hrightName) hnodup.1
          · cases hfirst.symm.trans hrightName
            exact absurd (hmem left hleftRest hleftName) hnodup.1
          · exact ih hnodup.2 hleftRest hrightRest

omit [DecidableEq N] in
theorem WellFormed.of_nodup
    (htables : (ddl.filterMap Statement.createdTable).Nodup)
    (hindexes : (ddl.filterMap Statement.createdIndex).Nodup)
    (hsupported : SupportedFrom [] ddl) :
    WellFormed ddl where
  tables table definition definition' hmem hmem' := by
    have hsame := eq_of_filterMap_nodup htables hmem hmem' rfl rfl
    exact (Statement.createTable.inj hsame).2
  indexes name definition definition' hmem hmem' := by
    have hsame := eq_of_filterMap_nodup hindexes hmem hmem' rfl rfl
    exact (Statement.createIndex.inj hsame).2
  supported := hsupported

omit [DecidableEq T] [DecidableEq N] in
theorem sound_empty
    (ddl : List (Statement T N)) :
    Sound ddl .empty :=
  ⟨nofun, nofun, nofun, nofun⟩

omit [DecidableEq N] in
/-- A table that has been created is found with its declared columns. -/
theorem Created.hasColumns
    (hcreated : Created before catalog)
    {table : T}
    {target : TableDef T}
    (htarget : target ∈ tableIn before table)
    {columns : List String}
    (hcolumns : columns ⊆ target.columns) :
    catalog.HasColumns table columns :=
  ⟨target, hcreated.tables table target (mem_of_tableIn htarget), hcolumns⟩

omit [DecidableEq T] [DecidableEq N] in
theorem Created.mono
    (hcreated : Created before catalog)
    (hextends : catalog.Extends catalog') :
    Created before catalog' where
  extensions name hmem := hextends.extensions name (hcreated.extensions name hmem)
  tables table definition hmem :=
    hextends.tables table definition (hcreated.tables table definition hmem)
  indexes name definition hmem :=
    hextends.indexes name definition (hcreated.indexes name definition hmem)

omit [DecidableEq T] [DecidableEq N] in
theorem Created.concat
    (hcreated : Created before catalog)
    (hstatement : Created [statement] catalog) :
    Created (before ++ [statement]) catalog where
  extensions name hmem := (List.mem_append.mp hmem).elim
    (hcreated.extensions name) (hstatement.extensions name)
  tables table definition hmem := (List.mem_append.mp hmem).elim
    (hcreated.tables table definition) (hstatement.tables table definition)
  indexes name definition hmem := (List.mem_append.mp hmem).elim
    (hcreated.indexes name definition) (hstatement.indexes name definition)

omit [DecidableEq N] in
theorem extends_addTable
    {table : T}
    {definition : TableDef T}
    (hnone : catalog.tables table = none) :
    catalog.Extends { catalog with
      tables := Function.update catalog.tables table (some definition) } where
  extensions _ := id
  tables other definition' hother := by
    have hne : other ≠ table := by
      rintro rfl
      cases hnone.symm.trans hother
    exact (Function.update_of_ne hne _ _).trans hother
  indexes _ _ := id

omit [DecidableEq N] in
theorem Sound.addTable
    {table : T}
    {definition : TableDef T}
    (hsound : Sound ddl catalog)
    (hmem : .createTable table definition ∈ ddl)
    (hnone : catalog.tables table = none)
    (hkeys : ∀ key ∈ definition.foreignKeys, catalog.HasKey key) :
    Sound ddl { catalog with
      tables := Function.update catalog.tables table (some definition) } := by
  have hkept : ∀ other, (catalog.tables other).isSome →
      (Function.update catalog.tables table (some definition) other).isSome := by
    intro other hother
    obtain ⟨definition', hdefinition'⟩ := Option.isSome_iff_exists.mp hother
    exact Option.isSome_iff_exists.mpr
      ⟨definition', (extends_addTable hnone).tables other definition' hdefinition'⟩
  refine ⟨hsound.extensions, fun other definition' hother => ?_, fun name index hindex => ?_,
    fun other definition' hother key hkey => hkept key.table ?_⟩
  · by_cases htable : other = table
    · subst htable
      cases (Function.update_self other _ _).symm.trans hother
      exact hmem
    · exact hsound.tables other definition' ((Function.update_of_ne htable _ _).symm.trans hother)
  · exact (hsound.indexes name index hindex).imp_right (hkept index.table)
  · by_cases htable : other = table
    · subst htable
      cases (Function.update_self other _ _).symm.trans hother
      obtain ⟨target, htarget, _⟩ := hkeys key hkey
      exact Option.isSome_iff_exists.mpr ⟨target, htarget⟩
    · exact hsound.closed other definition'
        ((Function.update_of_ne htable _ _).symm.trans hother) key hkey

omit [DecidableEq T] in
theorem extends_addIndex
    {name : N}
    {definition : IndexDef T}
    (hnone : catalog.indexes name = none) :
    catalog.Extends { catalog with
      indexes := Function.update catalog.indexes name (some definition) } where
  extensions _ := id
  tables _ _ := id
  indexes other definition' hother := by
    have hne : other ≠ name := by
      rintro rfl
      cases hnone.symm.trans hother
    exact (Function.update_of_ne hne _ _).trans hother

omit [DecidableEq T] in
theorem Sound.addIndex
    {name : N}
    {definition : IndexDef T}
    (hsound : Sound ddl catalog)
    (hmem : .createIndex name definition ∈ ddl)
    (htable : (catalog.tables definition.table).isSome) :
    Sound ddl { catalog with
      indexes := Function.update catalog.indexes name (some definition) } := by
  refine ⟨hsound.extensions, hsound.tables, fun other index hother => ?_, hsound.closed⟩
  by_cases hname : other = name
  · subst hname
    cases (Function.update_self other _ _).symm.trans hother
    exact ⟨hmem, htable⟩
  · exact hsound.indexes other index ((Function.update_of_ne hname _ _).symm.trans hother)

/-- A statement of the schema, behind those before it, adds itself where it is missing. -/
theorem created_run
    (hwellFormed : WellFormed ddl)
    (hmem : statement ∈ ddl)
    (hsupported : statement.Supported before)
    (hsound : Sound ddl catalog)
    (hcreated : Created before catalog) :
    ∃ catalog', statement.run catalog = some catalog' ∧ Sound ddl catalog' ∧
      Created (before ++ [statement]) catalog' := by
  cases statement with
  | createExtension name =>
      have hextends : catalog.Extends { catalog with
          extensions := Function.update catalog.extensions name true } := by
        refine ⟨fun other hother => ?_, fun _ _ => id, fun _ _ => id⟩
        by_cases hname : other = name
        · simp [hname]
        · simpa [Function.update_of_ne hname] using hother
      refine ⟨_, rfl, ⟨fun other hother => ?_, hsound.tables, hsound.indexes, hsound.closed⟩,
        (hcreated.mono hextends).concat ⟨fun other hother => ?_, by simp, by simp⟩⟩
      · by_cases hname : other = name
        · exact hname ▸ hmem
        · exact hsound.extensions other ((Function.update_of_ne hname _ _).symm.trans hother)
      · cases List.mem_singleton.mp hother
        exact Function.update_self _ _ _
  | createTable table definition =>
      cases htable : catalog.tables table with
      | some existing =>
          have hsame := hwellFormed.tables table _ _ (hsound.tables table existing htable) hmem
          subst hsame
          refine ⟨catalog, ?_, hsound, hcreated.concat ⟨by simp, by simp [htable], by simp⟩⟩
          simp [Statement.run, htable]
      | none =>
          have hkeys : ∀ key ∈ definition.foreignKeys, catalog.HasKey key := by
            intro key hkey
            obtain ⟨target, htarget, hcolumns⟩ := hsupported key hkey
            exact ⟨target, hcreated.tables _ _ (mem_of_tableIn htarget), hcolumns⟩
          refine ⟨{ catalog with
              tables := Function.update catalog.tables table (some definition) }, ?_,
            hsound.addTable hmem htable hkeys,
            (hcreated.mono (extends_addTable htable)).concat ⟨by simp, by simp, by simp⟩⟩
          rw [Statement.run, htable, if_neg (by simp), if_pos hkeys]
  | createIndex name definition =>
      cases hindex : catalog.indexes name with
      | some existing =>
          have hsame := hwellFormed.indexes name _ _ (hsound.indexes name existing hindex).1 hmem
          subst hsame
          refine ⟨catalog, ?_, hsound, hcreated.concat ⟨by simp, by simp, by simp [hindex]⟩⟩
          simp [Statement.run, hindex]
      | none =>
          obtain ⟨target, htarget, hcolumns⟩ := hsupported
          have hhas := hcreated.hasColumns htarget hcolumns
          have htable := hcreated.tables _ _ (mem_of_tableIn htarget)
          refine ⟨{ catalog with
              indexes := Function.update catalog.indexes name (some definition) }, ?_,
            hsound.addIndex hmem (Option.isSome_iff_exists.mpr ⟨target, htable⟩),
            (hcreated.mono (extends_addIndex hindex)).concat ⟨by simp, by simp, by simp⟩⟩
          rw [Statement.run, hindex, if_neg (by simp), if_pos hhas]
  | setStorage table column =>
      obtain ⟨target, htarget, hcolumn⟩ := hsupported
      have hhas := hcreated.hasColumns htarget (List.cons_subset.mpr ⟨hcolumn, List.nil_subset _⟩)
      exact ⟨catalog, if_pos hhas, hsound, hcreated.concat ⟨by simp, by simp, by simp⟩⟩
  | setOptions table =>
      obtain ⟨target, htarget⟩ := Option.isSome_iff_exists.mp hsupported
      have htable := hcreated.tables table target (mem_of_tableIn htarget)
      exact ⟨catalog, if_pos (Option.isSome_iff_exists.mpr ⟨target, htable⟩), hsound,
        hcreated.concat ⟨by simp, by simp, by simp⟩⟩
  | addColumn table column =>
      obtain ⟨target, htarget, hcolumn⟩ := hsupported
      have htable := hcreated.tables table target (mem_of_tableIn htarget)
      refine ⟨catalog, ?_, hsound, hcreated.concat ⟨by simp, by simp, by simp⟩⟩
      simp [Statement.run, htable, hcolumn]
  | dropTable table => exact hsupported.elim

omit [DecidableEq T] [DecidableEq N] in
theorem created_nil
    (catalog : Catalog T N) :
    Created [] catalog :=
  ⟨nofun, nofun, nofun⟩

/-- From every sound catalog statements of the schema run to where they are cut off, and
leave a sound catalog with all that they create. -/
theorem created_executeBatch
    (hwellFormed : WellFormed ddl)
    (hmem : ∀ statement ∈ after, statement ∈ ddl)
    (hsupported : SupportedFrom before after)
    (hsound : Sound ddl catalog)
    (hcreated : Created before catalog)
    (cut : ℕ) :
    ∃ catalog', executeBatch catalog (after.take cut) = (catalog', true) ∧ Sound ddl catalog' ∧
      Created (before ++ after.take cut) catalog' := by
  induction after generalizing before catalog cut with
  | nil => exact ⟨catalog, by simp [executeBatch], hsound, by simpa using hcreated⟩
  | cons statement after ih =>
      cases cut with
      | zero => exact ⟨catalog, rfl, hsound, by simpa using hcreated⟩
      | succ cut =>
          obtain ⟨hstatement, hafter⟩ := List.forall_mem_cons.mp hmem
          obtain ⟨middle, hrun, hmiddle, hcreated'⟩ :=
            created_run hwellFormed hstatement hsupported.1 hsound hcreated
          obtain ⟨catalog', hrest, hsound', hcreated''⟩ :=
            ih hafter hsupported.2 hmiddle hcreated' cut
          refine ⟨catalog', ?_, hsound', ?_⟩
          · rw [List.take_succ_cons, executeBatch, hrun]
            exact hrest
          · rwa [List.append_assoc, List.singleton_append] at hcreated''

/-- The whole schema. -/
theorem created_ddl
    (hwellFormed : WellFormed ddl)
    (hsound : Sound ddl catalog) :
    ∃ catalog', executeBatch catalog ddl = (catalog', true) ∧ Sound ddl catalog' ∧
      Created ddl catalog' := by
  have hcreated := created_executeBatch hwellFormed (fun _ => id) hwellFormed.supported hsound
    (created_nil catalog) ddl.length
  rwa [List.take_length, List.nil_append] at hcreated

omit [DecidableEq T] [DecidableEq N] in
/-- A sound catalog with the whole schema is the only one. -/
theorem Sound.eq_of_created
    (hsound : Sound ddl catalog)
    (hcreated : Created ddl catalog)
    (hsound' : Sound ddl catalog')
    (hcreated' : Created ddl catalog') :
    catalog = catalog' := by
  obtain ⟨extensions, tables, indexes⟩ := catalog
  obtain ⟨extensions', tables', indexes'⟩ := catalog'
  have hextensions : extensions = extensions' := funext fun name => by
    rw [Bool.eq_iff_iff]
    exact ⟨fun hname => hcreated'.extensions name (hsound.extensions name hname),
      fun hname => hcreated.extensions name (hsound'.extensions name hname)⟩
  have htables : tables = tables' := funext fun table => Option.ext fun definition =>
    ⟨fun htable => hcreated'.tables table definition (hsound.tables table definition htable),
      fun htable => hcreated.tables table definition (hsound'.tables table definition htable)⟩
  have hindexes : indexes = indexes' := funext fun name => Option.ext fun definition =>
    ⟨fun hindex => hcreated'.indexes name definition (hsound.indexes name definition hindex).1,
      fun hindex => hcreated.indexes name definition (hsound'.indexes name definition hindex).1⟩
  rw [hextensions, htables, hindexes]

/-! ## Dropping tables -/

/-- A table whose foreign keys refer to this one is gone. -/
def Statement.ReferrerGone (gone : List T) (table : T) : Statement T N → Prop
  | .createTable other definition =>
      ∀ key ∈ definition.foreignKeys, key.table = table → other ∈ gone
  | _ => True

instance (gone : List T) (table : T) (statement : Statement T N) :
    Decidable (statement.ReferrerGone gone table) := by
  unfold Statement.ReferrerGone
  split <;> infer_instance

/-- Each table comes behind those whose foreign keys refer to it. -/
def ReferrersFirst (ddl : List (Statement T N)) (gone : List T) : List T → Prop
  | [] => True
  | table :: rest =>
      (∀ statement ∈ ddl, statement.ReferrerGone gone table) ∧
        ReferrersFirst ddl (gone ++ [table]) rest

instance decidableReferrersFirst (ddl : List (Statement T N)) (gone : List T) :
    (drops : List T) → Decidable (ReferrersFirst ddl gone drops)
  | [] => inferInstanceAs (Decidable True)
  | table :: rest =>
      have := decidableReferrersFirst ddl (gone ++ [table]) rest
      inferInstanceAs (Decidable (_ ∧ _))

theorem withoutKeysTo_eq_self
    {definition : TableDef T}
    {table : T}
    (hkeys : ∀ key ∈ definition.foreignKeys, key.table ≠ table) :
    definition.withoutKeysTo table = definition := by
  unfold TableDef.withoutKeysTo
  rw [List.filter_eq_self.mpr fun key hkey => decide_eq_true (hkeys key hkey)]

omit [DecidableEq N] in
theorem Sound.drop
    {table : T}
    (hsound : Sound ddl catalog)
    (hreferrers : ∀ other definition, catalog.tables other = some definition →
      ∀ key ∈ definition.foreignKeys, key.table ≠ table) :
    Sound ddl (catalog.drop table) := by
  have htables : ∀ other definition, (catalog.drop table).tables other = some definition ↔
      other ≠ table ∧ catalog.tables other = some definition := by
    intro other definition
    simp only [Catalog.drop, Option.ite_none_left_eq_some, Option.map_eq_some_iff]
    refine and_congr_right fun _ => ⟨?_, fun hother => ⟨definition, hother, ?_⟩⟩
    · rintro ⟨definition', hother, rfl⟩
      rwa [withoutKeysTo_eq_self (hreferrers other definition' hother)]
    · exact withoutKeysTo_eq_self (hreferrers other definition hother)
  have hkept : ∀ other, other ≠ table → (catalog.tables other).isSome →
      ((catalog.drop table).tables other).isSome := by
    intro other hne hother
    obtain ⟨definition, hdefinition⟩ := Option.isSome_iff_exists.mp hother
    exact Option.isSome_iff_exists.mpr ⟨definition, (htables other definition).mpr
      ⟨hne, hdefinition⟩⟩
  refine ⟨hsound.extensions, fun other definition hother => ?_, fun name index hindex => ?_,
    fun other definition hother key hkey => ?_⟩
  · exact hsound.tables other definition ((htables other definition).mp hother).2
  · obtain ⟨hindex', hne⟩ := Option.filter_eq_some_iff.mp hindex
    obtain ⟨hmem, htable⟩ := hsound.indexes name index hindex'
    exact ⟨hmem, hkept index.table (of_decide_eq_true hne) htable⟩
  · have hother' := ((htables other definition).mp hother).2
    exact hkept key.table (hreferrers other definition hother' key hkey)
      (hsound.closed other definition hother' key hkey)

omit [DecidableEq N] in
theorem drop_tables_eq_none
    {other : T}
    (table : T)
    (hother : catalog.tables other = none) :
    (catalog.drop table).tables other = none := by
  simp [Catalog.drop, hother]

/-- Tables that are dropped in such an order leave a sound catalog wherever the drops are
cut off. -/
theorem dropped_executeBatch
    {gone drops : List T}
    (hfirst : ReferrersFirst ddl gone drops)
    (hsound : Sound ddl catalog)
    (hgone : ∀ table ∈ gone, catalog.tables table = none)
    (cut : ℕ) :
    ∃ catalog', executeBatch catalog ((drops.take cut).map .dropTable) = (catalog', true) ∧
      Sound ddl catalog' ∧ ∀ table ∈ gone ++ drops.take cut, catalog'.tables table = none := by
  induction drops generalizing gone catalog cut with
  | nil => exact ⟨catalog, by simp [executeBatch], hsound, by simpa using hgone⟩
  | cons table drops ih =>
      cases cut with
      | zero => exact ⟨catalog, rfl, hsound, by simpa using hgone⟩
      | succ cut =>
          obtain ⟨middle, hrun, hmiddle, hgone'⟩ : ∃ middle,
              (Statement.dropTable table).run catalog = some middle ∧ Sound ddl middle ∧
                ∀ other ∈ gone ++ [table], middle.tables other = none := by
            have hreferrers : ∀ other definition, catalog.tables other = some definition →
                ∀ key ∈ definition.foreignKeys, key.table ≠ table := by
              intro other definition hother key hkey htable
              have hmem := hfirst.1 _ (hsound.tables other definition hother) key hkey htable
              cases (hgone other hmem).symm.trans hother
            by_cases htable : (catalog.tables table).isSome
            · refine ⟨catalog.drop table, if_pos htable, hsound.drop hreferrers, ?_⟩
              intro other hother
              rcases List.mem_append.mp hother with hother | hother
              · exact drop_tables_eq_none table (hgone other hother)
              · cases List.mem_singleton.mp hother
                exact if_pos rfl
            · refine ⟨catalog, if_neg htable, hsound, fun other hother => ?_⟩
              rcases List.mem_append.mp hother with hother | hother
              · exact hgone other hother
              · cases List.mem_singleton.mp hother
                exact Option.not_isSome_iff_eq_none.mp htable
          obtain ⟨catalog', hrest, hsound', hall⟩ := ih hfirst.2 hmiddle hgone' cut
          refine ⟨catalog', ?_, hsound', ?_⟩
          · rw [List.take_succ_cons, List.map_cons, executeBatch, hrun]
            exact hrest
          · rwa [List.append_assoc, List.singleton_append] at hall

/-! ## An index that cannot be created -/

/-- The table has these columns, and no index has the name. -/
def Catalog.Stale
    (table : T)
    (definition : TableDef T)
    (name : N)
    (catalog : Catalog T N) : Prop :=
  catalog.tables table = some definition ∧ catalog.indexes name = none

/-- The statement touches neither the table nor the name of the index. -/
def Statement.Leaves (table : T) (name : N) : Statement T N → Prop
  | .createIndex other _ => other ≠ name
  | .addColumn other _ => other ≠ table
  | .dropTable _ => False
  | _ => True

instance (table : T) (name : N) (statement : Statement T N) :
    Decidable (statement.Leaves table name) := by
  unfold Statement.Leaves
  split <;> infer_instance

/-- Up to the statement for the index none touches the table. -/
def LeavesUntil (name : N) (index : IndexDef T) : List (Statement T N) → Prop
  | [] => True
  | statement :: rest => statement = .createIndex name index ∨
      statement.Leaves index.table name ∧ LeavesUntil name index rest

instance decidableLeavesUntil (name : N) (index : IndexDef T) :
    (statements : List (Statement T N)) → Decidable (LeavesUntil name index statements)
  | [] => inferInstanceAs (Decidable True)
  | _ :: rest =>
      have := decidableLeavesUntil name index rest
      inferInstanceAs (Decidable (_ ∨ _))

omit [DecidableEq T] [DecidableEq N] in
theorem LeavesUntil.take
    {name : N}
    {index : IndexDef T}
    {statements : List (Statement T N)}
    (hleaves : LeavesUntil name index statements)
    (cut : ℕ) :
    LeavesUntil name index (statements.take cut) := by
  induction statements generalizing cut with
  | nil => simpa using hleaves
  | cons statement rest ih =>
      cases cut with
      | zero => trivial
      | succ cut => exact hleaves.imp_right fun hrest => hrest.imp_right fun h => ih h cut

theorem stale_run
    {table : T}
    {definition : TableDef T}
    {name : N}
    (hstale : catalog.Stale table definition name)
    (hleaves : statement.Leaves table name)
    (hrun : statement.run catalog = some catalog') :
    catalog'.Stale table definition name := by
  obtain ⟨htable, hindex⟩ := hstale
  cases statement with
  | createExtension other =>
      cases hrun
      exact ⟨htable, hindex⟩
  | createTable other definition' =>
      simp only [Statement.run] at hrun
      split at hrun
      next =>
        cases hrun
        exact ⟨htable, hindex⟩
      next hother =>
        obtain ⟨_, hrest⟩ := Option.ite_none_right_eq_some.mp hrun
        cases hrest
        have hne : table ≠ other := by
          rintro rfl
          simp [htable] at hother
        exact ⟨(Function.update_of_ne hne _ _).trans htable, hindex⟩
  | createIndex other index =>
      simp only [Statement.run] at hrun
      split at hrun
      next =>
        cases hrun
        exact ⟨htable, hindex⟩
      next =>
        obtain ⟨_, hrest⟩ := Option.ite_none_right_eq_some.mp hrun
        cases hrest
        exact ⟨htable, (Function.update_of_ne (Ne.symm hleaves) _ _).trans hindex⟩
  | setStorage other column =>
      obtain ⟨_, hrest⟩ := Option.ite_none_right_eq_some.mp hrun
      cases hrest
      exact ⟨htable, hindex⟩
  | setOptions other =>
      obtain ⟨_, hrest⟩ := Option.ite_none_right_eq_some.mp hrun
      cases hrest
      exact ⟨htable, hindex⟩
  | addColumn other column =>
      obtain ⟨definition', _, hrest⟩ := Option.map_eq_some_iff.mp hrun
      split at hrest
      next =>
        cases hrest
        exact ⟨htable, hindex⟩
      next =>
        cases hrest
        exact ⟨(Function.update_of_ne (Ne.symm hleaves) _ _).trans htable, hindex⟩
  | dropTable other => exact hleaves.elim

/-- The batch stops in front of the index, if not before, and the table stays as it is. -/
theorem stale_executeBatch
    {name : N}
    {index : IndexDef T}
    {definition : TableDef T}
    {statements : List (Statement T N)}
    (hstale : catalog.Stale index.table definition name)
    (hcolumns : ¬ index.columns ⊆ definition.columns)
    (hleaves : LeavesUntil name index statements) :
    (executeBatch catalog statements).1.Stale index.table definition name ∧
      (.createIndex name index ∈ statements → (executeBatch catalog statements).2 = false) := by
  induction statements generalizing catalog with
  | nil => exact ⟨hstale, nofun⟩
  | cons statement rest ih =>
      have hstuck : (Statement.createIndex name index).run catalog = none := by
        have hmissing : ¬ catalog.HasColumns index.table index.columns := by
          rintro ⟨definition', hdefinition', hsubset⟩
          cases hstale.1.symm.trans hdefinition'
          exact hcolumns hsubset
        rw [Statement.run, hstale.2, if_neg (by simp), if_neg hmissing]
      rw [executeBatch]
      cases hrun : statement.run catalog with
      | none => exact ⟨hstale, fun _ => rfl⟩
      | some next =>
          have hne : statement ≠ .createIndex name index := by
            rintro rfl
            cases hstuck.symm.trans hrun
          obtain ⟨hleft, hrest⟩ := hleaves.resolve_left hne
          obtain ⟨hstale', hfails⟩ := ih (stale_run hstale hleft hrun) hrest
          refine ⟨hstale', fun hmem => hfails ?_⟩
          exact (List.mem_cons.mp hmem).resolve_left (Ne.symm hne)

end Schema

end SchemaCatalog
