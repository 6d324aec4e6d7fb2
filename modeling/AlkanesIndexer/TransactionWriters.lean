import AlkanesIndexer.BatchInserts
import AlkanesIndexer.Writers

/-!
# The statements of the writers

Each writer of `db/transactions.rs` takes rows as tuples, cuts them into chunks, and
builds one statement for a chunk: the text names the columns and numbers the
placeholders, and the values are bound in an order of their own.  What a writer is
for is said with the fields of its tuples, which are named, in their order, like the
columns.  Constraints other than keys are not checked here, and `createdAt` and
`updatedAt` are left out.
-/

namespace AlkanesIndexer

open SqlStatements Sequences

namespace TransactionWriters

/-! ## Values -/

inductive SqlValue where
  | null
  | text (value : String)
  | integer (value : ℤ)
  | boolean (value : Bool)
  | double (bits : UInt64)
  | jsonb (value : JsonValue)
  | timestamptz (micros : ℤ)
  deriving DecidableEq

structure Double where
  bits : UInt64
  deriving DecidableEq

structure DateTime where
  micros : ℤ
  deriving DecidableEq

def SqlValue.ofOption : Option String → SqlValue
  | none => .null
  | some value => .text value

/-- The values of a tuple in the order of its fields. -/
class Fields (ρ : Type) where
  values : ρ → List SqlValue

instance : Fields String := ⟨fun value => [.text value]⟩
instance : Fields ℤ := ⟨fun value => [.integer value]⟩
instance : Fields Bool := ⟨fun value => [.boolean value]⟩
instance : Fields Double := ⟨fun value => [.double value.bits]⟩
instance : Fields JsonValue := ⟨fun value => [.jsonb value]⟩
instance : Fields DateTime := ⟨fun value => [.timestamptz value.micros]⟩
instance : Fields (Option String) := ⟨fun value => [.ofOption value]⟩
instance {α β : Type} [Fields α] [Fields β] : Fields (α × β) :=
  ⟨fun pair => Fields.values pair.1 ++ Fields.values pair.2⟩

/-- The row that has every field of a tuple in the column of its name. -/
def fieldRow {ρ : Type} [Fields ρ] (names : List String) (row : ρ) : Record SqlValue :=
  record names (Fields.values row)

/-! ## The tuples -/

abbrev AlkaneTransactionTuple := ℤ × String × ℤ × Bool × Bool × JsonValue

def alkaneTransactionFields : List String :=
  ["blockHeight", "transactionId", "transactionIndex", "hasTrace", "traceSucceed",
    "transactionData"]

abbrev TraceEventTuple := String × ℤ × ℤ × String × JsonValue × String × String

def traceEventFields : List String :=
  ["transactionId", "blockHeight", "vout", "eventType", "data", "alkaneAddressBlock",
    "alkaneAddressTx"]

abbrev DecodedProtostoneTuple := String × ℤ × ℤ × ℤ × JsonValue

def decodedProtostoneFields : List String :=
  ["transactionId", "vout", "protostoneIndex", "blockHeight", "decoded"]

abbrev PoolSwapTuple :=
  String × ℤ × ℤ × String × String × String × String × String × String × Double × Double ×
    Option String × DateTime × Bool

def poolSwapFields : List String :=
  ["transactionId", "blockHeight", "transactionIndex", "poolBlockId", "poolTxId",
    "soldTokenBlockId", "soldTokenTxId", "boughtTokenBlockId", "boughtTokenTxId", "soldAmount",
    "boughtAmount", "sellerAddress", "timestamp", "successful"]

abbrev PoolCreationTuple :=
  String × ℤ × ℤ × String × String × String × String × String × String × String × String ×
    String × Option String × DateTime

def poolCreationFields : List String :=
  ["transactionId", "blockHeight", "transactionIndex", "poolBlockId", "poolTxId",
    "token0BlockId", "token0TxId", "token1BlockId", "token1TxId", "token0Amount",
    "token1Amount", "tokenSupply", "creatorAddress", "timestamp"]

/-- A tuple of `PoolMint` or of `PoolBurn`. -/
abbrev LiquidityTuple :=
  String × ℤ × ℤ × String × String × String × String × String × String × String × String ×
    String × Option String × DateTime × Bool

def liquidityFields (address : String) : List String :=
  ["transactionId", "blockHeight", "transactionIndex", "poolBlockId", "poolTxId",
    "lpTokenAmount", "token0BlockId", "token0TxId", "token1BlockId", "token1TxId",
    "token0Amount", "token1Amount", address, "timestamp", "successful"]

/-- A tuple of `SubfrostWrap` or of `SubfrostUnwrap`. -/
abbrev SubfrostTuple := String × ℤ × ℤ × Option String × String × Bool × DateTime

def subfrostFields : List String :=
  ["transactionId", "blockHeight", "transactionIndex", "address", "amount", "successful",
    "timestamp"]

/-! ## The builders -/

/-- The columns that the upsert overwrites, and compares before it does. -/
def mutableColumns : List String :=
  ["blockHeight", "transactionIndex", "hasTrace", "traceSucceed", "transactionData"]

def alkaneTransactionInsert : BatchInsert AlkaneTransactionTuple SqlValue where
  table := "AlkaneTransaction"
  columns := ["blockHeight", "transactionId", "transactionIndex", "hasTrace", "traceSucceed",
    "transactionData"]
  perRow := 6
  offsets := [1, 2, 3, 4, 5, 6]
  conflict := some (.update ["transactionId"] mutableColumns mutableColumns)
  binds := fun (bh, txid, idx, hasTrace, traceOk, data) =>
    [.integer bh, .text txid, .integer idx, .boolean hasTrace, .boolean traceOk, .jsonb data]
  columns_length := rfl
  offsets_eq := rfl
  binds_length := fun _ => rfl
  maxRows := min (rowsPerStatement 6) 1500
  maxRows_pos := by decide
  fits := by decide

def traceEventInsert : BatchInsert TraceEventTuple SqlValue where
  table := "TraceEvent"
  columns := ["transactionId", "blockHeight", "vout", "eventType", "data", "alkaneAddressBlock",
    "alkaneAddressTx"]
  perRow := 7
  offsets := [1, 2, 3, 4, 5, 6, 7]
  conflict := none
  binds := fun (txid, blockHeight, vout, etype, data, blk, txnum) =>
    [.text txid, .integer blockHeight, .integer vout, .text etype, .jsonb data, .text blk,
      .text txnum]
  columns_length := rfl
  offsets_eq := rfl
  binds_length := fun _ => rfl
  maxRows := min (rowsPerStatement 7) 2000
  maxRows_pos := by decide
  fits := by decide

theorem five_offsets : [1, 2, 3, 4, 5] = List.range' 1 5 := rfl

def decodedProtostoneInsert : BatchInsert DecodedProtostoneTuple SqlValue where
  table := "DecodedProtostone"
  columns := ["transactionId", "vout", "protostoneIndex", "blockHeight", "decoded"]
  perRow := 5
  offsets := [1, 2, 3, 4, 5]
  conflict := some (.update ["transactionId", "vout", "protostoneIndex"] ["decoded"] ["decoded"])
  binds := fun (txid, vout, idx, blockHeight, decoded) =>
    [.text txid, .integer vout, .integer idx, .integer blockHeight, .jsonb decoded]
  columns_length := rfl
  offsets_eq := five_offsets
  binds_length := fun _ => rfl
  maxRows := min (rowsPerStatement 5) 2000
  maxRows_pos := by decide
  fits := by decide

/-- `success` is bound before `ts`, as the columns have it; the tuple has it last. -/
def poolSwapInsert : BatchInsert PoolSwapTuple SqlValue where
  table := "PoolSwap"
  columns := ["transactionId", "blockHeight", "transactionIndex", "poolBlockId", "poolTxId",
    "soldTokenBlockId", "soldTokenTxId", "boughtTokenBlockId", "boughtTokenTxId", "soldAmount",
    "boughtAmount", "sellerAddress", "successful", "timestamp"]
  perRow := 14
  offsets := [1, 2, 3, 4, 5, 6, 7, 8, 9, 10, 11, 12, 13, 14]
  conflict := none
  binds := fun (txid, bh, idx, pb, pt, sb, st, bb, bt, sAmt, bAmt, seller, ts, success) =>
    [.text txid, .integer bh, .integer idx, .text pb, .text pt, .text sb, .text st, .text bb,
      .text bt, .double sAmt.bits, .double bAmt.bits, .ofOption seller, .boolean success,
      .timestamptz ts.micros]
  columns_length := rfl
  offsets_eq := rfl
  binds_length := fun _ => rfl
  maxRows := rowsPerStatement 14
  maxRows_pos := by decide
  fits := by decide

def poolCreationInsert : BatchInsert PoolCreationTuple SqlValue where
  table := "PoolCreation"
  columns := ["transactionId", "blockHeight", "transactionIndex", "poolBlockId", "poolTxId",
    "token0BlockId", "token0TxId", "token1BlockId", "token1TxId", "token0Amount",
    "token1Amount", "tokenSupply", "creatorAddress", "timestamp"]
  perRow := 14
  offsets := [1, 2, 3, 4, 5, 6, 7, 8, 9, 10, 11, 12, 13, 14]
  conflict := none
  binds := fun (txid, bh, idx, pb, pt, t0b, t0t, t1b, t1t, a0, a1, supply, creator, ts) =>
    [.text txid, .integer bh, .integer idx, .text pb, .text pt, .text t0b, .text t0t, .text t1b,
      .text t1t, .text a0, .text a1, .text supply, .ofOption creator, .timestamptz ts.micros]
  columns_length := rfl
  offsets_eq := rfl
  binds_length := fun _ => rfl
  maxRows := rowsPerStatement 14
  maxRows_pos := by decide
  fits := by decide

def liquidityInsert (table address : String) : BatchInsert LiquidityTuple SqlValue where
  table := table
  columns := ["transactionId", "blockHeight", "transactionIndex", "poolBlockId", "poolTxId",
    "lpTokenAmount", "token0BlockId", "token0TxId", "token1BlockId", "token1TxId",
    "token0Amount", "token1Amount", address, "successful", "timestamp"]
  perRow := 15
  offsets := [1, 2, 3, 4, 5, 6, 7, 8, 9, 10, 11, 12, 13, 14, 15]
  conflict := none
  binds := fun (txid, bh, idx, pb, pt, lpAmt, t0b, t0t, t1b, t1t, a0, a1, owner, ts, success) =>
    [.text txid, .integer bh, .integer idx, .text pb, .text pt, .text lpAmt, .text t0b,
      .text t0t, .text t1b, .text t1t, .text a0, .text a1, .ofOption owner, .boolean success,
      .timestamptz ts.micros]
  columns_length := rfl
  offsets_eq := rfl
  binds_length := fun _ => rfl
  maxRows := rowsPerStatement 15
  maxRows_pos := by decide
  fits := by decide

def subfrostInsert (table : String) : BatchInsert SubfrostTuple SqlValue where
  table := table
  columns := ["transactionId", "blockHeight", "transactionIndex", "address", "amount",
    "successful", "timestamp"]
  perRow := 7
  offsets := [1, 2, 3, 4, 5, 6, 7]
  conflict := none
  binds := fun (txid, bh, idx, addr, amt, success, ts) =>
    [.text txid, .integer bh, .integer idx, .ofOption addr, .text amt, .boolean success,
      .timestamptz ts.micros]
  columns_length := rfl
  offsets_eq := rfl
  binds_length := fun _ => rfl
  maxRows := rowsPerStatement 7
  maxRows_pos := by decide
  fits := by decide

/-! ## The writers -/

section Writers

variable {ρ : Type}

/-- The rows of the given transactions are deleted, unless none is given, before the
given rows are inserted. -/
def replaceRows
    (insert : BatchInsert ρ SqlValue)
    (txids : List String)
    (rows : List ρ) : List (Statement SqlValue) :=
  (if txids.isEmpty then [] else [.delete insert.table "transactionId" (txids.map .text)]) ++
    if rows.isEmpty then [] else insert.statements rows

def upsertAlkaneTransactions (items : List AlkaneTransactionTuple) : List (Statement SqlValue) :=
  if items.isEmpty then [] else alkaneTransactionInsert.statements items

def replaceTraceEvents (txids : List String) (events : List TraceEventTuple) :
    List (Statement SqlValue) :=
  replaceRows traceEventInsert txids events

def replaceDecodedProtostones (txids : List String) (items : List DecodedProtostoneTuple) :
    List (Statement SqlValue) :=
  replaceRows decodedProtostoneInsert txids items

def replacePoolSwaps (txids : List String) (swaps : List PoolSwapTuple) :
    List (Statement SqlValue) :=
  replaceRows poolSwapInsert txids swaps

def replacePoolCreations (txids : List String) (creations : List PoolCreationTuple) :
    List (Statement SqlValue) :=
  replaceRows poolCreationInsert txids creations

def replacePoolMints (txids : List String) (mints : List LiquidityTuple) :
    List (Statement SqlValue) :=
  replaceRows (liquidityInsert "PoolMint" "minterAddress") txids mints

def replacePoolBurns (txids : List String) (burns : List LiquidityTuple) :
    List (Statement SqlValue) :=
  replaceRows (liquidityInsert "PoolBurn" "burnerAddress") txids burns

def replaceSubfrostWraps (txids : List String) (wraps : List SubfrostTuple) :
    List (Statement SqlValue) :=
  replaceRows (subfrostInsert "SubfrostWrap") txids wraps

def replaceSubfrostUnwraps (txids : List String) (unwraps : List SubfrostTuple) :
    List (Statement SqlValue) :=
  replaceRows (subfrostInsert "SubfrostUnwrap") txids unwraps

end Writers

/-! ## What the writers are for -/

section Purpose

variable {ρ : Type} [Fields ρ]

/-- The statements leave the rows of other transactions and the given rows, each once
and with every field in its column, and no insert is empty, misnumbered or too long. -/
structure ReplacesRows
    (table : String)
    (names : List String)
    (statements : List (Statement SqlValue))
    (txids : List String)
    (given : List ρ)
    (rows : List (Record SqlValue)) : Prop where
  result : ∃ count, runAll statements rows =
    some ((rows.filter fun row => row "transactionId" ∉ txids.map (some ∘ .text)) ++
      given.map (fieldRow names), count)
  tables : ∀ statement ∈ statements, statement.table = table
  inserts : ∀ insert, .insert insert ∈ statements → insert.WellNumbered

/-- Every given row belongs to one of the transactions. -/
def BelongTo (names : List String) (txids : List String) (given : List ρ) : Prop :=
  ∀ row ∈ given, fieldRow names row "transactionId" ∈ txids.map (some ∘ .text)

/-- No two of the given rows agree in all the columns of a key. -/
def DistinctOn (key names : List String) (given : List ρ) : Prop :=
  (given.map fun row => key.map (fieldRow names row)).Nodup

def Replaces
    (table : String)
    (names : List String)
    (key : Option (List String))
    (replace : List String → List ρ → List (Statement SqlValue)) : Prop :=
  ∀ txids given rows, BelongTo names txids given →
    (∀ columns ∈ key, DistinctOn columns names given) →
      ReplacesRows table names (replace txids given) txids given rows

/-- Each given row is the one row of its key afterwards, in every field; the rows of
other keys are what they were, and the same statements have nothing more to do. -/
structure UpsertsRows
    (table : String)
    (names key : List String)
    (statements : List (Statement SqlValue))
    (given : List ρ)
    (rows : List (Record SqlValue)) : Prop where
  result : ∃ rows' count, runAll statements rows = some (rows', count) ∧
    (∀ row ∈ given, ∃ stored ∈ rows',
      (∀ name ∈ names, stored name = fieldRow names row name) ∧
        ∀ other ∈ rows', key.map other = key.map stored → other = stored) ∧
    rows'.filter (fun stored =>
        key.map stored ∉ given.map fun row => key.map (fieldRow names row)) =
      rows.filter (fun stored =>
        key.map stored ∉ given.map fun row => key.map (fieldRow names row)) ∧
    runAll statements rows' = some (rows', 0)
  tables : ∀ statement ∈ statements, statement.table = table
  inserts : ∀ insert, .insert insert ∈ statements → insert.WellNumbered

def Upserts
    (table : String)
    (names key : List String)
    (upsert : List ρ → List (Statement SqlValue)) : Prop :=
  ∀ given rows, (rows.map key.map).Nodup → DistinctOn key names given →
    UpsertsRows table names key (upsert given) given rows

end Purpose

/-! ## A replacement -/

section Replacement

variable {ρ : Type} {insert : BatchInsert ρ SqlValue} {txids : List String} {given : List ρ}

theorem runAll_replaceRows
    {rows : List (Record SqlValue)}
    (hkey : ∀ clause ∈ insert.conflict, "transactionId" ∈ clause.key)
    (hbelong : ∀ row ∈ given, insert.record row "transactionId" ∈ txids.map (some ∘ .text))
    (hdistinct : Distinct insert.conflict (given.map insert.record)) :
    ∃ count, runAll (replaceRows insert txids given) rows =
      some ((rows.filter fun row => row "transactionId" ∉ txids.map (some ∘ .text)) ++
        given.map insert.record, count) := by
  have hdelete : ∃ count, runAll
      (if txids.isEmpty then []
        else [Statement.delete insert.table "transactionId" (txids.map .text)]) rows =
      some (rows.filter fun row => row "transactionId" ∉ txids.map (some ∘ .text), count) := by
    cases txids with
    | nil => exact ⟨0, by simp [runAll]⟩
    | cons txid txids =>
        rw [List.isEmpty_cons, if_neg Bool.false_ne_true]
        refine ⟨rows.length - (rows.filter fun row =>
          row "transactionId" ∉ (txid :: txids).map (some ∘ .text)).length, ?_⟩
        rw [runAll, Statement.run, Option.bind_some, runAll, Option.map_some, List.map_map]
        rfl
  have hinsert : ∀ kept : List (Record SqlValue),
      (∀ row ∈ kept, row "transactionId" ∉ txids.map (some ∘ .text)) →
      ∃ count, runAll (if given.isEmpty then [] else insert.statements given) kept =
        some (kept ++ given.map insert.record, count) := by
    intro kept hkept
    cases given with
    | nil => exact ⟨0, by simp [runAll]⟩
    | cons row given =>
        rw [List.isEmpty_cons, if_neg Bool.false_ne_true,
          insert.runAll_statements hdistinct.updatesOnce]
        refine ⟨_, congrArg some (Prod.ext (addRows_of_new hdistinct ?_) rfl)⟩
        intro clause hclause new hnew hmem
        obtain ⟨old, hold, heq⟩ := List.mem_map.mp hmem
        obtain ⟨later, hlater, hrecord⟩ := List.mem_map.mp hnew
        have htxid : old "transactionId" = new "transactionId" :=
          List.map_inj_left.mp heq _ (hkey clause hclause)
        apply hkept old hold
        rw [htxid, ← hrecord]
        exact hbelong later hlater
  obtain ⟨deleted, hfirst⟩ := hdelete
  obtain ⟨inserted, hsecond⟩ := hinsert _ fun row hrow =>
    of_decide_eq_true (List.mem_filter.mp hrow).2
  exact ⟨_, runAll_append hfirst hsecond⟩

theorem mem_replaceRows_cases
    {statement : Statement SqlValue}
    (hstatement : statement ∈ replaceRows insert txids given) :
    statement = .delete insert.table "transactionId" (txids.map .text) ∨
      statement ∈ insert.statements given := by
  unfold replaceRows at hstatement
  rw [List.mem_append] at hstatement
  cases hstatement with
  | inl hdelete =>
      left
      cases txids with
      | nil => cases hdelete
      | cons txid txids =>
          rw [List.isEmpty_cons, if_neg Bool.false_ne_true] at hdelete
          exact List.mem_singleton.mp hdelete
  | inr hinsert =>
      right
      cases given with
      | nil => cases hinsert
      | cons row given => exact hinsert

theorem table_of_mem_replaceRows
    {statement : Statement SqlValue}
    (hstatement : statement ∈ replaceRows insert txids given) :
    statement.table = insert.table := by
  cases mem_replaceRows_cases hstatement with
  | inl hdelete =>
      rw [hdelete]
      rfl
  | inr hinsert => exact insert.table_of_mem_statements hinsert

theorem wellNumbered_of_mem_replaceRows
    {command : Insert SqlValue}
    (hcommand : .insert command ∈ replaceRows insert txids given) :
    command.WellNumbered := by
  cases mem_replaceRows_cases hcommand with
  | inl hdelete => cases hdelete
  | inr hinsert => exact insert.wellNumbered_of_mem_statements hinsert

/-- A builder whose rows are those of the named fields replaces rows. -/
theorem replacesRows_of_fieldRow
    [Fields ρ]
    {names : List String}
    {rows : List (Record SqlValue)}
    (hfields : ∀ row, insert.record row = fieldRow names row)
    (hkey : ∀ clause ∈ insert.conflict, "transactionId" ∈ clause.key)
    (hbelong : BelongTo names txids given)
    (hdistinct : ∀ clause ∈ insert.conflict, DistinctOn clause.key names given) :
    ReplacesRows insert.table names (replaceRows insert txids given) txids given rows := by
  have hrecord : insert.record = fieldRow names := funext hfields
  have hkeys : Distinct insert.conflict (given.map insert.record) := by
    intro clause hclause
    rw [hrecord, List.map_map]
    exact hdistinct clause hclause
  refine ⟨?_, fun _ => table_of_mem_replaceRows, fun _ => wellNumbered_of_mem_replaceRows⟩
  rw [← hrecord]
  refine runAll_replaceRows hkey (fun row hrow => ?_) hkeys
  rw [hfields]
  exact hbelong row hrow

end Replacement

/-! ## The fields of each builder -/

theorem traceEventInsert_record
    (row : TraceEventTuple) :
    traceEventInsert.record row = fieldRow traceEventFields row :=
  rfl

theorem decodedProtostoneInsert_record
    (row : DecodedProtostoneTuple) :
    decodedProtostoneInsert.record row = fieldRow decodedProtostoneFields row :=
  rfl

theorem poolSwapInsert_record
    (row : PoolSwapTuple) :
    poolSwapInsert.record row = fieldRow poolSwapFields row := by
  have hlength : (poolSwapFields.take 12).length = ((Fields.values row).take 12).length := rfl
  have hne : "successful" ≠ "timestamp" := by decide
  exact record_swap hlength hne _ _

theorem poolCreationInsert_record
    (row : PoolCreationTuple) :
    poolCreationInsert.record row = fieldRow poolCreationFields row :=
  rfl

theorem liquidityInsert_record
    (table address : String)
    (row : LiquidityTuple) :
    (liquidityInsert table address).record row = fieldRow (liquidityFields address) row := by
  have hlength : ((liquidityFields address).take 13).length =
    ((Fields.values row).take 13).length := rfl
  have hne : "successful" ≠ "timestamp" := by decide
  exact record_swap hlength hne _ _

theorem subfrostInsert_record
    (table : String)
    (row : SubfrostTuple) :
    (subfrostInsert table).record row = fieldRow subfrostFields row :=
  rfl

theorem alkaneTransactionInsert_record
    (row : AlkaneTransactionTuple) :
    alkaneTransactionInsert.record row = fieldRow alkaneTransactionFields row :=
  rfl

/-! ## The upsert -/

theorem upsertAlkaneTransactions_eq
    (items : List AlkaneTransactionTuple) :
    upsertAlkaneTransactions items = alkaneTransactionInsert.statements items := by
  cases items <;> rfl

theorem upserts_alkaneTransactions :
    Upserts "AlkaneTransaction" alkaneTransactionFields ["transactionId"]
      upsertAlkaneTransactions := by
  intro given rows hrows hgiven
  have hkeys : Distinct alkaneTransactionInsert.conflict
      (given.map alkaneTransactionInsert.record) := by
    rintro clause hclause
    cases hclause
    rw [List.map_map]
    exact hgiven
  have hnews : ((given.map alkaneTransactionInsert.record).map
      (["transactionId"] : List String).map).Nodup := hkeys _ rfl
  have hkey : ∀ column ∈ ["transactionId"], column ∉ mutableColumns := by decide
  have hguard : ∀ column ∈ mutableColumns, column ∈ mutableColumns := fun _ hcolumn => hcolumn
  have hupserted := upserted_addRows rows (given.map alkaneTransactionInsert.record) hkey hguard
    hrows hnews
  have hagain := addRows_of_upserted mutableColumns hupserted
  constructor
  · rw [upsertAlkaneTransactions_eq]
    refine ⟨_, _, alkaneTransactionInsert.runAll_statements hkeys.updatesOnce, ?_, ?_, ?_⟩
    · intro row hrow
      obtain ⟨stored, hstored, hkey, hvalues⟩ :=
        hupserted.given _ (List.mem_map_of_mem hrow)
      refine ⟨stored, hstored, ?_, fun other hother heq => ?_⟩
      · rw [← alkaneTransactionInsert_record]
        simp only [mutableColumns, List.map_cons, List.map_nil, List.cons.injEq, and_true]
          at hkey hvalues
        simp only [alkaneTransactionFields, List.forall_mem_cons]
        exact ⟨hvalues.1, hkey, hvalues.2.1, hvalues.2.2.1, hvalues.2.2.2.1, hvalues.2.2.2.2,
          nofun⟩
      · exact List.inj_on_of_nodup_map hupserted.keys hother hstored heq
    · have hothers := hupserted.others
      rw [List.map_map] at hothers
      exact hothers
    · rw [alkaneTransactionInsert.runAll_statements hkeys.updatesOnce]
      exact congrArg some (Prod.ext hagain.1 hagain.2)
  · intro statement hstatement
    rw [upsertAlkaneTransactions_eq] at hstatement
    exact alkaneTransactionInsert.table_of_mem_statements hstatement
  · intro insert hinsert
    rw [upsertAlkaneTransactions_eq] at hinsert
    exact alkaneTransactionInsert.wellNumbered_of_mem_statements hinsert

/-! ## All the writers -/

theorem replaces_traceEvents :
    Replaces "TraceEvent" traceEventFields none replaceTraceEvents := by
  intro txids given rows hbelong _
  exact replacesRows_of_fieldRow traceEventInsert_record nofun hbelong nofun

theorem replaces_decodedProtostones :
    Replaces "DecodedProtostone" decodedProtostoneFields
      (some ["transactionId", "vout", "protostoneIndex"]) replaceDecodedProtostones := by
  intro txids given rows hbelong hdistinct
  refine replacesRows_of_fieldRow decodedProtostoneInsert_record ?_ hbelong ?_
  · intro clause hclause
    cases hclause
    exact List.mem_cons_self
  · intro clause hclause
    cases hclause
    exact hdistinct _ rfl

theorem replaces_poolSwaps :
    Replaces "PoolSwap" poolSwapFields none replacePoolSwaps := by
  intro txids given rows hbelong _
  exact replacesRows_of_fieldRow poolSwapInsert_record nofun hbelong nofun

theorem replaces_poolCreations :
    Replaces "PoolCreation" poolCreationFields none replacePoolCreations := by
  intro txids given rows hbelong _
  exact replacesRows_of_fieldRow poolCreationInsert_record nofun hbelong nofun

theorem replaces_liquidity
    (table address : String) :
    Replaces table (liquidityFields address) none
      (replaceRows (liquidityInsert table address)) := by
  intro txids given rows hbelong _
  exact replacesRows_of_fieldRow (liquidityInsert_record _ _) nofun hbelong nofun

theorem replaces_subfrost
    (table : String) :
    Replaces table subfrostFields none (replaceRows (subfrostInsert table)) := by
  intro txids given rows hbelong _
  exact replacesRows_of_fieldRow (subfrostInsert_record _) nofun hbelong nofun

/-- Cut into chunks or not, a replacement leaves the other rows and the given ones,
and the upsert the given ones in place of those of their keys. -/
theorem writers_replace_and_upsert :
    Replaces "TraceEvent" traceEventFields none replaceTraceEvents ∧
      Replaces "DecodedProtostone" decodedProtostoneFields
        (some ["transactionId", "vout", "protostoneIndex"]) replaceDecodedProtostones ∧
      Replaces "PoolSwap" poolSwapFields none replacePoolSwaps ∧
      Replaces "PoolCreation" poolCreationFields none replacePoolCreations ∧
      Replaces "PoolMint" (liquidityFields "minterAddress") none replacePoolMints ∧
      Replaces "PoolBurn" (liquidityFields "burnerAddress") none replacePoolBurns ∧
      Replaces "SubfrostWrap" subfrostFields none replaceSubfrostWraps ∧
      Replaces "SubfrostUnwrap" subfrostFields none replaceSubfrostUnwraps ∧
      Upserts "AlkaneTransaction" alkaneTransactionFields ["transactionId"]
        upsertAlkaneTransactions :=
  ⟨replaces_traceEvents, replaces_decodedProtostones, replaces_poolSwaps,
    replaces_poolCreations, replaces_liquidity _ _, replaces_liquidity _ _,
    replaces_subfrost _, replaces_subfrost _, upserts_alkaneTransactions⟩

/-! ## The rows of the pipeline

The writers of the pipeline work on rows; their statements do the same to the rows as
they are stored.  An amount becomes the double that is near it. -/

section Stored

variable (double : ℕ → Double)

def dateTime (seconds : ℤ) : DateTime := ⟨seconds * 1000000⟩

def poolSwapTuple (row : PoolSwapRow) : PoolSwapTuple :=
  (row.transactionId, row.blockHeight, row.transactionIndex, row.pool.1, row.pool.2,
    row.soldToken.1, row.soldToken.2, row.boughtToken.1, row.boughtToken.2,
    double row.soldAmount, double row.boughtAmount, row.sellerAddress, dateTime row.timestamp,
    row.successful)

def poolCreationTuple (row : PoolCreationRow) : PoolCreationTuple :=
  (row.transactionId, row.blockHeight, row.transactionIndex, row.pool.1, row.pool.2,
    row.token0.1, row.token0.2, row.token1.1, row.token1.2, row.token0Amount, row.token1Amount,
    row.tokenSupply, row.creatorAddress, dateTime row.timestamp)

def liquidityTuple (row : LiquidityRow) : LiquidityTuple :=
  (row.transactionId, row.blockHeight, row.transactionIndex, row.pool.1, row.pool.2,
    row.lpTokenAmount, row.token0.1, row.token0.2, row.token1.1, row.token1.2,
    row.token0Amount, row.token1Amount, row.address, dateTime row.timestamp, row.successful)

def subfrostTuple (row : SubfrostRow) : SubfrostTuple :=
  (row.transactionId, row.blockHeight, row.transactionIndex, row.address, row.amount,
    row.successful, dateTime row.timestamp)

def stored : (table : DerivedTable) → table.Row → Record SqlValue
  | .poolSwap, row => fieldRow poolSwapFields (poolSwapTuple double row)
  | .poolCreation, row => fieldRow poolCreationFields (poolCreationTuple row)
  | .poolMint, row => fieldRow (liquidityFields "minterAddress") (liquidityTuple row)
  | .poolBurn, row => fieldRow (liquidityFields "burnerAddress") (liquidityTuple row)
  | .subfrostWrap, row | .subfrostUnwrap, row => fieldRow subfrostFields (subfrostTuple row)

/-- The statements of the writer of a table. -/
def replaceStored :
    (table : DerivedTable) → List String → List table.Row → List (Statement SqlValue)
  | .poolSwap, txids, batch => replacePoolSwaps txids (batch.map (poolSwapTuple double))
  | .poolCreation, txids, batch => replacePoolCreations txids (batch.map poolCreationTuple)
  | .poolMint, txids, batch => replacePoolMints txids (batch.map liquidityTuple)
  | .poolBurn, txids, batch => replacePoolBurns txids (batch.map liquidityTuple)
  | .subfrostWrap, txids, batch => replaceSubfrostWraps txids (batch.map subfrostTuple)
  | .subfrostUnwrap, txids, batch => replaceSubfrostUnwraps txids (batch.map subfrostTuple)

theorem Replaces.runAll_map
    {α ρ : Type}
    [Fields ρ]
    {table : String}
    {names : List String}
    {replace : List String → List ρ → List (Statement SqlValue)}
    (hreplaces : Replaces table names none replace)
    {tuple : α → ρ}
    {txid : α → String}
    (htxid : ∀ row, fieldRow names (tuple row) "transactionId" = some (.text (txid row)))
    {txids : List String}
    {batch rows : List α}
    (hkeyed : ∀ row ∈ batch, txid row ∈ txids) :
    ∃ count, runAll (replace txids (batch.map tuple)) (rows.map (fieldRow names ∘ tuple)) =
      some (((rows.filter fun row => txid row ∉ txids) ++ batch).map (fieldRow names ∘ tuple),
        count) := by
  have hmem : ∀ row, fieldRow names (tuple row) "transactionId" ∈
      txids.map (some ∘ SqlValue.text) ↔ txid row ∈ txids := by
    intro row
    rw [htxid]
    simp
  have hbelong : BelongTo names txids (batch.map tuple) := by
    intro row hrow
    obtain ⟨given, hgiven, rfl⟩ := List.mem_map.mp hrow
    exact (hmem given).mpr (hkeyed given hgiven)
  obtain ⟨count, hrun⟩ :=
    (hreplaces txids (batch.map tuple) (rows.map (fieldRow names ∘ tuple)) hbelong nofun).result
  refine ⟨count, hrun.trans ?_⟩
  rw [List.filter_map, List.map_append, List.map_map]
  congr 4
  refine List.filter_congr fun row _ => ?_
  simp only [Function.comp, hmem]

theorem writeRows_stored
    {table : DerivedTable}
    {pools : List PoolRow}
    {txids : List String}
    {batch rows rows' : List table.Row}
    (hwrite : writeRows pools (.derived table) txids batch rows = some rows')
    (hkeyed : ∀ row ∈ batch, table.transactionId row ∈ txids) :
    ∃ count, runAll (replaceStored double table txids batch) (rows.map (stored double table)) =
      some (rows'.map (stored double table), count) := by
  have hrows' := eq_of_writeRows hwrite hkeyed nofun
  rw [hrows']
  cases table with
  | poolSwap => exact replaces_poolSwaps.runAll_map (fun _ => rfl) hkeyed
  | poolCreation => exact replaces_poolCreations.runAll_map (fun _ => rfl) hkeyed
  | poolMint => exact (replaces_liquidity _ _).runAll_map (fun _ => rfl) hkeyed
  | poolBurn => exact (replaces_liquidity _ _).runAll_map (fun _ => rfl) hkeyed
  | subfrostWrap => exact (replaces_subfrost _).runAll_map (fun _ => rfl) hkeyed
  | subfrostUnwrap => exact (replaces_subfrost _).runAll_map (fun _ => rfl) hkeyed

end Stored

end TransactionWriters

end AlkanesIndexer
