import AlkanesIndexer.DecoderInputs

/-!
# Subfrost wraps and unwraps

Both decoders look for the first successful return of an invoke of alkane
`32:0`.  A wrap also needs that return to carry the token and takes its amount
from it; an unwrap is worth what it brought less what the return gave back.
-/

namespace AlkanesIndexer.Subfrost

def isSubfrostInvoke (opcode : ℕ) (event : JsonValue) : Bool :=
  eventType event = some "invoke" &&
    (match event.arrayAt ["data", "context", "inputs"] with
      | [] => false
      | input :: _ => (input.asStr.bind hexToU128) = some opcode) &&
    poolIdOf event = ("32", "0")

def isSubfrostWrapInvoke (event : JsonValue) : Bool := isSubfrostInvoke 77 event

def isSubfrostUnwrapInvoke (event : JsonValue) : Bool := isSubfrostInvoke 78 event

theorem eventType_of_isSubfrostInvoke
    {opcode : ℕ}
    {event : JsonValue}
    (hinvoke : isSubfrostInvoke opcode event = true) :
    eventType event = some "invoke" := by
  simp only [isSubfrostInvoke, Bool.and_eq_true, decide_eq_true_eq] at hinvoke
  exact hinvoke.1.1

def eqIgnoreAsciiCase (left right : String) : Bool :=
  left.toList.map Char.toLower = right.toList.map Char.toLower

def statusOk (ret : JsonValue) : Bool :=
  (ret.strAt ["data", "status"]).any fun status =>
    eqIgnoreAsciiCase status "success" || eqIgnoreAsciiCase status "ok"

/-- The components of an id must be hex strings here, and the token is
`0x20:0`. -/
def isSubfrostEntry (entry : JsonValue) : Bool :=
  match entry.get "id" with
  | none => false
  | some id =>
      hexToU128 ((id.strAt ["block"]).getD "") = some 0x20 &&
        hexToU128 ((id.strAt ["tx"]).getD "") = some 0

def subfrostValues (alkanes : List JsonValue) : List ℕ :=
  (alkanes.filter isSubfrostEntry).filterMap entryValue

def subfrostTotal (alkanes : List JsonValue) : ℕ :=
  (subfrostValues alkanes).foldl saturatingAdd 0

def carriesSubfrost (ret : JsonValue) : Bool := subfrostValues (responseAlkanes ret) ≠ []

def wrapReturn (ordered : List PlacedEvent) (i : ℕ) (invoke : JsonValue) : Option Candidate :=
  firstReturn ordered i (invokeVout invoke) fun ret => statusOk ret && carriesSubfrost ret

def unwrapReturn (ordered : List PlacedEvent) (i : ℕ) (invoke : JsonValue) : Option Candidate :=
  firstReturn ordered i (invokeVout invoke) statusOk

def wrapAmount (_invoke ret : JsonValue) : ℕ := subfrostTotal (responseAlkanes ret)

def unwrapAmount (invoke ret : JsonValue) : ℕ :=
  subfrostTotal (incomingAlkanes invoke) - subfrostTotal (responseAlkanes ret)

/-- The row of one invoke; a row is written whether or not a return was found. -/
def subfrostRow
    (decoded : DecodedByTxVout)
    (height : ℕ)
    (input : TxInput)
    (invoke : JsonValue)
    (found : Option Candidate)
    (amount : JsonValue → JsonValue → ℕ) : SubfrostRow where
  transactionId := input.transactionId
  blockHeight := height
  transactionIndex := input.transactionIndex
  address := pointerAddress decoded input.transactionId (invokeVout invoke)
  amount := ((found.map fun candidate => amount invoke candidate.1.1).map toString).getD "0"
  successful := found.isSome
  timestamp := input.timestamp

def rowsOfInput
    (isInvoke : JsonValue → Bool)
    (search : List PlacedEvent → ℕ → JsonValue → Option Candidate)
    (amount : JsonValue → JsonValue → ℕ)
    (decoded : DecodedByTxVout)
    (height : ℕ)
    (input : TxInput) : List SubfrostRow :=
  let ordered := orderedEvents input.events
  ordered.zipIdx.filterMap fun placed =>
    if isInvoke placed.1.1 then
      some (subfrostRow decoded height input placed.1.1
        (search ordered placed.2 placed.1.1) amount)
    else none

def wrapRows
    (decoded : DecodedByTxVout)
    (height : ℕ)
    (inputs : List TxInput) : List SubfrostRow :=
  inputs.flatMap (rowsOfInput isSubfrostWrapInvoke wrapReturn wrapAmount decoded height)

def unwrapRows
    (decoded : DecodedByTxVout)
    (height : ℕ)
    (inputs : List TxInput) : List SubfrostRow :=
  inputs.flatMap (rowsOfInput isSubfrostUnwrapInvoke unwrapReturn unwrapAmount decoded height)

section Rows

variable
  {isInvoke : JsonValue → Bool}
  {search : List PlacedEvent → ℕ → JsonValue → Option Candidate}
  {amount : JsonValue → JsonValue → ℕ}
  {decoded : DecodedByTxVout}
  {height : ℕ}
  {inputs : List TxInput}

theorem input_of_mem_rows
    {row : SubfrostRow}
    (hrow : row ∈ inputs.flatMap (rowsOfInput isInvoke search amount decoded height)) :
    ∃ input ∈ inputs, row.transactionId = input.transactionId ∧
      row.transactionIndex = input.transactionIndex ∧ row.blockHeight = height := by
  simp only [rowsOfInput, List.mem_flatMap, List.mem_filterMap] at hrow
  obtain ⟨input, hinput, placed, _, hat⟩ := hrow
  split at hat
  · simp only [Option.some.injEq] at hat
    subst hat
    exact ⟨input, hinput, rfl, rfl, rfl⟩
  · cases hat

theorem rows_eq_nil_iff :
    inputs.flatMap (rowsOfInput isInvoke search amount decoded height) = [] ↔
      ∀ input ∈ inputs, ∀ event ∈ input.events, isInvoke event = false := by
  simp only [rowsOfInput, List.flatMap_eq_nil_iff, List.filterMap_eq_nil_iff]
  refine forall₂_congr fun input _ => ?_
  constructor
  · intro hnone event hevent
    obtain ⟨k, i, hplaced⟩ := exists_ordered_of_mem hevent
    simpa using hnone ((event, k), i) hplaced
  · rintro hnone ⟨⟨event, k⟩, i⟩ hplaced
    simp [hnone event (mem_of_mem_ordered hplaced)]

end Rows

end AlkanesIndexer.Subfrost
