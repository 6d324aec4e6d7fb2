import AlkanesIndexer.EventReadings
import AlkanesIndexer.IdEncodings

/-!
# Blocks with other encodings of their ids

Two traces may name the same ids in different encodings.  As long as the readers of
addresses and of the Subfrost token get both encodings right, the decoders compute
the same rows.  The token is only looked for in transactions that wrap or unwrap.
-/

namespace AlkanesIndexer

open Sequences

/-! ## The same ids in other encodings -/

/-- A component of `context.myself` is unchanged, or both encodings of its number
are flattened to the numeral. -/
def SameAddress (component component' : Option JsonValue) : Prop :=
  component = component' ∨
    ∃ value value' n, component = some value ∧ component' = some value' ∧
      valueU128FromJson value = some n ∧ valueU128FromJson value' = some n ∧
      FlattensToValue value n ∧ FlattensToValue value' n

/-- An id with the given numbers which the test for the Subfrost token gets right, where
it is tested. -/
def EncodesToken (tested : Bool) (id : JsonValue) (block tx : ℕ) : Prop :=
  ∃ blockValue txValue, id.get "block" = some blockValue ∧ id.get "tx" = some txValue ∧
    valueU128FromJson blockValue = some block ∧ valueU128FromJson txValue = some tx ∧
    (tested = true → SubfrostReads blockValue txValue block tx)

structure SameEntry (tested : Bool) (entry entry' : JsonValue) : Prop where
  value : entry.get "value" = entry'.get "value"
  id : entry.get "id" = entry'.get "id" ∨
    ∃ id id' block tx, entry.get "id" = some id ∧ entry'.get "id" = some id' ∧
      EncodesToken tested id block tx ∧ EncodesToken tested id' block tx

/-- Two events of raw traces which differ in the encoding of their ids, as far as
they are read. -/
structure ReencodedEvent (tested : Bool) (event event' : JsonValue) : Prop where
  kind : event.strAt ["event"] = event'.strAt ["event"]
  callType : event.strAt ["data", "type"] = event'.strAt ["data", "type"]
  inputs : event.arrayAt ["data", "context", "inputs"] =
    event'.arrayAt ["data", "context", "inputs"]
  status : event.strAt ["data", "status"] = event'.strAt ["data", "status"]
  block : SameAddress (event.getPath ["data", "context", "myself", "block"])
    (event'.getPath ["data", "context", "myself", "block"])
  tx : SameAddress (event.getPath ["data", "context", "myself", "tx"])
    (event'.getPath ["data", "context", "myself", "tx"])
  incoming : List.Forall₂ (SameEntry tested)
    (event.arrayAt ["data", "context", "incomingAlkanes"])
    (event'.arrayAt ["data", "context", "incomingAlkanes"])
  outgoing : List.Forall₂ (SameEntry tested) (event.arrayAt ["data", "response", "alkanes"])
    (event'.arrayAt ["data", "response", "alkanes"])

/-- The flattened events of the traces of a transaction, each with its vout. -/
def flattenTraces (traces : List (ℤ × List JsonValue)) : List TraceEventItem :=
  traces.flatMap fun trace => flattenTrace trace.1 (.array trace.2)

/-- Only in such a transaction are ids tested for the Subfrost token. -/
def TxDecodeTraceResult.invokesSubfrost (result : TxDecodeTraceResult) : Bool :=
  result.traceEvents.any fun event => Subfrost.isEitherInvoke (BlockData.traceEventJson event)

structure ReencodedResult (result result' : TxDecodeTraceResult) : Prop where
  transactionId : result.transactionId = result'.transactionId
  transactionJson : result.transactionJson = result'.transactionJson
  traces : ∃ traces traces', result.traceEvents = flattenTraces traces ∧
    result'.traceEvents = flattenTraces traces' ∧
    List.Forall₂ (fun trace trace' => trace.1 = trace'.1 ∧
      List.Forall₂ (ReencodedEvent result.invokesSubfrost) trace.2 trace'.2) traces traces'

/-- Two blocks which differ in the encoding of the ids in their traces. -/
structure ReencodedBlock (data data' : BlockData) : Prop where
  height : data.height = data'.height
  timestampOpt : data.rpc.timestampOpt = data'.rpc.timestampOpt
  results : List.Forall₂ ReencodedResult data.results data'.results

/-! ## They read alike -/

theorem address_of_same
    {component component' : Option JsonValue}
    (hsame : SameAddress component component') :
    decimalAddress ((component.bind JsonValue.asStr).getD "") =
      decimalAddress ((component'.bind JsonValue.asStr).getD "") := by
  rcases hsame with rfl | ⟨value, value', n, rfl, rfl, hvalue, hvalue', hflat, hflat'⟩
  · rfl
  · rw [Option.bind_some, Option.bind_some, (decimalAddress_eq_iff hvalue).mpr hflat,
      (decimalAddress_eq_iff hvalue').mpr hflat']

theorem EncodesToken.untested
    {tested : Bool}
    {id : JsonValue}
    {block tx : ℕ}
    (hencodes : EncodesToken tested id block tx) :
    EncodesToken false id block tx := by
  obtain ⟨blockValue, txValue, hblock, htx, hblockValue, htxValue, _⟩ := hencodes
  exact ⟨blockValue, txValue, hblock, htx, hblockValue, htxValue, nofun⟩

theorem SameEntry.untested
    {tested : Bool}
    {entry entry' : JsonValue}
    (hsame : SameEntry tested entry entry') :
    SameEntry false entry entry' where
  value := hsame.value
  id := hsame.id.imp_right fun ⟨id, id', block, tx, hid, hid', hencodes, hencodes'⟩ =>
    ⟨id, id', block, tx, hid, hid', hencodes.untested, hencodes'.untested⟩

theorem ReencodedEvent.untested
    {tested : Bool}
    {event event' : JsonValue}
    (hsame : ReencodedEvent tested event event') :
    ReencodedEvent false event event' :=
  { hsame with
    incoming := hsame.incoming.imp fun _ _ hentry => hentry.untested
    outgoing := hsame.outgoing.imp fun _ _ hentry => hentry.untested }

theorem readEntry_of_same
    {tested : Bool}
    {entry entry' : JsonValue}
    (hsame : SameEntry tested entry entry') :
    readEntry tested entry = readEntry tested entry' := by
  have hvalue : entryValue entry = entryValue entry' := by
    unfold entryValue
    rw [hsame.value]
  rcases hsame.id with hid | ⟨id, id', block, tx, hid, hid', hencodes, hencodes'⟩
  · unfold readEntry Subfrost.isSubfrostEntry
    rw [hid, hvalue]
  · obtain ⟨blockValue, txValue, hblock, htx, hblockValue, htxValue, hreads⟩ := hencodes
    obtain ⟨blockValue', txValue', hblock', htx', hblockValue', htxValue', hreads'⟩ := hencodes'
    have hsubfrost : (tested && Subfrost.isSubfrostEntry entry) =
        (tested && Subfrost.isSubfrostEntry entry') := by
      cases tested with
      | false => rfl
      | true =>
          rw [Bool.true_and, Bool.true_and, Bool.eq_iff_iff,
            (subfrostReads_iff hid hblock htx hblockValue htxValue).mpr (hreads rfl),
            (subfrostReads_iff hid' hblock' htx' hblockValue' htxValue').mpr (hreads' rfl)]
    unfold readEntry
    rw [hvalue, hsubfrost, hid, hid']
    simp [idComponent, hblock, htx, hblock', htx', hblockValue, htxValue, hblockValue',
      htxValue']

theorem getPath_flattenEvent
    (vout : ℤ)
    (event : JsonValue)
    (key : String)
    (path : List String) :
    (flattenEvent vout event).data.getPath (key :: path) =
      event.getPath ("data" :: key :: path) := by
  unfold flattenEvent
  dsimp only
  cases hdata : event.get "data" with
  | none =>
      have hempty : (JsonValue.object []).get key = none := rfl
      simp only [JsonValue.getPath, hdata, Option.getD_none, hempty, Option.bind_none]
  | some data => simp [JsonValue.getPath, hdata]

/-- What the decoders read of a flattened event, in terms of the raw one. -/
theorem readEvent_flattenEvent
    (tested : Bool)
    (vout : ℤ)
    (event : JsonValue) :
    readEvent tested (BlockData.traceEventJson (flattenEvent vout event)) =
      { eventType := some ((event.strAt ["event"]).getD "unknown")
        vout := (JsonValue.ofInt vout).asI64
        pool := if (event.strAt ["event"]).getD "unknown" = "invoke" then
            (decimalAddress (((event.getPath ["data", "context", "myself", "block"]).bind
                JsonValue.asStr).getD ""),
              decimalAddress (((event.getPath ["data", "context", "myself", "tx"]).bind
                JsonValue.asStr).getD ""))
          else ("", "")
        callType := event.strAt ["data", "type"]
        inputs := event.arrayAt ["data", "context", "inputs"]
        status := event.strAt ["data", "status"]
        incoming := (event.arrayAt ["data", "context", "incomingAlkanes"]).map
          (readEntry tested)
        outgoing := (event.arrayAt ["data", "response", "alkanes"]).map
          (readEntry tested) } := by
  have hdata : ∀ key path,
      (BlockData.traceEventJson (flattenEvent vout event)).getPath ("data" :: key :: path) =
        event.getPath ("data" :: key :: path) := by
    intro key path
    exact getPath_flattenEvent vout event key path
  have haddress : ∀ key, addressComponent (flattenEvent vout event).data key =
      decimalAddress (((event.getPath ["data", "context", "myself", key]).bind
        JsonValue.asStr).getD "") := by
    intro key
    change decimalAddress ((((flattenEvent vout event).data.getPath
      ["context", "myself", key]).bind JsonValue.asStr).getD "") = _
    rw [getPath_flattenEvent]
  unfold readEvent incomingAlkanes responseAlkanes JsonValue.strAt JsonValue.arrayAt
  simp only [hdata]
  congr 1
  change (if _ then addressComponent (flattenEvent vout event).data "block" else "",
    if _ then addressComponent (flattenEvent vout event).data "tx" else "") = _
  rw [haddress, haddress]
  change (if (event.strAt ["event"]).getD "unknown" = "invoke" then _ else _,
    if (event.strAt ["event"]).getD "unknown" = "invoke" then _ else _) =
    if (event.strAt ["event"]).getD "unknown" = "invoke" then _ else _
  split <;> rfl

theorem readEvent_of_reencoded
    {tested : Bool}
    {event event' : JsonValue}
    (hsame : ReencodedEvent tested event event')
    (vout : ℤ) :
    readEvent tested (BlockData.traceEventJson (flattenEvent vout event)) =
      readEvent tested (BlockData.traceEventJson (flattenEvent vout event')) := by
  have hincoming :
      (event.arrayAt ["data", "context", "incomingAlkanes"]).map (readEntry tested) =
        (event'.arrayAt ["data", "context", "incomingAlkanes"]).map (readEntry tested) :=
    map_eq_of_forall₂ (fun _ _ => readEntry_of_same) hsame.incoming
  have houtgoing : (event.arrayAt ["data", "response", "alkanes"]).map (readEntry tested) =
      (event'.arrayAt ["data", "response", "alkanes"]).map (readEntry tested) :=
    map_eq_of_forall₂ (fun _ _ => readEntry_of_same) hsame.outgoing
  rw [readEvent_flattenEvent, readEvent_flattenEvent, hsame.kind, hsame.callType, hsame.inputs,
    hsame.status, address_of_same hsame.block, address_of_same hsame.tx, hincoming, houtgoing]

theorem readings_of_reencodedTraces
    {tested : Bool}
    {traces traces' : List (ℤ × List JsonValue)}
    (hsame : List.Forall₂ (fun trace trace' => trace.1 = trace'.1 ∧
      List.Forall₂ (ReencodedEvent tested) trace.2 trace'.2) traces traces') :
    ((flattenTraces traces).map BlockData.traceEventJson).map (readEvent tested) =
      ((flattenTraces traces').map BlockData.traceEventJson).map (readEvent tested) := by
  have hflat : ∀ traces : List (ℤ × List JsonValue),
      ((flattenTraces traces).map BlockData.traceEventJson).map (readEvent tested) =
        (traces.map fun trace => trace.2.map fun event =>
          readEvent tested (BlockData.traceEventJson (flattenEvent trace.1 event))).flatten := by
    intro traces
    unfold flattenTraces
    rw [List.map_flatMap, List.map_flatMap, List.flatMap_def]
    congr 1
    apply List.map_congr_left
    intro trace _
    simp [flattenTrace, JsonValue.asArray]
  rw [hflat, hflat]
  apply congrArg List.flatten
  apply map_eq_of_forall₂ _ hsame
  rintro ⟨vout, events⟩ ⟨vout', events'⟩ ⟨rfl, hevents⟩
  exact map_eq_of_forall₂ (fun _ _ hevent => readEvent_of_reencoded hevent vout) hevents

/-! ## The same rows -/

structure SameInput (input input' : TxInput) : Prop where
  same : input' = { input with events := input'.events }
  readings : input.events.map (readEvent false) = input'.events.map (readEvent false)
  tokens : input.events.map (readEvent true) = input'.events.map (readEvent true) ∨
    ∀ event ∈ input.events, Subfrost.isEitherInvoke event = false

theorem forall₂_zipIdx
    {α β : Type*}
    {related : α → β → Prop}
    {items : List α}
    {items' : List β}
    (hitems : List.Forall₂ related items items')
    (start : ℕ) :
    List.Forall₂ (fun placed placed' => related placed.1 placed'.1 ∧ placed.2 = placed'.2)
      (items.zipIdx start) (items'.zipIdx start) := by
  induction hitems generalizing start with
  | nil => exact .nil
  | cons hitem _ ih => exact .cons ⟨hitem, rfl⟩ (ih (start + 1))

theorem inputs_of_reencoded
    {data data' : BlockData}
    (hsame : ReencodedBlock data data') :
    List.Forall₂ SameInput data.inputs data'.inputs := by
  unfold BlockData.inputs
  rw [List.forall₂_map_left_iff, List.forall₂_map_right_iff]
  apply (forall₂_zipIdx hsame.results 0).imp
  rintro ⟨result, i⟩ ⟨result', i'⟩ ⟨hresult, hplace⟩
  dsimp only at hplace
  subst hplace
  obtain ⟨hid, hjson, traces, traces', hevents, hevents', htraces⟩ := hresult
  dsimp only at hid hjson hevents hevents'
  have huntested : List.Forall₂ (fun trace trace' => trace.1 = trace'.1 ∧
      List.Forall₂ (ReencodedEvent false) trace.2 trace'.2) traces traces' :=
    htraces.imp fun _ _ htrace =>
      ⟨htrace.1, htrace.2.imp fun _ _ hevent => hevent.untested⟩
  constructor
  · simp only [hid, hjson, hsame.timestampOpt]
  · simp only [hevents, hevents']
    exact readings_of_reencodedTraces huntested
  · cases hinvokes : result.invokesSubfrost with
    | true =>
        left
        rw [hinvokes] at htraces
        simp only [hevents, hevents']
        exact readings_of_reencodedTraces htraces
    | false =>
        right
        intro event hevent
        obtain ⟨item, hitem, rfl⟩ := List.mem_map.mp hevent
        exact Bool.eq_false_iff.mpr (List.any_eq_false.mp hinvokes item hitem)

theorem uniquePools_of_readings
    {isCandidate : JsonValue → Bool}
    (hcandidate : ∀ event event', readEvent false event = readEvent false event' →
      isCandidate event = isCandidate event')
    {inputs inputs' : List TxInput}
    (hinputs : List.Forall₂ SameInput inputs inputs') :
    uniquePools isCandidate inputs = uniquePools isCandidate inputs' := by
  have hreadings : (inputs.flatMap TxInput.events).map (readEvent false) =
      (inputs'.flatMap TxInput.events).map (readEvent false) := by
    rw [List.map_flatMap, List.map_flatMap, List.flatMap_def, List.flatMap_def]
    apply congrArg List.flatten
    exact map_eq_of_forall₂ (fun _ _ hinput => hinput.readings) hinputs
  obtain ⟨pairs, hleft, hright⟩ := exists_pairs_of_map_eq hreadings
  unfold uniquePools
  rw [hleft, hright]
  have hcandidates : ∀ pair : { pair : JsonValue × JsonValue //
      readEvent false pair.1 = readEvent false pair.2 },
      isCandidate pair.1.1 = isCandidate pair.1.2 :=
    fun pair => hcandidate _ _ pair.2
  have hpools : ∀ pair : { pair : JsonValue × JsonValue //
      readEvent false pair.1 = readEvent false pair.2 },
      poolIdOf pair.1.1 = poolIdOf pair.1.2 :=
    fun pair => poolIdOf_of_readings pair.2
  simp only [List.filter_map, List.map_map, Function.comp_def, hcandidates, hpools]

theorem tokenMapOf_of_readings
    (table : DerivedTable)
    (pools : List PoolRow)
    {inputs inputs' : List TxInput}
    (hinputs : List.Forall₂ SameInput inputs inputs') :
    table.tokenMapOf pools inputs = table.tokenMapOf pools inputs' := by
  have hmap : ∀ isOpcode, blockTokenMap (isDelegateInvoke isOpcode) pools inputs =
      blockTokenMap (isDelegateInvoke isOpcode) pools inputs' := by
    intro isOpcode
    rw [blockTokenMap_eq, blockTokenMap_eq, uniquePools_of_readings
      (fun _ _ hread => isDelegateInvoke_of_readings hread isOpcode) hinputs]
  cases table with
  | poolSwap => exact hmap _
  | poolMint => exact hmap _
  | poolBurn => exact hmap _
  | poolCreation => rfl
  | subfrostWrap => rfl
  | subfrostUnwrap => rfl

theorem derivedBatch_of_reencoded
    {data data' : BlockData}
    (hsame : ReencodedBlock data data')
    (decoded : DecodedByTxVout)
    (pools : List PoolRow)
    (table : DerivedTable) :
    data.derivedBatch decoded pools table = data'.derivedBatch decoded pools table := by
  have hinputs := inputs_of_reencoded hsame
  rw [DerivedTable.derivedBatch_eq_flatMap_txRows, DerivedTable.derivedBatch_eq_flatMap_txRows,
    tokenMapOf_of_readings table pools hinputs, hsame.height, List.flatMap_def, List.flatMap_def]
  apply congrArg List.flatten
  apply map_eq_of_forall₂ _ hinputs
  intro input input' hinput
  rw [hinput.same]
  rcases hinput.tokens with htokens | hnone
  · exact txRows_of_readings htokens (.inl rfl)
  · exact txRows_of_readings hinput.readings (.inr hnone)

/-! ## When there is one normal form -/

/-- An id component is flattened to the numeral of its value, and the Subfrost
decoders test an id by its numbers, exactly for the encodings of `FlattensToValue`
and `SubfrostReads`.  Blocks which differ in such encodings have the same rows. -/
theorem oneNormalForm_iff
    (component : JsonValue)
    (n : ℕ)
    (id blockValue txValue : JsonValue)
    (block tx : ℕ)
    (data data' : BlockData) :
    (valueU128FromJson component = some n →
      ((∀ trace key, trace.getPath ["context", "myself", key] = some component →
          addressComponent trace key = toString n) ↔
        FlattensToValue component n)) ∧
      (id.get "block" = some blockValue → id.get "tx" = some txValue →
        valueU128FromJson blockValue = some block → valueU128FromJson txValue = some tx →
          ((∀ entry, entry.get "id" = some id →
              (Subfrost.isSubfrostEntry entry = true ↔ block = 32 ∧ tx = 0)) ↔
            SubfrostReads blockValue txValue block tx)) ∧
      (ReencodedBlock data data' → ∀ decoded pools table,
        data.derivedBatch decoded pools table = data'.derivedBatch decoded pools table) := by
  refine ⟨?_, ?_, derivedBatch_of_reencoded⟩
  · intro hvalue
    constructor
    · intro hflat
      have hat := hflat (.object [("context", .object [("myself", .object [("", component)])])])
        "" rfl
      rw [addressComponent_eq rfl] at hat
      exact (decimalAddress_eq_iff hvalue).mp hat
    · intro hflat trace key hcomponent
      rw [addressComponent_eq hcomponent]
      exact (decimalAddress_eq_iff hvalue).mpr hflat
  · intro hblock htx hblockValue htxValue
    constructor
    · intro hreads
      have hentry := hreads (.object [("id", id)]) rfl
      exact (subfrostReads_iff rfl hblock htx hblockValue htxValue).mp hentry
    · intro hreads entry hid
      exact (subfrostReads_iff hid hblock htx hblockValue htxValue).mpr hreads

def resultOf (txid : String) (trace : List JsonValue) : TxDecodeTraceResult where
  transactionId := txid
  transactionJson := opReturnTx txid
  decodedProtostones := []
  traceEvents := flattenTrace 3 (.array trace)
  hasTrace := true
  traceSucceed := true

/-- A transaction wraps, and another one swaps. -/
def wrapAndSwap (wrapped swapped : AlkaneId) : BlockData where
  rpc := Rpc.serving "hash" []
  height := 5
  blockHash := "hash"
  txs := [opReturnTx "a1", opReturnTx "a2"]
  results := [
    resultOf "a1" [invokeTrace wrapped "0x4d" [], returnTrace [alkaneEntry wrapped 5]],
    resultOf "a2" [invokeTrace ("0x2", "0x1") "0x3" [alkaneEntry swapped 7], returnTrace []]]
  results_nil := fun hnone => absurd hnone (by decide)

theorem reencodedResult_of_trace
    {txid : String}
    {trace trace' : List JsonValue}
    (hsame : List.Forall₂ (ReencodedEvent (resultOf txid trace).invokesSubfrost) trace trace') :
    ReencodedResult (resultOf txid trace) (resultOf txid trace') := by
  have hflat : ∀ trace, (resultOf txid trace).traceEvents = flattenTraces [(3, trace)] :=
    fun trace => (List.append_nil _).symm
  exact ⟨rfl, rfl, _, _, hflat trace, hflat trace', .cons ⟨rfl, hsame⟩ .nil⟩

theorem sameAddress_of_marked
    {text text' : String}
    {n : ℕ}
    (hvalue : valueU128FromJson (.string text) = some n ∧ hexMarked text = true)
    (hvalue' : valueU128FromJson (.string text') = some n ∧ hexMarked text' = true) :
    SameAddress (some (.string text)) (some (.string text')) :=
  .inr ⟨_, _, n, rfl, rfl, hvalue.1, hvalue'.1, ⟨text, rfl, .inl hvalue.2⟩,
    text', rfl, .inl hvalue'.2⟩

/-- The Subfrost decoders would take the decimal `20` for the block of their token, but they
do not look at the swap. -/
theorem wrapAndSwap_reencoded :
    ReencodedBlock (wrapAndSwap ("0x20", "0x0") ("0x14", "0x0"))
      (wrapAndSwap ("0x020", "0x00") ("20", "0")) := by
  have hblock : SameAddress (some (.string "0x20")) (some (.string "0x020")) :=
    sameAddress_of_marked (n := 32) (by decide) (by decide)
  have htx : SameAddress (some (.string "0x0")) (some (.string "0x00")) :=
    sameAddress_of_marked (n := 0) (by decide) (by decide)
  have hwrapped : ∀ tested, SameEntry tested (alkaneEntry ("0x20", "0x0") 5)
      (alkaneEntry ("0x020", "0x00") 5) := by
    intro tested
    refine ⟨rfl, .inr ⟨_, _, 32, 0, rfl, rfl, ⟨_, _, rfl, rfl, by decide, by decide, ?_⟩,
      ⟨_, _, rfl, rfl, by decide, by decide, ?_⟩⟩⟩
    · exact fun _ => ⟨fun _ => ⟨⟨_, rfl, by decide⟩, _, rfl⟩, nofun⟩
    · exact fun _ => ⟨fun _ => ⟨⟨_, rfl, by decide⟩, _, rfl⟩, nofun⟩
  have hswapped : SameEntry false (alkaneEntry ("0x14", "0x0") 7) (alkaneEntry ("20", "0") 7) :=
    ⟨rfl, .inr ⟨_, _, 20, 0, rfl, rfl, ⟨_, _, rfl, rfl, by decide, by decide, nofun⟩,
      ⟨_, _, rfl, rfl, by decide, by decide, nofun⟩⟩⟩
  have hsame : SameAddress none none := .inl rfl
  have hnot : (resultOf "a2" [invokeTrace ("0x2", "0x1") "0x3" [alkaneEntry ("0x14", "0x0") 7],
      returnTrace []]).invokesSubfrost = false := by
    decide
  refine ⟨rfl, rfl, .cons (reencodedResult_of_trace ?_)
    (.cons (reencodedResult_of_trace ?_) .nil)⟩
  · exact .cons ⟨rfl, rfl, rfl, rfl, hblock, htx, .nil, .nil⟩
      (.cons ⟨rfl, rfl, rfl, rfl, hsame, hsame, .nil, .cons (hwrapped _) .nil⟩ .nil)
  · rw [hnot]
    exact .cons ⟨rfl, rfl, rfl, rfl, .inl rfl, .inl rfl, .cons hswapped .nil, .nil⟩
      (.cons ⟨rfl, rfl, rfl, rfl, hsame, hsame, .nil, .nil⟩ .nil)

theorem wrapAndSwap_rows :
    (wrapAndSwap ("0x20", "0x0") ("0x14", "0x0")).results ≠
        (wrapAndSwap ("0x020", "0x00") ("20", "0")).results ∧
      ∀ decoded pools table,
        (wrapAndSwap ("0x20", "0x0") ("0x14", "0x0")).derivedBatch decoded pools table =
          (wrapAndSwap ("0x020", "0x00") ("20", "0")).derivedBatch decoded pools table :=
  ⟨by decide, (oneNormalForm_iff .null 0 .null .null .null 0 0 _ _).2.2 wrapAndSwap_reencoded⟩

def wrapOf (id : AlkaneId) : TxInput where
  transactionId := "aa"
  transactionIndex := 0
  timestamp := 0
  transactionJson := .object []
  events := eventsOfTrace 3 [invokeTrace id "0x4d" [],
    returnTrace [alkaneEntry ("0x20", "0x0") 5]]

/-- The same id in decimal digits loses the row. -/
theorem not_oneNormalForm_decimal :
    valueU128FromJson (.string "32") = some 32 ∧ valueU128FromJson (.string "0x20") = some 32 ∧
      (wrapOf ("32", "0")).events.map poolIdOf = [("50", "0"), ("", "")] ∧
      DerivedTable.subfrostWrap.txRows (fun _ => none) (fun _ _ => []) 5 (wrapOf ("32", "0")) ≠
        DerivedTable.subfrostWrap.txRows (fun _ => none) (fun _ _ => []) 5
          (wrapOf ("0x20", "0")) := by
  decide

end AlkanesIndexer
