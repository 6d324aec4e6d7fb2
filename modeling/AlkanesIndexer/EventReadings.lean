import AlkanesIndexer.VoutIsolation

/-!
# What the decoders read of an event

The decoders look at an event through a few readers: its type, vout and address,
the type, inputs and status of its data, and of every alkane entry the id and the
value as numbers.  The Subfrost decoders also test the entries for their token, but
only where a transaction has an invoke of theirs.  Events which read alike have the
same rows.
-/

namespace AlkanesIndexer

open Sequences

/-! ## Readings -/

structure EntryReading where
  id : Option AlkaneId
  value : Option ℕ
  subfrost : Bool
  deriving DecidableEq, Repr

/-- With the test for the token or without it. -/
def readEntry (tested : Bool) (entry : JsonValue) : EntryReading where
  id := (entry.get "id").map fun id => (idComponent id "block", idComponent id "tx")
  value := entryValue entry
  subfrost := tested && Subfrost.isSubfrostEntry entry

structure EventReading where
  eventType : Option String
  vout : Option ℤ
  pool : AlkaneId
  callType : Option String
  inputs : List JsonValue
  status : Option String
  incoming : List EntryReading
  outgoing : List EntryReading
  deriving DecidableEq, Repr

def readEvent (tested : Bool) (event : JsonValue) : EventReading where
  eventType := eventType event
  vout := eventVout event
  pool := poolIdOf event
  callType := event.strAt ["data", "type"]
  inputs := event.arrayAt ["data", "context", "inputs"]
  status := event.strAt ["data", "status"]
  incoming := (incomingAlkanes event).map (readEntry tested)
  outgoing := (responseAlkanes event).map (readEntry tested)

/-- A Subfrost decoder makes a row of the event. -/
def Subfrost.isEitherInvoke (event : JsonValue) : Bool :=
  isSubfrostWrapInvoke event || isSubfrostUnwrapInvoke event

theorem namesToken_eq
    (tested : Bool)
    (entry : JsonValue)
    (token : AlkaneId) :
    namesToken entry token.1 token.2 = decide ((readEntry tested entry).id = some token) := by
  unfold namesToken readEntry
  cases entry.get "id" with
  | none => simp
  | some id => simp [Prod.ext_iff]

/-! ## Lists of entries -/

section Entries

variable {tested : Bool} {alkanes alkanes' : List JsonValue}

theorem tokenTotal_of_readings
    (hread : alkanes.map (readEntry tested) = alkanes'.map (readEntry tested))
    (token : AlkaneId) :
    calculateTokenTotal alkanes token.1 token.2 =
      calculateTokenTotal alkanes' token.1 token.2 := by
  have hfold : ∀ entries : List JsonValue, calculateTokenTotal entries token.1 token.2 =
      (entries.map (readEntry tested)).foldl (fun total reading =>
        if reading.id = some token then reading.value.elim total (saturatingAdd total)
        else total) 0 := by
    intro entries
    rw [List.foldl_map]
    unfold calculateTokenTotal
    simp only [namesToken_eq tested, decide_eq_true_eq]
    congr 1
    funext total entry
    split
    · cases hvalue : entryValue entry with
      | none => simp [readEntry, hvalue]
      | some value => simp [readEntry, hvalue]
    · rfl
  rw [hfold, hfold, hread]

theorem nonLpIds_of_readings
    (hread : alkanes.map (readEntry tested) = alkanes'.map (readEntry tested))
    (pool : AlkaneId) :
    PoolCreation.nonLpIds pool alkanes = PoolCreation.nonLpIds pool alkanes' := by
  have hfold : ∀ entries : List JsonValue, PoolCreation.nonLpIds pool entries =
      (entries.map (readEntry tested)).foldl (fun ids reading =>
        match reading.id with
        | none => ids
        | some pair => if pair = pool ∨ pair ∈ ids then ids else ids ++ [pair]) [] := by
    intro entries
    rw [List.foldl_map]
    unfold PoolCreation.nonLpIds
    congr 1
    funext ids entry
    unfold readEntry
    cases entry.get "id" <;> rfl
  rw [hfold, hfold, hread]

theorem any_expected_of_readings
    (hread : alkanes.map (readEntry tested) = alkanes'.map (readEntry tested))
    (expected : AlkaneId)
    (allowed : List ℕ) :
    alkanes.any (PoolSwap.isExpectedEntry expected allowed) =
      alkanes'.any (PoolSwap.isExpectedEntry expected allowed) := by
  have hany : ∀ entries : List JsonValue,
      entries.any (PoolSwap.isExpectedEntry expected allowed) =
        (entries.map (readEntry tested)).any fun reading =>
          decide (reading.id = some expected) &&
            (allowed.isEmpty || reading.value.any fun value => value ∈ allowed) := by
    intro entries
    rw [List.any_map]
    unfold PoolSwap.isExpectedEntry
    simp only [namesToken_eq tested]
    rfl
  rw [hany, hany, hread]

theorem subfrostValues_of_readings
    (hread : alkanes.map (readEntry true) = alkanes'.map (readEntry true)) :
    Subfrost.subfrostValues alkanes = Subfrost.subfrostValues alkanes' := by
  have hvalues : ∀ entries : List JsonValue, Subfrost.subfrostValues entries =
      ((entries.map (readEntry true)).filter EntryReading.subfrost).filterMap
        EntryReading.value := by
    intro entries
    rw [List.filter_map, List.filterMap_map]
    rfl
  rw [hvalues, hvalues, hread]

end Entries

/-! ## Single events -/

section Events

variable {tested : Bool} {event event' ret ret' : JsonValue}

theorem invokeVout_of_readings
    (hread : readEvent tested event = readEvent tested event') :
    invokeVout event = invokeVout event' :=
  congrArg (fun reading : EventReading => reading.vout.getD (-1)) hread

theorem poolIdOf_of_readings
    (hread : readEvent tested event = readEvent tested event') :
    poolIdOf event = poolIdOf event' :=
  congrArg EventReading.pool hread

theorem incoming_of_readings
    (hread : readEvent tested event = readEvent tested event') :
    (incomingAlkanes event).map (readEntry tested) =
      (incomingAlkanes event').map (readEntry tested) :=
  congrArg EventReading.incoming hread

theorem outgoing_of_readings
    (hread : readEvent tested ret = readEvent tested ret') :
    (responseAlkanes ret).map (readEntry tested) =
      (responseAlkanes ret').map (readEntry tested) :=
  congrArg EventReading.outgoing hread

theorem isReturnOn_of_readings
    (hread : readEvent tested ret = readEvent tested ret')
    (vout : ℤ) :
    isReturnOn vout ret = isReturnOn vout ret' :=
  congrArg (fun reading : EventReading => decide (reading.eventType = some "return") &&
    decide (reading.vout = some vout)) hread

theorem get_of_asObject_eq_none
    {value : JsonValue}
    (hobject : value.asObject = none)
    (key : String) :
    value.get key = none := by
  cases value with
  | object fields => cases hobject
  | null => rfl
  | bool value => rfl
  | number value => rfl
  | string text => rfl
  | array items => rfl

/-- A call type can only be read off an object. -/
theorem isDelegateInvoke_eq
    (tested : Bool)
    (isOpcode : String → Bool)
    (event : JsonValue) :
    isDelegateInvoke isOpcode event =
      ((readEvent tested event).eventType = some "invoke" &&
        ((readEvent tested event).callType = some "delegatecall" &&
          match (readEvent tested event).inputs with
          | [] => false
          | opcode :: _ => opcode.asStr.any isOpcode)) := by
  unfold isDelegateInvoke
  congr 1
  cases hobject : (event.get "data").bind JsonValue.asObject with
  | some fields =>
      obtain ⟨data, hdata, hfields⟩ := Option.bind_eq_some_iff.mp hobject
      have hsame : data = .object fields := by
        cases data <;> simp_all [JsonValue.asObject]
      subst hsame
      have hpath : ∀ path, event.getPath ("data" :: path) =
          (JsonValue.object fields).getPath path := by
        intro path
        simp [JsonValue.getPath, hdata]
      simp only [readEvent, JsonValue.strAt, JsonValue.arrayAt, hpath]
      rfl
  | none =>
      have hnone : (readEvent tested event).callType = none := by
        cases hdata : event.get "data" with
        | none => simp [readEvent, JsonValue.strAt, JsonValue.getPath, hdata]
        | some data =>
            rw [hdata, Option.bind_some] at hobject
            simp [readEvent, JsonValue.strAt, JsonValue.getPath, hdata,
              get_of_asObject_eq_none hobject]
      simp [hnone]

theorem isDelegateInvoke_of_readings
    (hread : readEvent tested event = readEvent tested event')
    (isOpcode : String → Bool) :
    isDelegateInvoke isOpcode event = isDelegateInvoke isOpcode event' := by
  rw [isDelegateInvoke_eq tested, isDelegateInvoke_eq tested, hread]

theorem isSubfrostInvoke_of_readings
    (hread : readEvent tested event = readEvent tested event')
    (opcode : ℕ) :
    Subfrost.isSubfrostInvoke opcode event = Subfrost.isSubfrostInvoke opcode event' :=
  congrArg (fun reading : EventReading => decide (reading.eventType = some "invoke") &&
    (match reading.inputs with
      | [] => false
      | input :: _ => decide ((input.asStr.bind hexToU128) = some opcode)) &&
    decide (reading.pool = ("32", "0"))) hread

theorem statusOk_of_readings
    (hread : readEvent tested ret = readEvent tested ret') :
    Subfrost.statusOk ret = Subfrost.statusOk ret' :=
  congrArg (fun reading : EventReading => reading.status.any fun status =>
    Subfrost.eqIgnoreAsciiCase status "success" ||
      Subfrost.eqIgnoreAsciiCase status "ok") hread

theorem allowedAmounts_of_readings
    (hread : readEvent tested event = readEvent tested event') :
    PoolSwap.allowedAmounts event = PoolSwap.allowedAmounts event' := by
  have hinputs : event.arrayAt ["data", "context", "inputs"] =
      event'.arrayAt ["data", "context", "inputs"] := congrArg EventReading.inputs hread
  unfold PoolSwap.allowedAmounts
  rw [hinputs]

theorem returnTotals_of_readings
    (hread : readEvent tested event = readEvent tested event')
    (hret : readEvent tested ret = readEvent tested ret')
    (tokens : AlkaneId × AlkaneId) :
    LiquidityDecoder.returnTotals tokens event ret =
      LiquidityDecoder.returnTotals tokens event' ret' := by
  unfold LiquidityDecoder.returnTotals LiquidityDecoder.totals
  have hincoming := tokenTotal_of_readings (incoming_of_readings hread)
  have houtgoing := tokenTotal_of_readings (outgoing_of_readings hret)
  rw [poolIdOf_of_readings hread, hincoming, hincoming, hincoming, houtgoing, houtgoing,
    houtgoing]

end Events

/-! ## Searches over events which read alike -/

section Searches

variable {α : Type*} {tested : Bool} {left right : α → JsonValue}

/-- Two lists of events which read alike at each place are sorted alike. -/
theorem exists_orderedEvents_map
    (hread : ∀ item, readEvent tested (left item) = readEvent tested (right item))
    (items : List α) :
    ∃ sorted : List (α × ℕ),
      orderedEvents (items.map left) = sorted.map (Prod.map left id) ∧
        orderedEvents (items.map right) = sorted.map (Prod.map right id) := by
  let le : α × ℕ → α × ℕ → Prop := fun first second =>
    eventLe (left first.1, first.2) (left second.1, second.2)
  have hle : DecidableRel le := fun first second =>
    inferInstanceAs (Decidable (eventLe _ _))
  have hsort : ∀ item, sortVout (left item) = sortVout (right item) :=
    fun item => congrArg (fun reading : EventReading => reading.vout.getD i64Min) (hread item)
  have hweight : ∀ item, eventWeight (left item) = eventWeight (right item) :=
    fun item => congrArg (fun reading : EventReading =>
      if reading.eventType.getD "" = "invoke" then 0
      else if reading.eventType.getD "" = "return" then 1 else 2) (hread item)
  refine ⟨items.zipIdx.insertionSort le, ?_, ?_⟩
  · unfold orderedEvents
    rw [List.zipIdx_map]
    exact (List.map_insertionSort le eventLe (Prod.map left id) items.zipIdx
      fun _ _ _ _ => Iff.rfl).symm
  · unfold orderedEvents
    rw [List.zipIdx_map]
    refine (List.map_insertionSort le eventLe (Prod.map right id) items.zipIdx ?_).symm
    intro first _ second _
    change eventLe _ _ ↔ eventLe _ _
    rw [eventLe_iff, eventLe_iff]
    simp [hsort, hweight]

theorem laterEvents_map
    (place : α → JsonValue)
    (sorted : List (α × ℕ))
    (i : ℕ) :
    laterEvents (sorted.map (Prod.map place id)) i =
      (sorted.zipIdx.drop (i + 1)).map (Prod.map (Prod.map place id) id) := by
  unfold laterEvents
  rw [List.zipIdx_map, List.map_drop]

theorem exists_bestReturn_map
    (hread : ∀ item, readEvent tested (left item) = readEvent tested (right item))
    (sorted : List (α × ℕ))
    (i : ℕ)
    (vout : ℤ)
    {admissible admissible' : JsonValue → Bool}
    {better better' : JsonValue × ℕ → JsonValue × ℕ → Bool}
    (hadmissible : ∀ item, admissible (left item) = admissible' (right item))
    (hbetter : ∀ first second j k,
      better (left first, j) (left second, k) = better' (right first, j) (right second, k)) :
    ∃ found : Option ((α × ℕ) × ℕ),
      bestReturn (sorted.map (Prod.map left id)) i vout admissible better =
          found.map (Prod.map (Prod.map left id) id) ∧
        bestReturn (sorted.map (Prod.map right id)) i vout admissible' better' =
          found.map (Prod.map (Prod.map right id) id) := by
  refine ⟨choose (fun item => isReturnOn vout (left item.1.1) && admissible (left item.1.1))
    (fun candidate best => better (left candidate.1.1, candidate.2) (left best.1.1, best.2))
    (sorted.zipIdx.drop (i + 1)), ?_, ?_⟩
  · unfold bestReturn
    rw [laterEvents_map, choose_map]
    rfl
  · unfold bestReturn
    rw [laterEvents_map, choose_map]
    simp only [hadmissible, hbetter, isReturnOn_of_readings (hread _)]
    rfl

theorem exists_firstReturn_map
    (hread : ∀ item, readEvent tested (left item) = readEvent tested (right item))
    (sorted : List (α × ℕ))
    (i : ℕ)
    (vout : ℤ)
    (admissible : JsonValue → Bool)
    (hadmissible : ∀ item, admissible (left item) = admissible (right item)) :
    ∃ found : Option ((α × ℕ) × ℕ),
      firstReturn (sorted.map (Prod.map left id)) i vout admissible =
          found.map (Prod.map (Prod.map left id) id) ∧
        firstReturn (sorted.map (Prod.map right id)) i vout admissible =
          found.map (Prod.map (Prod.map right id) id) := by
  refine ⟨(sorted.zipIdx.drop (i + 1)).find? fun item =>
    isReturnOn vout (left item.1.1) && admissible (left item.1.1), ?_, ?_⟩
  · unfold firstReturn
    rw [laterEvents_map, List.find?_map]
    rfl
  · unfold firstReturn
    rw [laterEvents_map, List.find?_map]
    simp only [hadmissible, isReturnOn_of_readings (hread _)]
    rfl

/-! ## Rows -/

theorem foundAlkanes_of_readings
    (hread : ∀ item, readEvent tested (left item) = readEvent tested (right item))
    (found : Option ((α × ℕ) × ℕ)) :
    ((found.map fun candidate => responseAlkanes (left candidate.1.1)).getD []).map
        (readEntry tested) =
      ((found.map fun candidate => responseAlkanes (right candidate.1.1)).getD []).map
        (readEntry tested) := by
  cases found with
  | none => rfl
  | some candidate => exact outgoing_of_readings (hread candidate.1.1)

variable
  {decoded : DecodedByTxVout}
  {height : ℕ}
  {tokenMap : TokenMap}

theorem exists_chosenReturn_map
    (decoder : LiquidityDecoder)
    (tokens : AlkaneId × AlkaneId)
    (hread : ∀ item, readEvent tested (left item) = readEvent tested (right item))
    (sorted : List (α × ℕ))
    (i : ℕ)
    (item : α) :
    ∃ found : Option ((α × ℕ) × ℕ),
      decoder.chosenReturn tokens (sorted.map (Prod.map left id)) i (left item) =
          found.map (Prod.map (Prod.map left id) id) ∧
        decoder.chosenReturn tokens (sorted.map (Prod.map right id)) i (right item) =
          found.map (Prod.map (Prod.map right id) id) := by
  have htotals := fun other => returnTotals_of_readings (hread item) (hread other) tokens
  unfold LiquidityDecoder.chosenReturn
  rw [← invokeVout_of_readings (hread item)]
  apply exists_bestReturn_map hread
  · intro other
    rw [htotals]
  · intro first second j k
    rw [htotals, htotals]

theorem liquidityRowAt_of_readings
    {decoder : LiquidityDecoder}
    (hcandidate : ∀ event event', readEvent tested event = readEvent tested event' →
      decoder.isCandidate event = decoder.isCandidate event')
    (hread : ∀ item, readEvent tested (left item) = readEvent tested (right item))
    (input : TxInput)
    (events' : List JsonValue)
    (sorted : List (α × ℕ))
    (i : ℕ)
    (item : α) :
    decoder.liquidityRowAt tokenMap decoded height input (sorted.map (Prod.map left id))
        (left item) i =
      decoder.liquidityRowAt tokenMap decoded height { input with events := events' }
        (sorted.map (Prod.map right id)) (right item) i := by
  unfold LiquidityDecoder.liquidityRowAt
  rw [hcandidate _ _ (hread item), poolIdOf_of_readings (hread item)]
  split
  · apply Option.map_congr
    intro tokens _
    obtain ⟨found, hleft, hright⟩ :=
      exists_chosenReturn_map decoder tokens hread sorted i item
    have hincoming := tokenTotal_of_readings (incoming_of_readings (hread item))
    have houtgoing := tokenTotal_of_readings (foundAlkanes_of_readings hread found)
    unfold LiquidityDecoder.liquidityRow
    rw [hleft, hright, poolIdOf_of_readings (hread item), invokeVout_of_readings (hread item)]
    simp only [LiquidityDecoder.totals, Option.map_map, Function.comp_def, Prod.map_fst,
      Option.isSome_map, hincoming, houtgoing]
  · rfl

theorem creationAt_of_readings
    (hread : ∀ item, readEvent tested (left item) = readEvent tested (right item))
    (sorted : List (α × ℕ))
    (i : ℕ)
    (item : α) :
    PoolCreation.creationAt (sorted.map (Prod.map left id)) (left item) i =
      PoolCreation.creationAt (sorted.map (Prod.map right id)) (right item) i := by
  have hincoming := incoming_of_readings (hread item)
  have htokens : PoolCreation.creationTokens (left item) =
      PoolCreation.creationTokens (right item) := by
    unfold PoolCreation.creationTokens
    rw [poolIdOf_of_readings (hread item), nonLpIds_of_readings hincoming]
  have hoff : ∀ other token, PoolCreation.tokenTotal (responseAlkanes (left other)) token =
      PoolCreation.tokenTotal (responseAlkanes (right other)) token :=
    fun other => tokenTotal_of_readings (outgoing_of_readings (hread other))
  have hon : ∀ token, PoolCreation.tokenTotal (incomingAlkanes (left item)) token =
      PoolCreation.tokenTotal (incomingAlkanes (right item)) token :=
    tokenTotal_of_readings hincoming
  unfold PoolCreation.creationAt
  rw [isDelegateInvokeCreate, isDelegateInvokeCreate, isDelegateInvoke_of_readings (hread item),
    poolIdOf_of_readings (hread item), htokens]
  split
  · apply Option.bind_congr
    intro tokens _
    obtain ⟨found, hleft, hright⟩ : ∃ found : Option ((α × ℕ) × ℕ),
        PoolCreation.chosenReturn tokens (sorted.map (Prod.map left id)) i (left item) =
            found.map (Prod.map (Prod.map left id) id) ∧
          PoolCreation.chosenReturn tokens (sorted.map (Prod.map right id)) i (right item) =
            found.map (Prod.map (Prod.map right id) id) := by
      unfold PoolCreation.chosenReturn
      rw [← invokeVout_of_readings (hread item)]
      apply exists_bestReturn_map hread
      · intro other
        simp only [PoolCreation.mintsLp, poolIdOf_of_readings (hread item), hoff, hon]
      · intro first second j k
        simp only [PoolCreation.better, hoff]
    rw [hleft, hright, Option.bind_map, Option.bind_map]
    apply Option.bind_congr
    intro candidate _
    simp only [Function.comp_apply, Prod.map_fst, PoolCreation.creationOf, hoff, hon,
      poolIdOf_of_readings (hread item), invokeVout_of_readings (hread item)]
  · rfl

theorem subfrostRow_of_readings
    {amount : JsonValue → JsonValue → ℕ}
    (hread : ∀ item, readEvent tested (left item) = readEvent tested (right item))
    (hamount : ∀ item other, amount (left item) (left other) = amount (right item) (right other))
    (input : TxInput)
    (events' : List JsonValue)
    (found : Option ((α × ℕ) × ℕ))
    (item : α) :
    Subfrost.subfrostRow decoded height input (left item)
        (found.map (Prod.map (Prod.map left id) id)) amount =
      Subfrost.subfrostRow decoded height { input with events := events' } (right item)
        (found.map (Prod.map (Prod.map right id) id)) amount := by
  unfold Subfrost.subfrostRow
  rw [invokeVout_of_readings (hread item)]
  simp only [Option.map_map, Function.comp_def, Prod.map_fst, Option.isSome_map, hamount]

theorem swapRowAt_of_readings
    (hread : ∀ item, readEvent tested (left item) = readEvent tested (right item))
    (input : TxInput)
    (items : List α)
    (i : ℕ)
    (item : α) :
    PoolSwap.swapRowAt tokenMap decoded height { input with events := items.map left }
        (left item) i =
      PoolSwap.swapRowAt tokenMap decoded height { input with events := items.map right }
        (right item) i := by
  have hon : ∀ token, PoolSwap.tokenTotal (incomingAlkanes (left item)) token =
      PoolSwap.tokenTotal (incomingAlkanes (right item)) token :=
    tokenTotal_of_readings (incoming_of_readings (hread item))
  have hpays : ∀ tokens other, PoolSwap.paysExpected tokens (left item) (left other) =
      PoolSwap.paysExpected tokens (right item) (right other) := by
    intro tokens other
    simp only [PoolSwap.paysExpected, PoolSwap.expectedToken, hon,
      allowedAmounts_of_readings (hread item)]
    exact any_expected_of_readings (outgoing_of_readings (hread other)) _ _
  rw [PoolSwap.swapRowAt_eq, PoolSwap.swapRowAt_eq]
  unfold PoolSwap.swapRowBefore
  rw [PoolSwap.isDelegateInvoke, PoolSwap.isDelegateInvoke,
    isDelegateInvoke_of_readings (hread item), poolIdOf_of_readings (hread item)]
  split
  · apply Option.bind_congr
    intro tokens _
    have hbrings : PoolSwap.bringsToken tokens (left item) =
        PoolSwap.bringsToken tokens (right item) := by
      simp only [PoolSwap.bringsToken, hon]
    rw [hbrings]
    split
    · -- both searches stop at the same place
      rw [← List.map_drop, ← List.map_drop, List.find?_map, List.find?_map, List.find?_map,
        List.find?_map, ← Option.map_or, ← Option.map_or]
      simp only [Function.comp_def, hpays, isReturnOn_of_readings (hread _),
        invokeVout_of_readings (hread item)]
      generalize ((items.drop (i + 1)).find? fun other =>
        isReturnOn (invokeVout (right item)) (right other) &&
          PoolSwap.paysExpected tokens (right item) (right other)).or
            ((items.drop (i + 1)).find? fun other =>
              isReturnOn (invokeVout (right item)) (right other)) = found
      have halkanes : ((found.map fun other => responseAlkanes (left other)).getD []).map
            (readEntry tested) =
          ((found.map fun other => responseAlkanes (right other)).getD []).map
            (readEntry tested) := by
        cases found with
        | none => rfl
        | some other => exact outgoing_of_readings (hread other)
      have hoff : ∀ token, PoolSwap.tokenTotal
            ((found.map fun other => responseAlkanes (left other)).getD []) token =
          PoolSwap.tokenTotal
            ((found.map fun other => responseAlkanes (right other)).getD []) token :=
        tokenTotal_of_readings halkanes
      unfold PoolSwap.rowOf
      simp only [Option.map_map, Function.comp_def, Option.isSome_map, PoolSwap.swapAmounts, hon,
        hoff, poolIdOf_of_readings (hread item), invokeVout_of_readings (hread item)]
    · rfl
  · rfl

theorem subfrostTotal_of_readings
    {alkanes alkanes' : List JsonValue}
    (hread : alkanes.map (readEntry true) = alkanes'.map (readEntry true)) :
    Subfrost.subfrostTotal alkanes = Subfrost.subfrostTotal alkanes' := by
  unfold Subfrost.subfrostTotal
  rw [subfrostValues_of_readings hread]

theorem wrapRowAt_of_readings
    (hread : ∀ item, readEvent true (left item) = readEvent true (right item))
    (input : TxInput)
    (items : List α)
    (item : α)
    (i : ℕ) :
    DerivedTable.subfrostWrap.rowAt tokenMap decoded height
        { input with events := items.map left } (left item, i) =
      DerivedTable.subfrostWrap.rowAt tokenMap decoded height
        { input with events := items.map right } (right item, i) := by
  obtain ⟨sorted, hleft, hright⟩ := exists_orderedEvents_map hread items
  have hadmissible : ∀ other,
      (Subfrost.statusOk (left other) && Subfrost.carriesSubfrost (left other)) =
        (Subfrost.statusOk (right other) && Subfrost.carriesSubfrost (right other)) := by
    intro other
    unfold Subfrost.carriesSubfrost
    rw [statusOk_of_readings (hread other),
      subfrostValues_of_readings (outgoing_of_readings (hread other))]
  obtain ⟨found, hfound, hfound'⟩ := exists_firstReturn_map hread sorted i
    (invokeVout (left item))
    (fun ret => Subfrost.statusOk ret && Subfrost.carriesSubfrost ret) hadmissible
  simp only [DerivedTable.rowAt, Subfrost.isSubfrostWrapInvoke,
    isSubfrostInvoke_of_readings (hread item), hleft, hright]
  split
  · unfold Subfrost.wrapReturn
    rw [hfound, ← invokeVout_of_readings (hread item), hfound']
    apply congrArg some
    apply subfrostRow_of_readings hread
    intro _ other
    exact subfrostTotal_of_readings (outgoing_of_readings (hread other))
  · rfl

theorem unwrapRowAt_of_readings
    (hread : ∀ item, readEvent true (left item) = readEvent true (right item))
    (input : TxInput)
    (items : List α)
    (item : α)
    (i : ℕ) :
    DerivedTable.subfrostUnwrap.rowAt tokenMap decoded height
        { input with events := items.map left } (left item, i) =
      DerivedTable.subfrostUnwrap.rowAt tokenMap decoded height
        { input with events := items.map right } (right item, i) := by
  obtain ⟨sorted, hleft, hright⟩ := exists_orderedEvents_map hread items
  obtain ⟨found, hfound, hfound'⟩ := exists_firstReturn_map hread sorted i
    (invokeVout (left item)) Subfrost.statusOk fun other => statusOk_of_readings (hread other)
  simp only [DerivedTable.rowAt, Subfrost.isSubfrostUnwrapInvoke,
    isSubfrostInvoke_of_readings (hread item), hleft, hright]
  split
  · unfold Subfrost.unwrapReturn
    rw [hfound, ← invokeVout_of_readings (hread item), hfound']
    apply congrArg some
    apply subfrostRow_of_readings hread
    intro invoke other
    unfold Subfrost.unwrapAmount
    rw [subfrostTotal_of_readings (outgoing_of_readings (hread other)),
      subfrostTotal_of_readings (incoming_of_readings (hread invoke))]
  · rfl

theorem rowAt_of_readings
    (hread : ∀ item, readEvent tested (left item) = readEvent tested (right item))
    (table : DerivedTable)
    (input : TxInput)
    (items : List α)
    {item : α}
    (hneeded : tested = true ∨ Subfrost.isEitherInvoke (left item) = false)
    (i : ℕ) :
    table.rowAt tokenMap decoded height { input with events := items.map left } (left item, i) =
      table.rowAt tokenMap decoded height { input with events := items.map right }
        (right item, i) := by
  obtain ⟨sorted, hleft, hright⟩ := exists_orderedEvents_map hread items
  cases table with
  | poolSwap => exact swapRowAt_of_readings hread input items i item
  | poolCreation =>
      simp only [DerivedTable.rowAt, hleft, hright, creationAt_of_readings hread sorted i item]
      rfl
  | poolMint =>
      simp only [DerivedTable.rowAt, hleft, hright]
      exact liquidityRowAt_of_readings (fun _ _ hsame => isDelegateInvoke_of_readings hsame _) hread
        { input with events := items.map left } (items.map right) sorted i item
  | poolBurn =>
      simp only [DerivedTable.rowAt, hleft, hright]
      exact liquidityRowAt_of_readings (fun _ _ hsame => isDelegateInvoke_of_readings hsame _) hread
        { input with events := items.map left } (items.map right) sorted i item
  | subfrostWrap =>
      rcases hneeded with rfl | hnone
      · exact wrapRowAt_of_readings hread input items item i
      · obtain ⟨hwrap, _⟩ := Bool.or_eq_false_iff.mp hnone
        simp only [DerivedTable.rowAt, Subfrost.isSubfrostWrapInvoke,
          ← isSubfrostInvoke_of_readings (hread item)] at hwrap ⊢
        simp only [hwrap, Bool.false_eq_true, if_false]
  | subfrostUnwrap =>
      rcases hneeded with rfl | hnone
      · exact unwrapRowAt_of_readings hread input items item i
      · obtain ⟨_, hunwrap⟩ := Bool.or_eq_false_iff.mp hnone
        simp only [DerivedTable.rowAt, Subfrost.isSubfrostUnwrapInvoke,
          ← isSubfrostInvoke_of_readings (hread item)] at hunwrap ⊢
        simp only [hunwrap, Bool.false_eq_true, if_false]

/-- A decoder goes through the places of two such lists side by side. -/
theorem exists_places_map
    (hread : ∀ item, readEvent tested (left item) = readEvent tested (right item))
    (table : DerivedTable)
    (items : List α) :
    ∃ places : List (α × ℕ),
      table.places (items.map left) = places.map (Prod.map left id) ∧
        table.places (items.map right) = places.map (Prod.map right id) := by
  by_cases htable : table = .poolSwap
  · subst htable
    exact ⟨items.zipIdx, List.zipIdx_map, List.zipIdx_map⟩
  · obtain ⟨sorted, hleft, hright⟩ := exists_orderedEvents_map hread items
    have hplaces : ∀ place : α → JsonValue,
        ((sorted.map (Prod.map place id)).zipIdx.map fun placed => (placed.1.1, placed.2)) =
          (sorted.zipIdx.map fun placed => (placed.1.1, placed.2)).map (Prod.map place id) := by
      intro place
      rw [List.zipIdx_map, List.map_map, List.map_map]
      rfl
    refine ⟨sorted.zipIdx.map fun placed => (placed.1.1, placed.2), ?_, ?_⟩
    · rw [places_of_ne_poolSwap htable, hleft, hplaces]
    · rw [places_of_ne_poolSwap htable, hright, hplaces]

end Searches

/-- Transactions whose events read alike have the same rows. -/
theorem txRows_of_readings
    {tested : Bool}
    {table : DerivedTable}
    {tokenMap : TokenMap}
    {decoded : DecodedByTxVout}
    {height : ℕ}
    {input : TxInput}
    {events' : List JsonValue}
    (hread : input.events.map (readEvent tested) = events'.map (readEvent tested))
    (hneeded : tested = true ∨
      ∀ event ∈ input.events, Subfrost.isEitherInvoke event = false) :
    table.txRows tokenMap decoded height input =
      table.txRows tokenMap decoded height { input with events := events' } := by
  obtain ⟨pairs, hleft, hright⟩ := exists_pairs_of_map_eq hread
  have hpairs : ∀ pair : { pair : JsonValue × JsonValue //
      readEvent tested pair.1 = readEvent tested pair.2 },
      readEvent tested pair.1.1 = readEvent tested pair.1.2 := fun pair => pair.2
  obtain ⟨places, hplaces, hplaces'⟩ := exists_places_map hpairs table pairs
  have hmem : ∀ place ∈ places, place.1.1.1 ∈ input.events := by
    intro place hplace
    rw [hleft]
    have hplaced := List.mem_map_of_mem (f := Prod.map (fun pair => pair.1.1) id) hplace
    rw [← hplaces] at hplaced
    exact event_mem_of_mem_places hplaced
  have hinput : input = { input with events := pairs.map fun pair => pair.1.1 } := by
    rw [← hleft]
  rw [hinput, hright]
  unfold DerivedTable.txRows
  dsimp only
  rw [hplaces, hplaces', List.filterMap_map, List.filterMap_map]
  apply List.filterMap_congr
  intro place hplace
  have hneeded' : tested = true ∨ Subfrost.isEitherInvoke place.1.1.1 = false :=
    hneeded.imp_right fun hnone => hnone place.1.1.1 (hmem place hplace)
  exact rowAt_of_readings hpairs table input pairs hneeded' place.2

end AlkanesIndexer
