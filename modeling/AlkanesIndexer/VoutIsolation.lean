import AlkanesIndexer.ReturnMatching
import AlkanesIndexer.SwapReturns

/-!
# The rows of one vout

A decoder chooses a return by what the returns of the invoke's vout pay and by
the order among them, so the events of other vouts do not matter: they change the
positions in the sorted list, but no comparison between returns of one vout.
-/

namespace AlkanesIndexer

open Sequences

/-! ## The decoders as loops over places -/

namespace DerivedTable

/-- The events a decoder goes through, each with its place in the list it searches. -/
def places (table : DerivedTable) (events : List JsonValue) : List (JsonValue × ℕ) :=
  match table with
  | .poolSwap => events.zipIdx
  | _ => (orderedEvents events).zipIdx.map fun placed => (placed.1.1, placed.2)

def rowAt
    (tokenMap : TokenMap)
    (decoded : DecodedByTxVout)
    (height : ℕ)
    (input : TxInput)
    (placed : JsonValue × ℕ) : (table : DerivedTable) → Option table.Row
  | .poolSwap => PoolSwap.swapRowAt tokenMap decoded height input placed.1 placed.2
  | .poolCreation =>
      (PoolCreation.creationAt (orderedEvents input.events) placed.1 placed.2).map fun found =>
        PoolCreation.creationRow decoded height input found.1 found.2
  | .poolMint =>
      mintDecoder.liquidityRowAt tokenMap decoded height input (orderedEvents input.events)
        placed.1 placed.2
  | .poolBurn =>
      burnDecoder.liquidityRowAt tokenMap decoded height input (orderedEvents input.events)
        placed.1 placed.2
  | .subfrostWrap =>
      if Subfrost.isSubfrostWrapInvoke placed.1 then
        some (Subfrost.subfrostRow decoded height input placed.1
          (Subfrost.wrapReturn (orderedEvents input.events) placed.2 placed.1)
          Subfrost.wrapAmount)
      else none
  | .subfrostUnwrap =>
      if Subfrost.isSubfrostUnwrapInvoke placed.1 then
        some (Subfrost.subfrostRow decoded height input placed.1
          (Subfrost.unwrapReturn (orderedEvents input.events) placed.2 placed.1)
          Subfrost.unwrapAmount)
      else none

variable
  (table : DerivedTable)
  (tokenMap : TokenMap)
  (decoded : DecodedByTxVout)
  (height : ℕ)
  (input : TxInput)

def txRows : List table.Row :=
  (table.places input.events).filterMap fun placed =>
    rowAt tokenMap decoded height input placed table

/-- The rows produced from the invokes of one vout. -/
def voutRows (vout : ℤ) : List table.Row :=
  ((table.places input.events).filter fun placed => eventVout placed.1 = some vout).filterMap
    fun placed => rowAt tokenMap decoded height input placed table

/-- The token map a decoder preloads for a block. -/
def tokenMapOf (pools : List PoolRow) (inputs : List TxInput) : TokenMap :=
  match table with
  | .poolSwap => blockTokenMap PoolSwap.isDelegateInvoke pools inputs
  | .poolMint => blockTokenMap isDelegateInvokeMint pools inputs
  | .poolBurn => blockTokenMap isDelegateInvokeBurn pools inputs
  | .poolCreation | .subfrostWrap | .subfrostUnwrap => fun _ => none

/-- The batch of a block is computed transaction by transaction. -/
theorem derivedBatch_eq_flatMap_txRows
    (data : BlockData)
    (pools : List PoolRow) :
    data.derivedBatch decoded pools table =
      data.inputs.flatMap
        (table.txRows (table.tokenMapOf pools data.inputs) decoded data.height) := by
  cases table with
  | poolSwap => rfl
  | poolCreation =>
      apply List.flatMap_congr
      intro input _
      unfold txRows PoolCreation.detectPoolCreationsForTx
      rw [List.map_filterMap]
      change _ = ((orderedEvents input.events).zipIdx.map _).filterMap _
      rw [List.filterMap_map]
      rfl
  | poolMint =>
      apply List.flatMap_congr
      intro input _
      unfold txRows places
      rw [List.filterMap_map]
      rfl
  | poolBurn =>
      apply List.flatMap_congr
      intro input _
      unfold txRows places
      rw [List.filterMap_map]
      rfl
  | subfrostWrap =>
      apply List.flatMap_congr
      intro input _
      unfold txRows places
      rw [List.filterMap_map]
      rfl
  | subfrostUnwrap =>
      apply List.flatMap_congr
      intro input _
      unfold txRows places
      rw [List.filterMap_map]
      rfl

end DerivedTable

/-! ## The events of one vout -/

def onVout (vout : ℤ) (events : List JsonValue) : List JsonValue :=
  events.filter fun event => eventVout event = some vout

theorem onVout_onVout
    (vout : ℤ)
    (events : List JsonValue) :
    onVout vout (onVout vout events) = onVout vout events := by
  unfold onVout
  rw [List.filter_filter]
  simp only [Bool.and_self]

theorem orderedEvents_onVout
    (vout : ℤ)
    (events : List JsonValue) :
    onVout vout ((orderedEvents events).map Prod.fst) =
      (orderedEvents (onVout vout events)).map Prod.fst := by
  let le : JsonValue → JsonValue → Prop := fun left right => eventLe (left, 0) (right, 0)
  have hle : DecidableRel le := fun left right =>
    inferInstanceAs (Decidable (eventLe (left, 0) (right, 0)))
  have hsorted : ∀ events, (orderedEvents events).map Prod.fst = events.insertionSort le := by
    intro events
    unfold orderedEvents
    rw [List.map_insertionSort eventLe le Prod.fst _ fun _ _ _ _ => Iff.rfl,
      List.zipIdx_map_fst]
  have : IsTrans JsonValue le := ⟨fun first second third =>
    IsTrans.trans (r := eventLe) (first, 0) (second, 0) (third, 0)⟩
  have : Std.Total le := ⟨fun left right =>
    Std.Total.total (r := eventLe) (left, 0) (right, 0)⟩
  rw [hsorted, hsorted]
  exact filter_insertionSort le _ events

theorem returnsOn_map_fst
    (events : List JsonValue)
    (vout : ℤ)
    (admissible : JsonValue → Bool) :
    (returnsOn events vout admissible).map Prod.fst =
      (onVout vout events).filter fun event => isReturnOn vout event && admissible event := by
  have hvout : ∀ event, (isReturnOn vout event && admissible event &&
      decide (eventVout event = some vout)) = (isReturnOn vout event && admissible event) := by
    intro event
    by_cases hevent : eventVout event = some vout
    · simp [hevent]
    · simp [isReturnOn, hevent]
  have hmap := List.filter_map (f := Prod.fst) (l := events.zipIdx)
    (p := fun event => isReturnOn vout event && admissible event)
  rw [List.zipIdx_map_fst] at hmap
  unfold onVout
  rw [List.filter_filter]
  simp only [hvout]
  exact hmap.symm

/-! ## The sorting decoders -/

theorem SortingDecoder.rank_lt_iff
    (decoder : SortingDecoder)
    (tokens : AlkaneId × AlkaneId)
    (invoke left right : JsonValue)
    {i j i' j' : ℕ}
    (hlt : i < j ↔ i' < j')
    (hgt : j < i ↔ j' < i') :
    decoder.rank tokens invoke (left, i) < decoder.rank tokens invoke (right, j) ↔
      decoder.rank tokens invoke (left, i') < decoder.rank tokens invoke (right, j') := by
  cases decoder <;> simp [rank, Prod.Lex.toLex_lt_toLex, hlt, hgt]

section Sorting

variable
  {events events' : List JsonValue}
  {vout : ℤ}
  {event : JsonValue}
  {i i' k k' : ℕ}

/-- The return found for an invoke is the same wherever its vout has the same
events. -/
theorem search_event_congr
    (decoder : SortingDecoder)
    (tokens : AlkaneId × AlkaneId)
    (hsame : onVout vout events = onVout vout events')
    (hvout : eventVout event = some vout)
    (hplace : (orderedEvents events)[i]? = some (event, k))
    (hplace' : (orderedEvents events')[i']? = some (event, k'))
    (hinvoke : eventType event = some "invoke") :
    (decoder.search tokens (orderedEvents events) i event).map (fun chosen => chosen.1.1) =
      (decoder.search tokens (orderedEvents events') i' event).map fun chosen =>
        chosen.1.1 := by
  have hinvokeVout : invokeVout event = vout := by simp [invokeVout, hvout]
  have hsearch := search_map_fst decoder tokens hplace hinvoke
  have hsearch' := search_map_fst decoder tokens hplace' hinvoke
  have hargmin : ((returnsOn events vout (decoder.admits tokens event)).argmin
        (decoder.rank tokens event)).map Prod.fst =
      ((returnsOn events' vout (decoder.admits tokens event)).argmin
        (decoder.rank tokens event)).map Prod.fst := by
    apply argmin_map_fst_congr
    · intro left right i j i' j' hlt hgt
      exact decoder.rank_lt_iff tokens event left right hlt hgt
    · exact (pairwise_snd_zipIdx events 0).filter _
    · exact (pairwise_snd_zipIdx events' 0).filter _
    · rw [returnsOn_map_fst, returnsOn_map_fst, hsame]
  simp only [hinvokeVout] at hsearch hsearch'
  rw [← hsearch, ← hsearch', Option.map_map, Option.map_map] at hargmin
  exact hargmin

theorem liquidityRow_congr
    {decoder : LiquidityDecoder}
    {decoded : DecodedByTxVout}
    {height : ℕ}
    {input : TxInput}
    {tokens : AlkaneId × AlkaneId}
    {ordered ordered' : List PlacedEvent}
    (hchosen : (decoder.chosenReturn tokens ordered i event).map (fun chosen => chosen.1.1) =
      (decoder.chosenReturn tokens ordered' i' event).map fun chosen => chosen.1.1) :
    decoder.liquidityRow decoded height input tokens ordered i event =
      decoder.liquidityRow decoded height { input with events := events' } tokens ordered' i'
        event := by
  have hisSome := congrArg Option.isSome hchosen
  have halkanes := congrArg (Option.map responseAlkanes) hchosen
  rw [Option.isSome_map, Option.isSome_map] at hisSome
  rw [Option.map_map, Option.map_map] at halkanes
  simp only [Function.comp_def] at halkanes
  unfold LiquidityDecoder.liquidityRow
  simp only [hisSome, halkanes]

theorem liquidityRowAt_congr
    {decoder : LiquidityDecoder}
    {tokenMap : TokenMap}
    {decoded : DecodedByTxVout}
    {height : ℕ}
    {input : TxInput}
    {ordered ordered' : List PlacedEvent}
    (hchosen : ∀ tokens, (decoder.isCandidate event && namesPool (poolIdOf event)) = true →
      (decoder.chosenReturn tokens ordered i event).map (fun chosen => chosen.1.1) =
        (decoder.chosenReturn tokens ordered' i' event).map fun chosen => chosen.1.1) :
    decoder.liquidityRowAt tokenMap decoded height input ordered event i =
      decoder.liquidityRowAt tokenMap decoded height { input with events := events' } ordered'
        event i' := by
  unfold LiquidityDecoder.liquidityRowAt
  by_cases hinvoke : (decoder.isCandidate event && namesPool (poolIdOf event)) = true
  · rw [if_pos hinvoke, if_pos hinvoke]
    apply Option.map_congr
    intro tokens _
    exact liquidityRow_congr (hchosen tokens hinvoke)
  · rw [if_neg hinvoke, if_neg hinvoke]

theorem creationAt_congr
    {ordered ordered' : List PlacedEvent}
    (hchosen : ∀ tokens, (isDelegateInvokeCreate event && namesPool (poolIdOf event)) = true →
      (PoolCreation.chosenReturn tokens ordered i event).map (fun chosen => chosen.1.1) =
        (PoolCreation.chosenReturn tokens ordered' i' event).map fun chosen => chosen.1.1) :
    PoolCreation.creationAt ordered event i = PoolCreation.creationAt ordered' event i' := by
  unfold PoolCreation.creationAt
  by_cases hinvoke : (isDelegateInvokeCreate event && namesPool (poolIdOf event)) = true
  · rw [if_pos hinvoke, if_pos hinvoke]
    apply Option.bind_congr
    intro tokens _
    have hbind := congrArg (fun ret : Option JsonValue => ret.bind fun ret =>
      (PoolCreation.creationOf tokens event ret).map fun creation =>
        (creation, invokeVout event)) (hchosen tokens hinvoke)
    simpa only [Option.bind_map, Function.comp_def] using hbind
  · rw [if_neg hinvoke, if_neg hinvoke]

theorem subfrostRow_congr
    {decoded : DecodedByTxVout}
    {height : ℕ}
    {input : TxInput}
    {found found' : Option Candidate}
    {amount : JsonValue → JsonValue → ℕ}
    (hfound : found.map (fun chosen => chosen.1.1) = found'.map fun chosen => chosen.1.1) :
    Subfrost.subfrostRow decoded height input event found amount =
      Subfrost.subfrostRow decoded height { input with events := events' } event found'
        amount := by
  have hisSome := congrArg Option.isSome hfound
  have hamount := congrArg (Option.map (amount event)) hfound
  rw [Option.isSome_map, Option.isSome_map] at hisSome
  rw [Option.map_map, Option.map_map] at hamount
  simp only [Function.comp_def] at hamount
  unfold Subfrost.subfrostRow
  simp only [hisSome, hamount]

theorem rowAt_congr
    {table : DerivedTable}
    {tokenMap : TokenMap}
    {decoded : DecodedByTxVout}
    {height : ℕ}
    {input : TxInput}
    (htable : table ≠ .poolSwap)
    (hsame : onVout vout input.events = onVout vout events')
    (hvout : eventVout event = some vout)
    (hplace : (orderedEvents input.events)[i]? = some (event, k))
    (hplace' : (orderedEvents events')[i']? = some (event, k')) :
    table.rowAt tokenMap decoded height input (event, i) =
      table.rowAt tokenMap decoded height { input with events := events' } (event, i') := by
  have hsearch := fun (decoder : SortingDecoder) tokens (hinvoke : decoder.isInvoke event = true) =>
    search_event_congr decoder tokens hsame hvout hplace hplace'
      (SortingDecoder.eventType_of_isInvoke hinvoke)
  cases table with
  | poolSwap => exact absurd rfl htable
  | poolCreation =>
      exact congrArg (Option.map fun found : DecodedPoolCreation × ℤ =>
        PoolCreation.creationRow decoded height input found.1 found.2)
        (creationAt_congr (hsearch .poolCreation))
  | poolMint => exact liquidityRowAt_congr (hsearch .poolMint)
  | poolBurn => exact liquidityRowAt_congr (hsearch .poolBurn)
  | subfrostWrap =>
      simp only [DerivedTable.rowAt]
      by_cases hinvoke : Subfrost.isSubfrostWrapInvoke event = true
      · simp only [hinvoke, if_true]
        exact congrArg some (subfrostRow_congr (hsearch .subfrostWrap (("", ""), ("", "")) hinvoke))
      · simp only [hinvoke, Bool.false_eq_true, if_false]
  | subfrostUnwrap =>
      simp only [DerivedTable.rowAt]
      by_cases hinvoke : Subfrost.isSubfrostUnwrapInvoke event = true
      · simp only [hinvoke, if_true]
        exact congrArg some
          (subfrostRow_congr (hsearch .subfrostUnwrap (("", ""), ("", "")) hinvoke))
      · simp only [hinvoke, Bool.false_eq_true, if_false]

end Sorting

/-! ## Swaps -/

namespace PoolSwap

def swapRowBefore
    (tokenMap : TokenMap)
    (decoded : DecodedByTxVout)
    (height : ℕ)
    (input : TxInput)
    (event : JsonValue)
    (later : List JsonValue) : Option PoolSwapRow :=
  if isDelegateInvoke event && namesPool (poolIdOf event) then
    (tokenMap (poolIdOf event)).bind fun tokens =>
      if bringsToken tokens event then
        some (rowOf decoded height input tokens event
          ((later.find? fun ret => isReturnOn (invokeVout event) ret &&
              paysExpected tokens event ret).or
            (later.find? (isReturnOn (invokeVout event)))))
      else none
  else none

theorem swapRowAt_eq
    (tokenMap : TokenMap)
    (decoded : DecodedByTxVout)
    (height : ℕ)
    (input : TxInput)
    (event : JsonValue)
    (i : ℕ) :
    swapRowAt tokenMap decoded height input event i =
      swapRowBefore tokenMap decoded height input event (input.events.drop (i + 1)) := by
  unfold swapRowAt swapRowBefore
  simp only [swapRow_eq]
  rfl

/-- Only the later events of the own vout matter to a swap. -/
theorem swapRowBefore_onVout
    {tokenMap : TokenMap}
    {decoded : DecodedByTxVout}
    {height : ℕ}
    {input : TxInput}
    {event : JsonValue}
    {vout : ℤ}
    (hvout : eventVout event = some vout)
    (later : List JsonValue) :
    swapRowBefore tokenMap decoded height input event (onVout vout later) =
      swapRowBefore tokenMap decoded height input event later := by
  have hfind : ∀ admissible : JsonValue → Bool,
      (onVout vout later).find? (fun ret => isReturnOn vout ret && admissible ret) =
        later.find? fun ret => isReturnOn vout ret && admissible ret := by
    intro admissible
    unfold onVout
    rw [List.find?_filter]
    congr 1
    funext ret
    by_cases hret : eventVout ret = some vout
    · simp [hret]
    · simp [isReturnOn, hret]
  have hany := hfind fun _ => true
  simp only [Bool.and_true] at hany
  have hinvokeVout : invokeVout event = vout := by simp [invokeVout, hvout]
  unfold swapRowBefore
  simp only [hinvokeVout, hfind, hany]

/-- The swap rows of one vout, read off the events from the front. -/
theorem voutRows_eq_suffixMap
    (tokenMap : TokenMap)
    (decoded : DecodedByTxVout)
    (height : ℕ)
    (input : TxInput)
    (vout : ℤ) :
    DerivedTable.poolSwap.voutRows tokenMap decoded height input vout =
      suffixMap (fun event later =>
        if eventVout event = some vout then
          swapRowBefore tokenMap decoded height input event later
        else none) input.events := by
  rw [← filterMap_zipIdx_eq_suffixMap _ List.drop_zero]
  change (input.events.zipIdx.filter _).filterMap _ = _
  rw [List.filterMap_filter]
  apply List.filterMap_congr
  intro placed _
  by_cases hvout : eventVout placed.1 = some vout
  · simp only [hvout, decide_true, if_true]
    exact swapRowAt_eq tokenMap decoded height input placed.1 placed.2
  · simp only [hvout, decide_false, Bool.false_eq_true, if_false]

end PoolSwap

/-! ## Isolation -/

section Isolation

variable
  {table : DerivedTable}
  {tokenMap : TokenMap}
  {decoded : DecodedByTxVout}
  {height : ℕ}
  {input : TxInput}
  {events' : List JsonValue}
  {vout : ℤ}

variable (input) in
theorem swap_voutRows_onVout :
    DerivedTable.poolSwap.voutRows tokenMap decoded height
        { input with events := onVout vout input.events } vout =
      DerivedTable.poolSwap.voutRows tokenMap decoded height input vout := by
  rw [PoolSwap.voutRows_eq_suffixMap, PoolSwap.voutRows_eq_suffixMap]
  apply suffixMap_filter
  · intro event later hevent
    rw [decide_eq_false_iff_not] at hevent
    exact if_neg hevent
  · intro event later
    by_cases hvout : eventVout event = some vout
    · simp only [hvout, if_true]
      exact PoolSwap.swapRowBefore_onVout hvout later
    · simp only [hvout, if_false]

theorem places_of_ne_poolSwap
    (htable : table ≠ .poolSwap)
    (events : List JsonValue) :
    table.places events =
      (orderedEvents events).zipIdx.map fun placed => (placed.1.1, placed.2) := by
  cases table with
  | poolSwap => exact absurd rfl htable
  | poolCreation => rfl
  | poolMint => rfl
  | poolBurn => rfl
  | subfrostWrap => rfl
  | subfrostUnwrap => rfl

theorem places_filter_map_fst
    (htable : table ≠ .poolSwap)
    (events : List JsonValue)
    (vout : ℤ) :
    ((table.places events).filter fun placed => eventVout placed.1 = some vout).map Prod.fst =
      (orderedEvents (onVout vout events)).map Prod.fst := by
  have hplaces : (table.places events).map Prod.fst = (orderedEvents events).map Prod.fst := by
    rw [places_of_ne_poolSwap htable, List.map_map]
    conv_rhs => rw [← List.zipIdx_map_fst 0 (orderedEvents events), List.map_map]
    rfl
  have hmap := List.filter_map (f := Prod.fst) (l := table.places events)
    (p := fun event => decide (eventVout event = some vout))
  rw [hplaces] at hmap
  rw [← orderedEvents_onVout]
  exact hmap.symm

theorem exists_place_of_mem_places
    (htable : table ≠ .poolSwap)
    {events : List JsonValue}
    {event : JsonValue}
    {i : ℕ}
    (hmem : (event, i) ∈ (table.places events).filter fun placed =>
      eventVout placed.1 = some vout) :
    eventVout event = some vout ∧ ∃ k, (orderedEvents events)[i]? = some (event, k) := by
  rw [List.mem_filter, places_of_ne_poolSwap htable, List.mem_map, decide_eq_true_eq] at hmem
  obtain ⟨⟨⟨⟨event', k⟩, i'⟩, hplaced, heq⟩, hvout⟩ := hmem
  rw [Prod.mk.injEq] at heq
  obtain ⟨rfl, rfl⟩ := heq
  exact ⟨hvout, k, List.mem_zipIdx_iff_getElem?.mp hplaced⟩

theorem voutRows_congr
    (hsame : onVout vout input.events = onVout vout events') :
    table.voutRows tokenMap decoded height input vout =
      table.voutRows tokenMap decoded height { input with events := events' } vout := by
  by_cases htable : table = .poolSwap
  · subst htable
    rw [← swap_voutRows_onVout input, ← swap_voutRows_onVout { input with events := events' }]
    simp only [hsame]
  · apply filterMap_congr_of_map_fst
    · rw [places_filter_map_fst htable, places_filter_map_fst htable, hsame]
    · intro event i j hi hj
      obtain ⟨hvout, k, hplace⟩ := exists_place_of_mem_places htable hi
      obtain ⟨-, k', hplace'⟩ := exists_place_of_mem_places htable hj
      exact rowAt_congr htable hsame hvout hplace hplace'

theorem event_mem_of_mem_places
    {events : List JsonValue}
    {placed : JsonValue × ℕ}
    (hplaced : placed ∈ table.places events) :
    placed.1 ∈ events := by
  by_cases htable : table = .poolSwap
  · subst htable
    exact List.mem_of_getElem? (List.mem_zipIdx_iff_getElem?.mp hplaced)
  · rw [places_of_ne_poolSwap htable, List.mem_map] at hplaced
    obtain ⟨ordered, hordered, rfl⟩ := hplaced
    exact mem_of_mem_ordered hordered

theorem voutRows_eq_txRows
    (hvout : ∀ event ∈ input.events, eventVout event = some vout) :
    table.voutRows tokenMap decoded height input vout =
      table.txRows tokenMap decoded height input := by
  have hall : ((table.places input.events).filter fun placed =>
      eventVout placed.1 = some vout) = table.places input.events := by
    rw [List.filter_eq_self]
    intro placed hplaced
    exact decide_eq_true (hvout placed.1 (event_mem_of_mem_places hplaced))
  unfold DerivedTable.voutRows DerivedTable.txRows
  rw [hall]

/-- The rows of a vout are those which the decoder computes from the events of
that vout alone. -/
theorem voutRows_eq_txRows_onVout :
    table.voutRows tokenMap decoded height input vout =
      table.txRows tokenMap decoded height
        { input with events := onVout vout input.events } := by
  rw [voutRows_congr (onVout_onVout vout input.events).symm]
  apply voutRows_eq_txRows
  intro event hevent
  exact of_decide_eq_true (List.mem_filter.mp hevent).2

theorem txRows_perm_of_onVout
    (hsame : ∀ vout, onVout vout input.events = onVout vout events')
    (hvouts : ∀ event ∈ input.events, (eventVout event).isSome = true)
    (hvouts' : ∀ event ∈ events', (eventVout event).isSome = true) :
    (table.txRows tokenMap decoded height input).Perm
      (table.txRows tokenMap decoded height { input with events := events' }) := by
  apply filterMap_perm_of_classes (fun placed => eventVout placed.1)
    (fun placed => eventVout placed.1)
  intro vout
  cases vout with
  | some vout => exact voutRows_congr (hsame vout)
  | none =>
      have hnone : ∀ events, (∀ event ∈ events, (eventVout event).isSome = true) →
          ((table.places events).filter fun placed => eventVout placed.1 = none) = [] := by
        intro events hevents
        rw [List.filter_eq_nil_iff]
        intro placed hplaced hmissing
        have hsome := hevents placed.1 (event_mem_of_mem_places hplaced)
        rw [of_decide_eq_true hmissing] at hsome
        cases hsome
      rw [hnone _ hvouts, hnone _ hvouts']
      rfl

end Isolation

/-- No vout's events have an influence on the rows of another vout, and where the
events of different vouts are interleaved in another way the rows stay the same up
to order. -/
theorem rows_isolated_by_vout
    (table : DerivedTable)
    (tokenMap : TokenMap)
    (decoded : DecodedByTxVout)
    (height : ℕ)
    (input : TxInput)
    (hvouts : ∀ event ∈ input.events, (eventVout event).isSome = true) :
    (∀ vout, table.voutRows tokenMap decoded height input vout =
        table.txRows tokenMap decoded height
          { input with events := onVout vout input.events }) ∧
      ∀ events', (∀ event ∈ events', (eventVout event).isSome = true) →
        (∀ vout, onVout vout input.events = onVout vout events') →
          (table.txRows tokenMap decoded height input).Perm
            (table.txRows tokenMap decoded height { input with events := events' }) :=
  ⟨fun _ => voutRows_eq_txRows_onVout, fun _ hvouts' hsame =>
    txRows_perm_of_onVout hsame hvouts hvouts'⟩

/-- A wrap on vout 3 and one on vout 4, one after the other. -/
def twoWraps : TxInput where
  transactionId := "aa"
  transactionIndex := 0
  timestamp := 0
  transactionJson := .object []
  events :=
    eventsOfTrace 3 [invokeTrace ("0x20", "0x0") "0x4d" [],
      returnTrace [alkaneEntry ("0x20", "0x0") 5]] ++
    eventsOfTrace 4 [invokeTrace ("0x20", "0x0") "0x4d" [],
      returnTrace [alkaneEntry ("0x20", "0x0") 7]]

theorem twoWraps_isolated :
    DerivedTable.subfrostWrap.voutRows (fun _ => none) (fun _ _ => []) 5 twoWraps 3 =
        DerivedTable.subfrostWrap.txRows (fun _ => none) (fun _ _ => []) 5
          { twoWraps with events := onVout 3 twoWraps.events } ∧
      DerivedTable.subfrostWrap.voutRows (fun _ => none) (fun _ _ => []) 5 twoWraps 3 ≠ [] :=
  ⟨(rows_isolated_by_vout .subfrostWrap (fun _ => none) (fun _ _ => []) 5 twoWraps
    (by decide)).1 3, by decide⟩

end AlkanesIndexer
