import AlkanesIndexer.SwapInspector

/-!
# The pool creations the inspector prints

`simulate_pool_creations` takes the latest return that mints LP tokens and reports
success, where the indexer takes the one that gives the fewest tokens back.  The
inspector reads the events in the order which the indexer sorts them into.
-/

namespace AlkanesIndexer

structure PrintedCreation where
  pool : AlkaneId
  token0 : AlkaneId
  token1 : AlkaneId
  token0Amount : String
  token1Amount : String
  tokenSupply : String
  deriving DecidableEq, Repr

def DecodedPoolCreation.printed (creation : DecodedPoolCreation) : PrintedCreation where
  pool := creation.pool
  token0 := creation.token0
  token1 := creation.token1
  token0Amount := creation.token0Amount
  token1Amount := creation.token1Amount
  tokenSupply := creation.tokenSupply

namespace CreationInspector

open PoolCreation Sequences

/-! ## The simulation -/

def isDelegateInvokeCreate (event : JsonValue) : Bool :=
  isDelegateInvoke (fun opcode => hexToU128 opcode = some 0) event

/-- The status is exactly `"success"`. -/
def succeeded (ret : JsonValue) : Bool := ret.strAt ["data", "status"] = some "success"

def findLastSuccessReturnWithLp
    (events : List JsonValue)
    (invokeIdx : ℕ)
    (invokeVout : ℤ)
    (lp : AlkaneId)
    (incomingLp : ℕ) : Option JsonValue :=
  (events.drop (invokeIdx + 1)).foldl (fun candidate event =>
    if isReturnOn invokeVout event && succeeded event &&
        tokenTotal (responseAlkanes event) lp > incomingLp then some event
    else candidate) none

def simulateAt
    (events : List JsonValue)
    (event : JsonValue)
    (i : ℕ) : Option PrintedCreation :=
  if isDelegateInvokeCreate event && namesPool (poolIdOf event) then
    match nonLpIds (poolIdOf event) (incomingAlkanes event) with
    | token0 :: token1 :: _ =>
        let incoming := incomingAlkanes event
        let incomingLp := tokenTotal incoming (poolIdOf event)
        (findLastSuccessReturnWithLp events i (invokeVout event) (poolIdOf event)
          incomingLp).bind fun ret =>
            let outgoing := responseAlkanes ret
            let token0Amount := tokenTotal incoming token0 - tokenTotal outgoing token0
            let token1Amount := tokenTotal incoming token1 - tokenTotal outgoing token1
            let tokenSupply := tokenTotal outgoing (poolIdOf event) - incomingLp
            if token0Amount = 0 || token1Amount = 0 || tokenSupply = 0 then none
            else some {
              pool := poolIdOf event
              token0 := token0
              token1 := token1
              token0Amount := toString token0Amount
              token1Amount := toString token1Amount
              tokenSupply := toString tokenSupply }
    | _ => none
  else none

/-- The printed creations, each with the index that is logged for its invoke. -/
def simulatePoolCreations (events : List JsonValue) : List (ℕ × PrintedCreation) :=
  events.zipIdx.filterMap fun placed =>
    (simulateAt events placed.1 placed.2).map fun creation => (placed.2, creation)

/-! ## The creations of the indexer -/

/-- By vout, and within one vout invokes before returns before all others. -/
def InInspectorOrder (events : List JsonValue) : Prop :=
  events.Pairwise fun left right =>
    sortVout left < sortVout right ∨
      sortVout left = sortVout right ∧ eventWeight left ≤ eventWeight right

instance (events : List JsonValue) : Decidable (InInspectorOrder events) := by
  unfold InInspectorOrder
  infer_instance

def detectedAt (events : List JsonValue) (event : JsonValue) : Option PrintedCreation :=
  (creationOfEvent events event).map DecodedPoolCreation.printed

/-- The creations of the indexer, each with the position of its invoke. -/
def detectedCreations (events : List JsonValue) : List (ℕ × PrintedCreation) :=
  events.zipIdx.filterMap fun placed =>
    (detectedAt events placed.1).map fun creation => (placed.2, creation)

theorem orderedEvents_of_inInspectorOrder
    {events : List JsonValue}
    (hordered : InInspectorOrder events) :
    orderedEvents events = events.zipIdx := by
  have hpairwise : events.zipIdx.Pairwise eventLe := by
    have hplaced : (events.zipIdx.map Prod.fst).Pairwise fun left right =>
        sortVout left < sortVout right ∨
          sortVout left = sortVout right ∧ eventWeight left ≤ eventWeight right := by
      rw [List.zipIdx_map_fst]
      exact hordered
    rw [List.pairwise_map] at hplaced
    apply hplaced.imp
    intro left right hle
    exact eventLe_iff.mpr hle
  exact hpairwise.insertionSort_eq

theorem detectPoolCreationsForTx_printed
    {events : List JsonValue}
    (hordered : InInspectorOrder events) :
    (detectPoolCreationsForTx events).map (fun found => found.1.printed) =
      (detectedCreations events).map Prod.snd := by
  have hsorted := orderedEvents_of_inInspectorOrder hordered
  have hat : detectPoolCreationsForTx events =
      (orderedEvents events).zipIdx.filterMap fun placed =>
        (creationOfEvent events placed.1.1).map fun creation =>
          (creation, invokeVout placed.1.1) := by
    apply List.filterMap_congr
    intro placed hplaced
    exact creationAt_eq (List.mem_zipIdx_iff_getElem?.mp hplaced)
  have hplaces : (orderedEvents events).zipIdx.filterMap (fun placed =>
      (creationOfEvent events placed.1.1).map fun creation =>
        (creation, invokeVout placed.1.1)) =
      (orderedEvents events).filterMap fun placed =>
        (creationOfEvent events placed.1).map fun creation =>
          (creation, invokeVout placed.1) := by
    conv_rhs => rw [← List.zipIdx_map_fst 0 (orderedEvents events), List.filterMap_map]
    rfl
  rw [hat, hplaces, hsorted, List.map_filterMap, detectedCreations, List.map_filterMap]
  apply List.filterMap_congr
  intro placed _
  rw [detectedAt, Option.map_map, Option.map_map, Option.map_map]
  rfl

/-! ## Both in one form -/

/-- In such a list the loop finds the latest executed of all returns on the vout
that succeed and mint LP tokens. -/
theorem findLastSuccessReturnWithLp_eq
    {events : List JsonValue}
    {event : JsonValue}
    {i : ℕ}
    (hordered : InInspectorOrder events)
    (hat : events[i]? = some event)
    (hinvoke : eventType event = some "invoke") :
    findLastSuccessReturnWithLp events i (invokeVout event) (poolIdOf event)
        (tokenTotal (incomingAlkanes event) (poolIdOf event)) =
      ((returnsOn events (invokeVout event)
        fun ret => succeeded ret && mintsLp event ret).argmin
          fun placed => OrderDual.toDual placed.2).map Prod.fst := by
  have hsorted := orderedEvents_of_inInspectorOrder hordered
  have hplace : (orderedEvents events)[i]? = some (event, i) := by
    rw [hsorted, List.getElem?_zipIdx, hat]
    simp
  have hincreasing : (events.zipIdx.drop (i + 1)).Pairwise
      fun left right => left.2 < right.2 := (pairwise_snd_zipIdx events 0).drop
  have hdrop : events.drop (i + 1) = (events.zipIdx.drop (i + 1)).map Prod.fst := by
    rw [List.map_drop, List.zipIdx_map_fst]
  have hreturns := filter_drop_orderedEvents hplace hinvoke
    fun ret => succeeded ret && mintsLp event ret
  rw [hsorted] at hreturns
  have hmints : ∀ ret, decide (tokenTotal (responseAlkanes ret) (poolIdOf event) >
      tokenTotal (incomingAlkanes event) (poolIdOf event)) = mintsLp event ret := by
    intro ret
    rw [Bool.eq_iff_iff]
    simp [mintsLp]
  unfold findLastSuccessReturnWithLp
  simp only [hmints, Bool.and_assoc]
  rw [hdrop, foldl_last_map, foldl_last_eq_argmin _ Prod.snd _ hincreasing, hreturns]

/-- What a creation takes of both tokens and mints, nothing if one of the three
amounts is zero. -/
def contribution (tokens : AlkaneId × AlkaneId) (event ret : JsonValue) : ℕ × ℕ × ℕ :=
  let net (token : AlkaneId) :=
    tokenTotal (incomingAlkanes event) token - tokenTotal (responseAlkanes ret) token
  let supply := tokenTotal (responseAlkanes ret) (poolIdOf event) -
    tokenTotal (incomingAlkanes event) (poolIdOf event)
  if net tokens.1 = 0 ∨ net tokens.2 = 0 ∨ supply = 0 then (0, 0, 0)
  else (net tokens.1, net tokens.2, supply)

def printedOf
    (tokens : AlkaneId × AlkaneId)
    (event : JsonValue)
    (amounts : ℕ × ℕ × ℕ) : Option PrintedCreation :=
  if amounts = (0, 0, 0) then none
  else some ⟨poolIdOf event, tokens.1, tokens.2, toString amounts.1, toString amounts.2.1,
    toString amounts.2.2⟩

theorem printedOf_inj
    {tokens : AlkaneId × AlkaneId}
    {event : JsonValue}
    {amounts amounts' : ℕ × ℕ × ℕ} :
    printedOf tokens event amounts = printedOf tokens event amounts' ↔ amounts = amounts' := by
  constructor
  · intro heq
    unfold printedOf at heq
    by_cases hzero : amounts = (0, 0, 0)
    · by_cases hzero' : amounts' = (0, 0, 0)
      · rw [hzero, hzero']
      · simp [hzero, hzero'] at heq
    · by_cases hzero' : amounts' = (0, 0, 0)
      · simp [hzero, hzero'] at heq
      · rw [if_neg hzero, if_neg hzero'] at heq
        simp only [Option.some.injEq, PrintedCreation.mk.injEq, true_and] at heq
        obtain ⟨h0, h1, hsupply⟩ := heq
        exact Prod.ext (Nat.repr_inj.mp h0)
          (Prod.ext (Nat.repr_inj.mp h1) (Nat.repr_inj.mp hsupply))
  · intro heq
    rw [heq]

theorem printed_creationOf
    (tokens : AlkaneId × AlkaneId)
    (event ret : JsonValue) :
    (creationOf tokens event ret).map DecodedPoolCreation.printed =
      printedOf tokens event (contribution tokens event ret) := by
  unfold creationOf printedOf contribution
  dsimp only
  split
  · next hzero =>
    simp only [Bool.or_eq_true, decide_eq_true_eq, or_assoc] at hzero
    rw [if_pos hzero, if_pos rfl]
    rfl
  · next hpositive =>
    simp only [Bool.or_eq_true, decide_eq_true_eq, or_assoc] at hpositive
    rw [if_neg hpositive, if_neg]
    · rfl
    · intro hnone
      exact hpositive (Or.inl (Prod.mk.inj hnone).1)

def latestSuccess (events : List JsonValue) (event : JsonValue) : Option PlacedEvent :=
  (returnsOn events (invokeVout event) fun ret => succeeded ret && mintsLp event ret).argmin
    fun placed => OrderDual.toDual placed.2

theorem simulateAt_eq
    {events : List JsonValue}
    {event : JsonValue}
    {i : ℕ}
    (hordered : InInspectorOrder events)
    (hat : events[i]? = some event) :
    simulateAt events event i =
      if isDelegateInvokeCreate event && namesPool (poolIdOf event) then
        (creationTokens event).bind fun tokens =>
          (latestSuccess events event).bind fun ret =>
            printedOf tokens event (contribution tokens event ret.1)
      else none := by
  unfold simulateAt creationTokens
  by_cases hcandidate : (isDelegateInvokeCreate event && namesPool (poolIdOf event)) = true
  · rw [if_pos hcandidate, if_pos hcandidate]
    have hinvoke : eventType event = some "invoke" :=
      eventType_of_isDelegateInvoke (Bool.and_eq_true_iff.mp hcandidate).1
    cases hids : nonLpIds (poolIdOf event) (incomingAlkanes event) with
    | nil => rfl
    | cons token0 rest =>
        cases rest with
        | nil => rfl
        | cons token1 others =>
            dsimp only
            rw [findLastSuccessReturnWithLp_eq hordered hat hinvoke, Option.bind_map,
              Option.bind_some]
            apply Option.bind_congr
            intro ret _
            rw [← printed_creationOf]
            unfold creationOf
            dsimp only [Function.comp_apply]
            split
            · rfl
            · rfl
  · rw [if_neg hcandidate, if_neg hcandidate]

theorem detectedAt_eq
    (events : List JsonValue)
    (event : JsonValue) :
    detectedAt events event =
      if isDelegateInvokeCreate event && namesPool (poolIdOf event) then
        (creationTokens event).bind fun tokens =>
          (creditedReturn events tokens event).bind fun ret =>
            printedOf tokens event (contribution tokens event ret.1)
      else none := by
  unfold detectedAt creationOfEvent
  change Option.map _ (if isDelegateInvokeCreate event && namesPool (poolIdOf event) then _
    else _) = _
  split
  · simp only [Option.map_bind, Function.comp_def, printed_creationOf]
  · rfl

/-- The rank by which the indexer chooses: few tokens out, the latest on a tie. -/
def creationRank
    (tokens : AlkaneId × AlkaneId)
    (ret : PlacedEvent) : (ℕ ×ₗ ℕ) ×ₗ ℕᵒᵈ :=
  toLex (toLex (tokenTotal (responseAlkanes ret.1) tokens.1,
    tokenTotal (responseAlkanes ret.1) tokens.2), OrderDual.toDual ret.2)

/-- The return which the indexer prefers among those that mint LP tokens contributes
what the latest successful one does, or nothing if none has succeeded. -/
def SameContribution
    (tokens : AlkaneId × AlkaneId)
    (events : List JsonValue)
    (event : JsonValue) : Prop :=
  ∀ best ∈ returnsOn events (invokeVout event) (mintsLp event),
    (∀ other ∈ returnsOn events (invokeVout event) (mintsLp event),
      creationRank tokens best ≤ creationRank tokens other) →
    (∀ last ∈ returnsOn events (invokeVout event) (mintsLp event), succeeded last.1 = true →
      (∀ other ∈ returnsOn events (invokeVout event) (mintsLp event),
        succeeded other.1 = true → other.2 ≤ last.2) →
      contribution tokens event best.1 = contribution tokens event last.1) ∧
    ((∀ other ∈ returnsOn events (invokeVout event) (mintsLp event),
      succeeded other.1 = false) → contribution tokens event best.1 = (0, 0, 0))

theorem creditedReturn_eq_some_iff
    {tokens : AlkaneId × AlkaneId}
    {events : List JsonValue}
    {event : JsonValue}
    {ret : PlacedEvent} :
    creditedReturn events tokens event = some ret ↔
      ret ∈ returnsOn events (invokeVout event) (mintsLp event) ∧
        ∀ other ∈ returnsOn events (invokeVout event) (mintsLp event),
          creationRank tokens ret ≤ creationRank tokens other := by
  apply argmin_eq_some_iff_of_injOn
  intro left hleft right hright hrank
  simp only [toLex_inj, Prod.mk.injEq, OrderDual.toDual_inj] at hrank
  exact eq_of_mem_returnsOn hleft hright hrank.2

theorem mem_succeededReturns_iff
    {events : List JsonValue}
    {event : JsonValue}
    {ret : PlacedEvent} :
    ret ∈ returnsOn events (invokeVout event) (fun ret => succeeded ret && mintsLp event ret) ↔
      ret ∈ returnsOn events (invokeVout event) (mintsLp event) ∧ succeeded ret.1 = true := by
  rw [mem_returnsOn, mem_returnsOn, Bool.and_eq_true]
  tauto

theorem latestSuccess_eq_some_iff
    {events : List JsonValue}
    {event : JsonValue}
    {ret : PlacedEvent} :
    latestSuccess events event = some ret ↔
      (ret ∈ returnsOn events (invokeVout event) (mintsLp event) ∧ succeeded ret.1 = true) ∧
        ∀ other ∈ returnsOn events (invokeVout event) (mintsLp event),
          succeeded other.1 = true → other.2 ≤ ret.2 := by
  unfold latestSuccess
  rw [argmin_eq_some_iff_of_injOn, mem_succeededReturns_iff]
  · simp only [mem_succeededReturns_iff, and_imp, OrderDual.toDual_le_toDual]
  · intro left hleft right hright hposition
    exact eq_of_mem_returnsOn hleft hright (OrderDual.toDual_inj.mp hposition)

theorem latestSuccess_eq_none_iff
    {events : List JsonValue}
    {event : JsonValue} :
    latestSuccess events event = none ↔
      ∀ other ∈ returnsOn events (invokeVout event) (mintsLp event),
        succeeded other.1 = false := by
  unfold latestSuccess
  rw [List.argmin_eq_none, List.eq_nil_iff_forall_not_mem]
  simp only [mem_succeededReturns_iff, not_and, Bool.not_eq_true]

theorem creation_eq_iff
    {tokens : AlkaneId × AlkaneId}
    {events : List JsonValue}
    {event : JsonValue} :
    ((latestSuccess events event).bind fun ret =>
        printedOf tokens event (contribution tokens event ret.1)) =
        ((creditedReturn events tokens event).bind fun ret =>
          printedOf tokens event (contribution tokens event ret.1)) ↔
      SameContribution tokens events event := by
  have hzero : printedOf tokens event (0, 0, 0) = none := if_pos rfl
  constructor
  · intro hsame best hin hle
    rw [creditedReturn_eq_some_iff.mpr ⟨hin, hle⟩, Option.bind_some] at hsame
    constructor
    · intro last hin' hsucceeded hlatest
      rw [latestSuccess_eq_some_iff.mpr ⟨⟨hin', hsucceeded⟩, hlatest⟩, Option.bind_some,
        printedOf_inj] at hsame
      exact hsame.symm
    · intro hfailed
      rw [latestSuccess_eq_none_iff.mpr hfailed, Option.bind_none, ← hzero,
        printedOf_inj] at hsame
      exact hsame.symm
  · intro hsame
    cases hcredited : creditedReturn events tokens event with
    | none =>
        have hnil : returnsOn events (invokeVout event) (mintsLp event) = [] :=
          List.argmin_eq_none.mp hcredited
        have hnone : latestSuccess events event = none := by
          rw [latestSuccess_eq_none_iff, hnil]
          exact fun _ hother => absurd hother List.not_mem_nil
        rw [hnone]
    | some best =>
        obtain ⟨hin, hle⟩ := creditedReturn_eq_some_iff.mp hcredited
        obtain ⟨hagree, hnothing⟩ := hsame best hin hle
        cases hlatest : latestSuccess events event with
        | none =>
            have hfailed := latestSuccess_eq_none_iff.mp hlatest
            rw [Option.bind_none, Option.bind_some, hnothing hfailed, hzero]
        | some last =>
            obtain ⟨⟨hin', hsucceeded⟩, hlatest'⟩ := latestSuccess_eq_some_iff.mp hlatest
            rw [Option.bind_some, Option.bind_some, hagree last hin' hsucceeded hlatest']

/-! ## Agreement -/

/-- On events in the inspector's order it prints the creations the indexer detects,
each behind the invoke it belongs to, exactly if for every candidate the return the
indexer prefers contributes what the latest successful one does. -/
theorem simulatePoolCreations_eq_iff
    {events : List JsonValue}
    (hordered : InInspectorOrder events) :
    (detectPoolCreationsForTx events).map (fun found => found.1.printed) =
        (detectedCreations events).map Prod.snd ∧
      (simulatePoolCreations events = detectedCreations events ↔
        ∀ event ∈ events, isDelegateInvokeCreate event = true →
          namesPool (poolIdOf event) = true →
            ∀ tokens, creationTokens event = some tokens →
              SameContribution tokens events event) := by
  constructor
  · exact detectPoolCreationsForTx_printed hordered
  · have hat : ∀ event i, events[i]? = some event →
        (simulateAt events event i = detectedAt events event ↔
          (isDelegateInvokeCreate event = true → namesPool (poolIdOf event) = true →
            ∀ tokens, creationTokens event = some tokens →
              SameContribution tokens events event)) := by
      intro event i hplace
      rw [simulateAt_eq hordered hplace, detectedAt_eq]
      by_cases hcandidate : (isDelegateInvokeCreate event &&
          namesPool (poolIdOf event)) = true
      · rw [if_pos hcandidate, if_pos hcandidate]
        obtain ⟨hinvoke, hnames⟩ := Bool.and_eq_true_iff.mp hcandidate
        simp only [hinvoke, hnames, true_implies]
        cases htokens : creationTokens event with
        | none => simp
        | some tokens =>
            rw [Option.bind_some, Option.bind_some, creation_eq_iff]
            simp
      · rw [if_neg hcandidate, if_neg hcandidate]
        simp only [true_iff]
        intro hinvoke hnames
        exact absurd (Bool.and_eq_true_iff.mpr ⟨hinvoke, hnames⟩) hcandidate
    have htagged := filterMap_tagged_eq_iff events (simulateAt events)
      fun event _ => detectedAt events event
    rw [simulatePoolCreations, detectedCreations, htagged]
    constructor
    · intro hsame event hevent
      obtain ⟨i, hplace⟩ := List.mem_iff_getElem?.mp hevent
      exact (hat event i hplace).mp (hsame event i hplace)
    · intro hagree event i hplace
      exact (hat event i hplace).mpr (hagree event (List.mem_of_getElem? hplace))

/-! ## Two returns of a creation -/

/-- A creation by a contract `2:10` whose second return gives token 0 back in
part. -/
def refundedCreation : List JsonValue :=
  eventsOfTrace 3 [
    invokeTrace ("0x2", "0xa") "0x0" [alkaneEntry ("0x2", "0x0") 100,
      alkaneEntry ("0x20", "0x0") 50],
    returnTrace [alkaneEntry ("0x2", "0xa") 10],
    returnTrace [alkaneEntry ("0x2", "0xa") 10, alkaneEntry ("0x2", "0x0") 40]]

set_option maxRecDepth 4000 in
theorem refundedCreation_printed_otherwise :
    InInspectorOrder refundedCreation ∧
      simulatePoolCreations refundedCreation =
        [(0, ⟨("2", "10"), ("2", "0"), ("32", "0"), "60", "50", "10"⟩)] ∧
      (detectPoolCreationsForTx refundedCreation).map (fun found => found.1.printed) =
        [⟨("2", "10"), ("2", "0"), ("32", "0"), "100", "50", "10"⟩] ∧
      ¬ ∀ events, InInspectorOrder events →
        (simulatePoolCreations events).map Prod.snd =
          (detectPoolCreationsForTx events).map fun found => found.1.printed := by
  have hordered : InInspectorOrder refundedCreation := by decide
  have hprinted : simulatePoolCreations refundedCreation =
      [(0, ⟨("2", "10"), ("2", "0"), ("32", "0"), "60", "50", "10"⟩)] := by decide
  have hdetected : (detectPoolCreationsForTx refundedCreation).map
      (fun found => found.1.printed) =
        [⟨("2", "10"), ("2", "0"), ("32", "0"), "100", "50", "10"⟩] := by decide
  constructor
  · exact hordered
  · constructor
    · exact hprinted
    · constructor
      · exact hdetected
      · intro hall
        have hsame := hall refundedCreation hordered
        rw [hprinted, hdetected] at hsame
        exact absurd hsame (by decide)

def plainCreation : List JsonValue := refundedCreation.take 2

theorem plainCreation_printed :
    InInspectorOrder plainCreation ∧ detectPoolCreationsForTx plainCreation ≠ [] ∧
      ∀ event ∈ plainCreation, isDelegateInvokeCreate event = true →
        namesPool (poolIdOf event) = true →
          ∀ tokens, creationTokens event = some tokens →
            SameContribution tokens plainCreation event := by
  have hordered : InInspectorOrder plainCreation := by decide
  have hsame : simulatePoolCreations plainCreation = detectedCreations plainCreation := by
    decide
  exact ⟨hordered, by decide, (simulatePoolCreations_eq_iff hordered).2.mp hsame⟩

end CreationInspector

end AlkanesIndexer
