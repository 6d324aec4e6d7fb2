import AlkanesIndexer.ReturnStatus

/-!
# The swaps the inspector prints

`simulate_pool_swaps` decodes the swaps of one transaction a second time, to explain
what the indexer has done.  Its copy of the strict search decodes the ids of a
return as `{hi, lo}` objects only, and takes every other id for `0:0`.
-/

namespace AlkanesIndexer

/-- A decoded swap with its amounts as `u128`. -/
structure DecodedSwap where
  pool : AlkaneId
  soldToken : AlkaneId
  boughtToken : AlkaneId
  soldAmount : ℕ
  boughtAmount : ℕ
  deriving DecidableEq, Repr

def DecodedSwap.columns (swap : DecodedSwap) : AlkaneId × AlkaneId × AlkaneId × ℕ × ℕ :=
  (swap.pool, swap.soldToken, swap.boughtToken, u128AsF64 swap.soldAmount,
    u128AsF64 swap.boughtAmount)

namespace Inspector

open PoolSwap Sequences

/-! ## The simulation -/

def isDelegateInvoke (event : JsonValue) : Bool :=
  AlkanesIndexer.isDelegateInvoke (fun opcode => hexToU128 opcode = some 3) event

/-- `fetch_pool_tokens`, asked for each candidate. -/
def fetchPoolTokens (pools : List PoolRow) (pool : AlkaneId) : Option (AlkaneId × AlkaneId) :=
  poolTokens pools pool

/-- `id.get(key).and_then(u128_from_json).unwrap_or(0).to_string()`. -/
def hiLoComponent (id : JsonValue) (key : String) : String :=
  toString (((id.get key).bind u128FromJson).getD 0)

def isExpectedEntry (expected : AlkaneId) (allowedAmounts : List ℕ) (entry : JsonValue) : Bool :=
  match entry.get "id" with
  | some id =>
      hiLoComponent id "block" = expected.1 && hiLoComponent id "tx" = expected.2 &&
        (allowedAmounts.isEmpty || (entryValue entry).any fun value => value ∈ allowedAmounts)
  | none => false

def findMatchingReturnStrict
    (events : List JsonValue)
    (invokeIdx : ℕ)
    (invokeVout : ℤ)
    (expected : AlkaneId)
    (allowedAmounts : List ℕ) : Option JsonValue :=
  (events.drop (invokeIdx + 1)).find? fun event =>
    isReturnOn invokeVout event &&
      (responseAlkanes event).any (isExpectedEntry expected allowedAmounts)

def simulateAt
    (pools : List PoolRow)
    (events : List JsonValue)
    (event : JsonValue)
    (i : ℕ) : Option DecodedSwap :=
  if isDelegateInvoke event && namesPool (poolIdOf event) then
    (fetchPoolTokens pools (poolIdOf event)).bind fun tokens =>
      let incoming := incomingAlkanes event
      let hasT0Incoming : Bool := 0 < tokenTotal incoming tokens.1
      let hasT1Incoming : Bool := 0 < tokenTotal incoming tokens.2
      if !hasT0Incoming && !hasT1Incoming then none
      else
        let expected := if hasT0Incoming then tokens.2 else tokens.1
        let found := (findMatchingReturnStrict events i (invokeVout event) expected
          (allowedAmounts event)).or (findMatchingReturn events i (invokeVout event))
        found.bind fun ret =>
          let outgoing := responseAlkanes ret
          let t0In := tokenTotal incoming tokens.1
          let t0Out := tokenTotal outgoing tokens.1
          let t1In := tokenTotal incoming tokens.2
          let t1Out := tokenTotal outgoing tokens.2
          let sellsToken0 : Bool := t0Out = 0 && t1In = 0
          let soldAmount := if sellsToken0 then t0In else t1In
          let boughtAmount := if sellsToken0 then t1Out else t0Out
          if soldAmount = 0 || boughtAmount = 0 then none
          else some {
            pool := poolIdOf event
            soldToken := if sellsToken0 then tokens.1 else tokens.2
            boughtToken := if sellsToken0 then tokens.2 else tokens.1
            soldAmount := soldAmount
            boughtAmount := boughtAmount }
  else none

/-- The printed swaps, each with the index that is logged for its invoke. -/
def simulatePoolSwaps (pools : List PoolRow) (events : List JsonValue) : List (ℕ × DecodedSwap) :=
  events.zipIdx.filterMap fun placed =>
    (simulateAt pools events placed.1 placed.2).map fun swap => (placed.2, swap)

/-! ## The swaps of the indexer -/

/-- The swap an invoke and its return come to, if its amounts are positive. -/
def swapOf
    (tokens : AlkaneId × AlkaneId)
    (event ret : JsonValue) : Option DecodedSwap :=
  let amounts := swapAmounts tokens event (responseAlkanes ret)
  if amounts.positive then
    some ⟨poolIdOf event, amounts.soldToken, amounts.boughtToken, amounts.soldAmount,
      amounts.boughtAmount⟩
  else none

/-- The swap of the successful row at an invoke, before the conversion of its
amounts. -/
def indexedAt
    (pools : List PoolRow)
    (events : List JsonValue)
    (event : JsonValue)
    (i : ℕ) : Option DecodedSwap :=
  if PoolSwap.isDelegateInvoke event && namesPool (poolIdOf event) then
    (poolTokens pools (poolIdOf event)).bind fun tokens =>
      if bringsToken tokens event then
        (PoolSwap.selectedReturn tokens events i event).bind (swapOf tokens event)
      else none
  else none

def indexedSwaps (pools : List PoolRow) (events : List JsonValue) : List (ℕ × DecodedSwap) :=
  events.zipIdx.filterMap fun placed =>
    (indexedAt pools events placed.1 placed.2).map fun swap => (placed.2, swap)

def columnsOf (row : PoolSwapRow) : AlkaneId × AlkaneId × AlkaneId × ℕ × ℕ :=
  (row.pool, row.soldToken, row.boughtToken, row.soldAmount, row.boughtAmount)

theorem columnsOf_rowOf
    {decoded : DecodedByTxVout}
    {height : ℕ}
    {input : TxInput}
    (tokens : AlkaneId × AlkaneId)
    (event : JsonValue)
    (ret : Option JsonValue) :
    ((some (rowOf decoded height input tokens event ret)).filter
        PoolSwapRow.successful).map columnsOf =
      (ret.bind (swapOf tokens event)).map DecodedSwap.columns := by
  cases ret with
  | none => rfl
  | some ret =>
      by_cases hpositive : (swapAmounts tokens event (responseAlkanes ret)).positive = true
      · simp [rowOf, swapOf, hpositive, columnsOf, DecodedSwap.columns]
      · simp [rowOf, swapOf, hpositive]

/-- The successful rows of a transaction are its indexed swaps. -/
theorem successful_swapRows
    (pools : List PoolRow)
    (decoded : DecodedByTxVout)
    (height : ℕ)
    (input : TxInput) :
    ((swapRows pools decoded height [input]).filter PoolSwapRow.successful).map columnsOf =
      (indexedSwaps pools input.events).map fun placed => placed.2.columns := by
  unfold swapRows indexedSwaps
  rw [List.flatMap_cons, List.flatMap_nil, List.append_nil, List.filter_filterMap,
    List.map_filterMap, List.map_filterMap]
  apply List.filterMap_congr
  intro placed hplaced
  have hevent : placed.1 ∈ input.events :=
    List.mem_of_getElem? (List.mem_zipIdx_iff_getElem?.mp hplaced)
  unfold swapRowAt indexedAt
  rw [Option.map_map]
  by_cases hcandidate : (PoolSwap.isDelegateInvoke placed.1 &&
      namesPool (poolIdOf placed.1)) = true
  · obtain ⟨hinvoke, hnames⟩ := Bool.and_eq_true_iff.mp hcandidate
    rw [if_pos hcandidate, if_pos hcandidate,
      blockTokenMap_of_candidate _ List.mem_cons_self hevent hinvoke hnames]
    cases poolTokens pools (poolIdOf placed.1) with
    | none => rfl
    | some tokens =>
        rw [Option.bind_some, Option.bind_some, swapRow_eq]
        by_cases hbrings : bringsToken tokens placed.1 = true
        · rw [if_pos hbrings, if_pos hbrings]
          exact columnsOf_rowOf tokens placed.1 _
        · rw [if_neg hbrings, if_neg hbrings]
          rfl
  · rw [if_neg hcandidate, if_neg hcandidate]
    rfl

/-! ## Both in one form -/

def selectedReturn
    (tokens : AlkaneId × AlkaneId)
    (events : List JsonValue)
    (i : ℕ)
    (event : JsonValue) : Option JsonValue :=
  (findMatchingReturnStrict events i (invokeVout event) (expectedToken tokens event)
    (allowedAmounts event)).or (findMatchingReturn events i (invokeVout event))

theorem isDelegateInvoke_eq
    (event : JsonValue) :
    isDelegateInvoke event = PoolSwap.isDelegateInvoke event := by
  have hopcode : ∀ opcode, hexToU128 opcode = some 3 ↔ hexToDecU128Str opcode = some "3" := by
    intro opcode
    have hthree : some "3" = (some 3).map (toString : ℕ → String) := rfl
    have hinjective : Function.Injective (toString : ℕ → String) :=
      fun _ _ heq => Nat.repr_inj.mp heq
    rw [hexToDecU128Str, hthree, (Option.map_injective hinjective).eq_iff]
  unfold isDelegateInvoke PoolSwap.isDelegateInvoke
  congr 1
  funext opcode
  exact decide_eq_decide.mpr (hopcode opcode)

theorem some_of_positive
    {α : Type*}
    (sold bought : ℕ)
    (swap : α) :
    (if (decide (sold = 0) || decide (bought = 0)) = true then none else some swap) =
      if (decide (0 < sold) && decide (0 < bought)) = true then some swap else none := by
  cases sold with
  | zero => rfl
  | succ sold => cases bought <;> simp

theorem simulateAt_eq
    (pools : List PoolRow)
    (events : List JsonValue)
    (event : JsonValue)
    (i : ℕ) :
    simulateAt pools events event i =
      if PoolSwap.isDelegateInvoke event && namesPool (poolIdOf event) then
        (poolTokens pools (poolIdOf event)).bind fun tokens =>
          if bringsToken tokens event then
            (selectedReturn tokens events i event).bind (swapOf tokens event)
          else none
      else none := by
  unfold simulateAt
  rw [isDelegateInvoke_eq]
  split
  · apply Option.bind_congr
    intro tokens _
    have hexpected : (if decide (0 < tokenTotal (incomingAlkanes event) tokens.1) = true then
        tokens.2 else tokens.1) = expectedToken tokens event := by
      simp [expectedToken]
    by_cases hbrings : bringsToken tokens event = true
    · have hgo : ¬ ((!decide (0 < tokenTotal (incomingAlkanes event) tokens.1) &&
          !decide (0 < tokenTotal (incomingAlkanes event) tokens.2)) = true) := by
        simpa [bringsToken, or_iff_not_imp_left, Nat.pos_iff_ne_zero] using hbrings
      rw [if_neg hgo, if_pos hbrings, hexpected]
      apply Option.bind_congr
      intro ret _
      dsimp only
      rw [some_of_positive]
      unfold swapOf swapAmounts SwapAmounts.positive
      by_cases hsells : tokenTotal (responseAlkanes ret) tokens.1 = 0 ∧
          tokenTotal (incomingAlkanes event) tokens.2 = 0
      · simp [hsells]
      · simp [hsells]
    · have hskip : (!decide (0 < tokenTotal (incomingAlkanes event) tokens.1) &&
          !decide (0 < tokenTotal (incomingAlkanes event) tokens.2)) = true := by
        simpa [bringsToken] using hbrings
      rw [if_pos hskip, if_neg hbrings]
  · rfl

/-! ## The returns both select -/

/-- The return pays the expected token as far as the inspector can read its ids. -/
def paysExpected (tokens : AlkaneId × AlkaneId) (event ret : JsonValue) : Bool :=
  (responseAlkanes ret).any
    (isExpectedEntry (expectedToken tokens event) (allowedAmounts event))

def swapRank
    (tokens : AlkaneId × AlkaneId)
    (event : JsonValue)
    (ret : PlacedEvent) : ℕ ×ₗ ℕ :=
  toLex (if paysExpected tokens event ret.1 then 0 else 1, ret.2)

theorem selectedReturn_eq_argmin
    (tokens : AlkaneId × AlkaneId)
    (events : List JsonValue)
    (i : ℕ)
    (event : JsonValue) :
    selectedReturn tokens events i event =
      ((laterReturns events i (invokeVout event)).argmin (swapRank tokens event)).map
        Prod.fst :=
  searches_eq_argmin events i (invokeVout event) (paysExpected tokens event)

/-- What a return pays for the token that comes in: token 0 if token 1 comes in,
else token 1, and then nothing if token 0 goes out as well. -/
def payment (tokens : AlkaneId × AlkaneId) (event ret : JsonValue) : ℕ :=
  let outgoing := responseAlkanes ret
  if tokenTotal (incomingAlkanes event) tokens.2 = 0 then
    if tokenTotal outgoing tokens.1 = 0 then tokenTotal outgoing tokens.2 else 0
  else tokenTotal outgoing tokens.1

def swapPaying
    (tokens : AlkaneId × AlkaneId)
    (event : JsonValue)
    (bought : ℕ) : Option DecodedSwap :=
  let incoming := incomingAlkanes event
  if bought = 0 then none
  else if tokenTotal incoming tokens.2 = 0 then
    some ⟨poolIdOf event, tokens.1, tokens.2, tokenTotal incoming tokens.1, bought⟩
  else some ⟨poolIdOf event, tokens.2, tokens.1, tokenTotal incoming tokens.2, bought⟩

theorem swapOf_eq_swapPaying
    {tokens : AlkaneId × AlkaneId}
    {event : JsonValue}
    (hbrings : bringsToken tokens event = true)
    (ret : JsonValue) :
    swapOf tokens event ret = swapPaying tokens event (payment tokens event ret) := by
  simp only [bringsToken, Bool.or_eq_true, decide_eq_true_eq] at hbrings
  unfold swapOf swapPaying swapAmounts payment SwapAmounts.positive
  by_cases hincoming : tokenTotal (incomingAlkanes event) tokens.2 = 0
  · have hsold : 0 < tokenTotal (incomingAlkanes event) tokens.1 := by omega
    by_cases hback : tokenTotal (responseAlkanes ret) tokens.1 = 0
    · by_cases hbought : tokenTotal (responseAlkanes ret) tokens.2 = 0
      · simp [hincoming, hback, hbought]
      · simp [hincoming, hback, hbought, hsold, Nat.pos_of_ne_zero hbought]
    · simp [hincoming, hback]
  · have hsold : 0 < tokenTotal (incomingAlkanes event) tokens.2 := by omega
    by_cases hbought : tokenTotal (responseAlkanes ret) tokens.1 = 0
    · simp [hincoming, hbought]
    · simp [hincoming, hbought, hsold, Nat.pos_of_ne_zero hbought]

theorem swapPaying_inj
    {tokens : AlkaneId × AlkaneId}
    {event : JsonValue}
    {bought bought' : ℕ} :
    swapPaying tokens event bought = swapPaying tokens event bought' ↔ bought = bought' := by
  constructor
  · intro heq
    unfold swapPaying at heq
    by_cases hzero : bought = 0
    · by_cases hzero' : bought' = 0
      · rw [hzero, hzero']
      · by_cases hincoming : tokenTotal (incomingAlkanes event) tokens.2 = 0 <;>
          simp [hzero, hzero', hincoming] at heq
    · by_cases hzero' : bought' = 0
      · by_cases hincoming : tokenTotal (incomingAlkanes event) tokens.2 = 0 <;>
          simp [hzero, hzero', hincoming] at heq
      · by_cases hincoming : tokenTotal (incomingAlkanes event) tokens.2 = 0 <;>
          simpa [hzero, hzero', hincoming] using heq
  · intro heq
    rw [heq]

/-- The best return for the indexer pays as much as the best one for the
inspector. -/
def SamePayment
    (tokens : AlkaneId × AlkaneId)
    (events : List JsonValue)
    (i : ℕ)
    (event : JsonValue) : Prop :=
  let returns := laterReturns events i (invokeVout event)
  ∀ ret ∈ returns, ∀ ret' ∈ returns,
    (∀ other ∈ returns, PoolSwap.swapRank tokens event ret ≤
      PoolSwap.swapRank tokens event other) →
    (∀ other ∈ returns, swapRank tokens event ret' ≤ swapRank tokens event other) →
    payment tokens event ret.1 = payment tokens event ret'.1

theorem selectedSwaps_eq_iff
    {tokens : AlkaneId × AlkaneId}
    {events : List JsonValue}
    {i : ℕ}
    {event : JsonValue}
    (hbrings : bringsToken tokens event = true) :
    (selectedReturn tokens events i event).bind (swapOf tokens event) =
        (PoolSwap.selectedReturn tokens events i event).bind (swapOf tokens event) ↔
      SamePayment tokens events i event := by
  rw [selectedReturn_eq_argmin, PoolSwap.selectedReturn_eq_argmin]
  unfold SamePayment
  dsimp only
  generalize hreturns : laterReturns events i (invokeVout event) = returns
  have hinj : ∀ left ∈ returns, ∀ right ∈ returns,
      PoolSwap.swapRank tokens event left = PoolSwap.swapRank tokens event right →
        left = right := by
    intro left hleft right hright hrank
    rw [← hreturns] at hleft hright
    exact swapRank_injOn_laterReturns hleft hright hrank
  have hinj' : ∀ left ∈ returns, ∀ right ∈ returns,
      swapRank tokens event left = swapRank tokens event right → left = right := by
    intro left hleft right hright hrank
    rw [← hreturns] at hleft hright
    simp only [swapRank, toLex_inj, Prod.mk.injEq] at hrank
    exact eq_of_mem_laterReturns hleft hright hrank.2
  cases hbest : returns.argmin (PoolSwap.swapRank tokens event) with
  | none =>
      have hnone : returns = [] := List.argmin_eq_none.mp hbest
      subst hnone
      simp
  | some ret =>
      cases hbest' : returns.argmin (swapRank tokens event) with
      | none =>
          have hnone : returns = [] := List.argmin_eq_none.mp hbest'
          rw [hnone] at hbest
          cases hbest
      | some ret' =>
          rw [Option.map_some, Option.map_some, Option.bind_some, Option.bind_some,
            swapOf_eq_swapPaying hbrings, swapOf_eq_swapPaying hbrings, swapPaying_inj]
          constructor
          · intro hsame best hmem best' hmem' hle hle'
            have hret := (argmin_eq_some_iff_of_injOn hinj).mpr ⟨hmem, hle⟩
            have hret' := (argmin_eq_some_iff_of_injOn hinj').mpr ⟨hmem', hle'⟩
            rw [hbest, Option.some.injEq] at hret
            rw [hbest', Option.some.injEq] at hret'
            rw [← hret, ← hret', hsame]
          · intro hsame
            have hmin := (argmin_eq_some_iff_of_injOn hinj).mp hbest
            have hmin' := (argmin_eq_some_iff_of_injOn hinj').mp hbest'
            exact (hsame ret hmin.1 ret' hmin'.1 hmin.2 hmin'.2).symm

/-- Both read an id of `{hi, lo}` objects alike. -/
theorem hiLoComponent_eq
    {id : JsonValue}
    {key : String}
    (hhiLo : ∀ part, id.get key = some part →
      (part.get "hi").isSome = true ∧ (part.get "lo").isSome = true) :
    hiLoComponent id key = idComponent id key := by
  unfold hiLoComponent idComponent
  cases hpart : id.get key with
  | none => rfl
  | some part =>
      obtain ⟨hhi, hlo⟩ := hhiLo part hpart
      rw [Option.bind_some, Option.bind_some, valueU128FromJson, hhi, hlo]
      rfl

/-- Returns with such ids are explained as they were indexed. -/
theorem samePayment_of_hiLo
    {tokens : AlkaneId × AlkaneId}
    {events : List JsonValue}
    {i : ℕ}
    {event : JsonValue}
    (hhiLo : ∀ ret ∈ events, ∀ entry ∈ responseAlkanes ret, ∀ id, entry.get "id" = some id →
      ∀ key part, id.get key = some part →
        (part.get "hi").isSome = true ∧ (part.get "lo").isSome = true) :
    SamePayment tokens events i event := by
  have hpays : ∀ ret ∈ events,
      paysExpected tokens event ret = PoolSwap.paysExpected tokens event ret := by
    intro ret hret
    unfold paysExpected PoolSwap.paysExpected
    rw [Bool.eq_iff_iff, List.any_eq_true, List.any_eq_true]
    apply exists_congr
    intro entry
    apply and_congr_right
    intro hentry
    unfold isExpectedEntry PoolSwap.isExpectedEntry namesToken
    cases hid : entry.get "id" with
    | none => rfl
    | some id =>
        dsimp only
        rw [hiLoComponent_eq (hhiLo ret hret entry hentry id hid "block"),
          hiLoComponent_eq (hhiLo ret hret entry hentry id hid "tx")]
  have hrank : ∀ ret ∈ laterReturns events i (invokeVout event),
      swapRank tokens event ret = PoolSwap.swapRank tokens event ret := by
    intro ret hret
    have hmem : ret.1 ∈ events := List.mem_of_getElem?
      (List.mem_zipIdx_iff_getElem?.mp (List.mem_of_mem_drop (List.mem_of_mem_filter hret)))
    rw [swapRank, PoolSwap.swapRank, hpays ret.1 hmem]
  unfold SamePayment
  dsimp only
  intro ret hret ret' hret' hbest hbest'
  have hback := hbest' ret hret
  rw [hrank ret hret, hrank ret' hret'] at hback
  have hsame : ret = ret' :=
    swapRank_injOn_laterReturns hret hret' (le_antisymm (hbest ret' hret') hback)
  rw [hsame]

/-! ## Agreement -/

/-- The inspector prints the swaps of the successful rows, each behind the invoke
it belongs to, exactly if for every candidate the two best returns pay the same. -/
theorem simulatePoolSwaps_eq_iff
    (pools : List PoolRow)
    (decoded : DecodedByTxVout)
    (height : ℕ)
    (input : TxInput) :
    ((swapRows pools decoded height [input]).filter PoolSwapRow.successful).map columnsOf =
        (indexedSwaps pools input.events).map (fun placed => placed.2.columns) ∧
      (simulatePoolSwaps pools input.events = indexedSwaps pools input.events ↔
        ∀ event i, input.events[i]? = some event → PoolSwap.isDelegateInvoke event = true →
          namesPool (poolIdOf event) = true →
            ∀ tokens, poolTokens pools (poolIdOf event) = some tokens →
              bringsToken tokens event = true → SamePayment tokens input.events i event) := by
  constructor
  · exact successful_swapRows pools decoded height input
  · unfold simulatePoolSwaps indexedSwaps
    rw [filterMap_tagged_eq_iff]
    apply forall₃_congr
    intro event i hat
    rw [simulateAt_eq, indexedAt]
    by_cases hcandidate : (PoolSwap.isDelegateInvoke event && namesPool (poolIdOf event)) = true
    · rw [if_pos hcandidate, if_pos hcandidate]
      obtain ⟨hinvoke, hnames⟩ := Bool.and_eq_true_iff.mp hcandidate
      simp only [hinvoke, hnames, true_implies]
      cases htokens : poolTokens pools (poolIdOf event) with
      | none => simp
      | some tokens =>
          rw [Option.bind_some, Option.bind_some]
          by_cases hbrings : bringsToken tokens event = true
          · rw [if_pos hbrings, if_pos hbrings, selectedSwaps_eq_iff hbrings]
            simp [hbrings]
          · simp [hbrings]
    · rw [if_neg hcandidate, if_neg hcandidate]
      simp only [true_iff]
      intro hinvoke hnames
      exact absurd (Bool.and_eq_true_iff.mpr ⟨hinvoke, hnames⟩) hcandidate

/-! ## A payment the inspector cannot read -/

/-- A swap whose payment comes with the second return, under an id in hex. -/
def hexPaidSwap : TxInput where
  transactionId := "aa"
  transactionIndex := 0
  timestamp := 0
  transactionJson := .object []
  events := eventsOfTrace 3 [
    invokeTrace ("0x2", "0xa") "0x3" [alkaneEntry ("0x2", "0x0") 100],
    returnTrace [],
    returnTrace [alkaneEntry ("0x20", "0x0") 90]]

/-- The indexer stores the swap, and the inspector prints nothing. -/
theorem hexPaidSwap_not_printed :
    simulatePoolSwaps [tradedPool] hexPaidSwap.events = [] ∧
      indexedSwaps [tradedPool] hexPaidSwap.events =
        [(0, ⟨("2", "10"), ("2", "0"), ("32", "0"), 100, 90⟩)] ∧
      ¬ ∀ pools decoded height (input : TxInput),
        (simulatePoolSwaps pools input.events).map (fun placed => placed.2.columns) =
          ((swapRows pools decoded height [input]).filter
            PoolSwapRow.successful).map columnsOf := by
  have hprinted : simulatePoolSwaps [tradedPool] hexPaidSwap.events = [] := by decide
  have hindexed : indexedSwaps [tradedPool] hexPaidSwap.events =
      [(0, ⟨("2", "10"), ("2", "0"), ("32", "0"), 100, 90⟩)] := by decide
  constructor
  · exact hprinted
  · constructor
    · exact hindexed
    · intro hall
      have hsame := hall [tradedPool] (fun _ _ => []) 5 hexPaidSwap
      rw [successful_swapRows, hprinted, hindexed] at hsame
      cases hsame

end Inspector

end AlkanesIndexer
