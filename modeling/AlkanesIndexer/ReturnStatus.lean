import AlkanesIndexer.ReturnMatching
import AlkanesIndexer.SwapReturns

/-!
# Successful rows and the status of their returns

The Subfrost decoders look at the status of a return.  The decoders of swaps,
mints, burns and creations choose a return by what it pays alone, so a row can
take its amounts from a return that failed.  It does so exactly when such a
return pays and no other return that is admitted ranks before it.
-/

namespace AlkanesIndexer

open Sequences

/-! ## A choice by rank -/

/-- No return without a success status which would pay is the best of them. -/
def RevertedReturnsLose
    {β : Type*}
    [LinearOrder β]
    (returns : List PlacedEvent)
    (rank : PlacedEvent → β)
    (pays : JsonValue → Bool) : Prop :=
  ∀ ret ∈ returns, Subfrost.statusOk ret.1 = false → pays ret.1 = true →
    ∃ other ∈ returns, rank other < rank ret

theorem argmin_statusOk_iff
    {β : Type*}
    [LinearOrder β]
    {returns : List PlacedEvent}
    {rank : PlacedEvent → β}
    {pays : JsonValue → Bool}
    (hinj : ∀ left ∈ returns, ∀ right ∈ returns, rank left = rank right → left = right) :
    (∀ ret, returns.argmin rank = some ret → pays ret.1 = true →
        Subfrost.statusOk ret.1 = true) ↔
      RevertedReturnsLose returns rank pays := by
  constructor
  · intro hchosen ret hret hstatus hpays
    by_contra hbest
    push Not at hbest
    have hmin : returns.argmin rank = some ret :=
      (argmin_eq_some_iff_of_injOn hinj).mpr ⟨hret, hbest⟩
    rw [hchosen ret hmin hpays] at hstatus
    cases hstatus
  · intro hlose ret hmin hpays
    by_contra hstatus
    rw [Bool.not_eq_true] at hstatus
    obtain ⟨other, hother, hlt⟩ := hlose ret (List.argmin_mem hmin) hstatus hpays
    exact absurd (List.le_of_mem_argmin hother hmin) (not_le_of_gt hlt)

/-! ## Swaps -/

namespace PoolSwap

theorem swapRank_injOn_laterReturns
    {tokens : AlkaneId × AlkaneId}
    {events : List JsonValue}
    {i : ℕ}
    {event : JsonValue}
    {left right : PlacedEvent}
    (hleft : left ∈ laterReturns events i (invokeVout event))
    (hright : right ∈ laterReturns events i (invokeVout event))
    (hrank : swapRank tokens event left = swapRank tokens event right) :
    left = right := by
  simp only [swapRank, toLex_inj, Prod.mk.injEq] at hrank
  exact eq_of_mem_laterReturns hleft hright hrank.2

/-- The row of an event takes its amounts from a return with a success status, if
it is successful. -/
def PaidByOk
    (tokenMap : TokenMap)
    (decoded : DecodedByTxVout)
    (height : ℕ)
    (input : TxInput)
    (event : JsonValue)
    (i : ℕ) : Prop :=
  ∀ row, swapRowAt tokenMap decoded height input event i = some row → row.successful = true →
    ∃ tokens ret, tokenMap (poolIdOf event) = some tokens ∧
      selectedReturn tokens input.events i event = some ret ∧
      row = rowOf decoded height input tokens event (some ret) ∧
      Subfrost.statusOk ret = true

theorem paidByOk_iff
    {tokenMap : TokenMap}
    {decoded : DecodedByTxVout}
    {height : ℕ}
    {input : TxInput}
    {event : JsonValue}
    {i : ℕ} :
    PaidByOk tokenMap decoded height input event i ↔
      (isDelegateInvoke event = true → namesPool (poolIdOf event) = true →
        ∀ tokens, tokenMap (poolIdOf event) = some tokens → bringsToken tokens event = true →
          RevertedReturnsLose (laterReturns input.events i (invokeVout event))
            (swapRank tokens event)
            fun ret => (swapAmounts tokens event (responseAlkanes ret)).positive) := by
  have hchoice : ∀ tokens, RevertedReturnsLose (laterReturns input.events i (invokeVout event))
      (swapRank tokens event)
      (fun ret => (swapAmounts tokens event (responseAlkanes ret)).positive) ↔
      ∀ ret, selectedReturn tokens input.events i event = some ret →
        (swapAmounts tokens event (responseAlkanes ret)).positive = true →
          Subfrost.statusOk ret = true := by
    intro tokens
    rw [← argmin_statusOk_iff fun left hleft right hright =>
      swapRank_injOn_laterReturns hleft hright, selectedReturn_eq_argmin]
    constructor
    · intro h ret hret
      obtain ⟨placed, hplaced, rfl⟩ := Option.map_eq_some_iff.mp hret
      exact h placed hplaced
    · intro h placed hplaced
      exact h placed.1 (by rw [hplaced]; rfl)
  unfold PaidByOk
  constructor
  · intro hpaid hinvoke hnames tokens htokens hbrings
    rw [hchoice]
    intro ret hret hpositive
    have hrow : swapRowAt tokenMap decoded height input event i =
        some (rowOf decoded height input tokens event (some ret)) := by
      simp [swapRowAt, hinvoke, hnames, htokens, swapRow_eq, hbrings, hret]
    obtain ⟨tokens', ret', htokens', hret', -, hstatus⟩ :=
      hpaid _ hrow (by simpa [rowOf] using hpositive)
    rw [htokens, Option.some.injEq] at htokens'
    subst htokens'
    rw [hret, Option.some.injEq] at hret'
    subst hret'
    exact hstatus
  · intro hcondition row hrow hsuccessful
    simp only [swapRowAt, Option.ite_none_right_eq_some, Bool.and_eq_true,
      Option.bind_eq_some_iff, swapRow_eq, Option.some.injEq] at hrow
    obtain ⟨⟨hinvoke, hnames⟩, tokens, htokens, hbrings, rfl⟩ := hrow
    simp only [rowOf, Bool.and_eq_true, Option.isSome_iff_exists] at hsuccessful
    obtain ⟨⟨ret, hret⟩, hpositive⟩ := hsuccessful
    rw [hret] at hpositive ⊢
    have hstatus := (hchoice tokens).mp (hcondition hinvoke hnames tokens htokens hbrings)
    exact ⟨tokens, ret, htokens, hret, rfl, hstatus ret hret hpositive⟩

end PoolSwap

/-! ## Mints, burns and creations -/

def LiquidityDecoder.pays (decoder : LiquidityDecoder) (totals : LiquidityTotals) : Bool :=
  decoder.token0Amount totals > 0 && decoder.token1Amount totals > 0 &&
    decoder.lpAmount totals > 0

def SortingDecoder.pays
    (decoder : SortingDecoder)
    (tokens : AlkaneId × AlkaneId)
    (invoke ret : JsonValue) : Bool :=
  match decoder with
  | poolMint => mintDecoder.pays (LiquidityDecoder.returnTotals tokens invoke ret)
  | poolBurn => burnDecoder.pays (LiquidityDecoder.returnTotals tokens invoke ret)
  | poolCreation => (PoolCreation.creationOf tokens invoke ret).isSome
  | subfrostWrap | subfrostUnwrap => true

/-- What a search finds behind an invoke has a success status whenever it pays
exactly if reverted returns lose among the returns that are admitted. -/
theorem search_statusOk_iff
    (decoder : SortingDecoder)
    (tokens : AlkaneId × AlkaneId)
    {events : List JsonValue}
    {i : ℕ}
    {invoke : PlacedEvent}
    (hplace : (orderedEvents events)[i]? = some invoke)
    (hinvoke : decoder.isInvoke invoke.1 = true) :
    (∀ chosen, decoder.search tokens (orderedEvents events) i invoke.1 = some chosen →
        decoder.pays tokens invoke.1 chosen.1.1 = true →
          Subfrost.statusOk chosen.1.1 = true) ↔
      RevertedReturnsLose (admittedReturns decoder tokens events invoke.1)
        (decoder.rank tokens invoke.1) (decoder.pays tokens invoke.1) := by
  have hsearch := search_map_fst decoder tokens hplace
    (SortingDecoder.eventType_of_isInvoke hinvoke)
  rw [← argmin_statusOk_iff fun left hleft right hright =>
    rank_injOn_admittedReturns hleft hright]
  unfold admittedReturns
  rw [← hsearch]
  constructor
  · intro h ret hret
    obtain ⟨chosen, hchosen, rfl⟩ := Option.map_eq_some_iff.mp hret
    exact h chosen hchosen
  · intro h chosen hchosen
    exact h chosen.1 (by rw [hchosen]; rfl)

namespace LiquidityDecoder

def PaidByOk
    (decoder : LiquidityDecoder)
    (tokenMap : TokenMap)
    (decoded : DecodedByTxVout)
    (height : ℕ)
    (input : TxInput)
    (event : JsonValue)
    (i : ℕ) : Prop :=
  ∀ row, decoder.liquidityRowAt tokenMap decoded height input (orderedEvents input.events)
      event i = some row → row.successful = true →
    ∃ tokens chosen, tokenMap (poolIdOf event) = some tokens ∧
      decoder.chosenReturn tokens (orderedEvents input.events) i event = some chosen ∧
      Subfrost.statusOk chosen.1.1 = true

theorem successful_liquidityRow_iff
    {decoder : LiquidityDecoder}
    {decoded : DecodedByTxVout}
    {height : ℕ}
    {input : TxInput}
    {tokens : AlkaneId × AlkaneId}
    {ordered : List PlacedEvent}
    {event : JsonValue}
    {i : ℕ} :
    (decoder.liquidityRow decoded height input tokens ordered i event).successful = true ↔
      ∃ chosen, decoder.chosenReturn tokens ordered i event = some chosen ∧
        decoder.pays (returnTotals tokens event chosen.1.1) = true := by
  unfold liquidityRow pays returnTotals
  cases decoder.chosenReturn tokens ordered i event <;> simp

theorem paidByOk_iff
    {decoder : LiquidityDecoder}
    {tokenMap : TokenMap}
    {decoded : DecodedByTxVout}
    {height : ℕ}
    {input : TxInput}
    {event : JsonValue}
    {i : ℕ} :
    decoder.PaidByOk tokenMap decoded height input event i ↔
      (decoder.isCandidate event = true → namesPool (poolIdOf event) = true →
        ∀ tokens, tokenMap (poolIdOf event) = some tokens → ∀ chosen,
          decoder.chosenReturn tokens (orderedEvents input.events) i event = some chosen →
            decoder.pays (returnTotals tokens event chosen.1.1) = true →
              Subfrost.statusOk chosen.1.1 = true) := by
  unfold PaidByOk
  constructor
  · intro hpaid hcandidate hnames tokens htokens chosen hchosen hpays
    obtain ⟨tokens', chosen', htokens', hchosen', hstatus⟩ := hpaid _
      (liquidityRowAt_eq_some_iff.mpr ⟨hcandidate, hnames, tokens, htokens, rfl⟩)
      (successful_liquidityRow_iff.mpr ⟨chosen, hchosen, hpays⟩)
    rw [htokens, Option.some.injEq] at htokens'
    subst htokens'
    rw [hchosen, Option.some.injEq] at hchosen'
    subst hchosen'
    exact hstatus
  · intro hcondition row hrow hsuccessful
    obtain ⟨hcandidate, hnames, tokens, htokens, rfl⟩ := liquidityRowAt_eq_some_iff.mp hrow
    obtain ⟨chosen, hchosen, hpays⟩ := successful_liquidityRow_iff.mp hsuccessful
    exact ⟨tokens, chosen, htokens, hchosen,
      hcondition hcandidate hnames tokens htokens chosen hchosen hpays⟩

end LiquidityDecoder

namespace PoolCreation

def PaidByOk (events : List JsonValue) (event : JsonValue) (i : ℕ) : Prop :=
  ∀ found, creationAt (orderedEvents events) event i = some found →
    ∃ tokens chosen, creationTokens event = some tokens ∧
      chosenReturn tokens (orderedEvents events) i event = some chosen ∧
      Subfrost.statusOk chosen.1.1 = true

theorem paidByOk_iff
    {events : List JsonValue}
    {event : JsonValue}
    {i : ℕ} :
    PaidByOk events event i ↔
      (isDelegateInvokeCreate event = true → namesPool (poolIdOf event) = true →
        ∀ tokens, creationTokens event = some tokens → ∀ chosen,
          chosenReturn tokens (orderedEvents events) i event = some chosen →
            (creationOf tokens event chosen.1.1).isSome = true →
              Subfrost.statusOk chosen.1.1 = true) := by
  unfold PaidByOk
  constructor
  · intro hpaid hinvoke hnames tokens htokens chosen hchosen hpays
    obtain ⟨creation, hcreation⟩ := Option.isSome_iff_exists.mp hpays
    have hfound : creationAt (orderedEvents events) event i =
        some (creation, invokeVout event) := by
      simp [creationAt, hinvoke, hnames, htokens, hchosen, hcreation]
    obtain ⟨tokens', chosen', htokens', hchosen', hstatus⟩ := hpaid _ hfound
    rw [htokens, Option.some.injEq] at htokens'
    subst htokens'
    rw [hchosen, Option.some.injEq] at hchosen'
    subst hchosen'
    exact hstatus
  · intro hcondition found hfound
    simp only [creationAt, Option.ite_none_right_eq_some, Bool.and_eq_true,
      Option.bind_eq_some_iff, Option.map_eq_some_iff] at hfound
    obtain ⟨⟨hinvoke, hnames⟩, tokens, htokens, chosen, hchosen, creation, hcreation, -⟩ := hfound
    exact ⟨tokens, chosen, htokens, hchosen,
      hcondition hinvoke hnames tokens htokens chosen hchosen (by rw [hcreation]; rfl)⟩

end PoolCreation

/-! ## A block -/

/-- Every successful swap, mint and burn of a block and every creation takes its
amounts from a return with a success status. -/
structure SuccessMeansOk
    (pools : List PoolRow)
    (decoded : DecodedByTxVout)
    (height : ℕ)
    (inputs : List TxInput) : Prop where
  swaps : ∀ input ∈ inputs, ∀ event i, input.events[i]? = some event →
    PoolSwap.PaidByOk (blockTokenMap PoolSwap.isDelegateInvoke pools inputs) decoded height
      input event i
  mints : ∀ input ∈ inputs, ∀ placed i, (orderedEvents input.events)[i]? = some placed →
    mintDecoder.PaidByOk (blockTokenMap mintDecoder.isCandidate pools inputs) decoded height
      input placed.1 i
  burns : ∀ input ∈ inputs, ∀ placed i, (orderedEvents input.events)[i]? = some placed →
    burnDecoder.PaidByOk (blockTokenMap burnDecoder.isCandidate pools inputs) decoded height
      input placed.1 i
  creations : ∀ input ∈ inputs, ∀ placed i, (orderedEvents input.events)[i]? = some placed →
    PoolCreation.PaidByOk input.events placed.1 i

/-- For every candidate a return without a success status which would pay ranks
behind another one. -/
structure RevertedReturnsPassedOver (pools : List PoolRow) (inputs : List TxInput) : Prop where
  swaps : ∀ input ∈ inputs, ∀ event i, input.events[i]? = some event →
    PoolSwap.isDelegateInvoke event = true → namesPool (poolIdOf event) = true →
      ∀ tokens, poolTokens pools (poolIdOf event) = some tokens →
        PoolSwap.bringsToken tokens event = true →
          RevertedReturnsLose (PoolSwap.laterReturns input.events i (invokeVout event))
            (PoolSwap.swapRank tokens event)
            fun ret => (PoolSwap.swapAmounts tokens event (responseAlkanes ret)).positive
  others : ∀ decoder ∈ [SortingDecoder.poolMint, .poolBurn, .poolCreation],
    ∀ input ∈ inputs, ∀ event ∈ input.events, decoder.isInvoke event = true →
      ∀ tokens, decoder.tokensOf (poolTokens pools) event = some tokens →
        RevertedReturnsLose (admittedReturns decoder tokens input.events event)
          (decoder.rank tokens event) (decoder.pays tokens event)

section Blocks

variable
  {pools : List PoolRow}
  {decoded : DecodedByTxVout}
  {height : ℕ}
  {inputs : List TxInput}

theorem forall_placed_iff
    {events : List JsonValue}
    {property : JsonValue → Prop} :
    (∀ (placed : PlacedEvent) (i : ℕ), (orderedEvents events)[i]? = some placed →
        property placed.1) ↔
      ∀ event ∈ events, property event := by
  constructor
  · intro h event hevent
    obtain ⟨k, i, hplaced⟩ := exists_ordered_of_mem hevent
    exact h (event, k) i (List.mk_mem_zipIdx_iff_getElem?.mp hplaced)
  · intro h placed i hplace
    exact h placed.1 (mem_of_mem_ordered (List.mk_mem_zipIdx_iff_getElem?.mpr hplace))

variable (pools decoded height inputs) in
theorem swaps_paidByOk_iff :
    (∀ input ∈ inputs, ∀ event i, input.events[i]? = some event →
        PoolSwap.PaidByOk (blockTokenMap PoolSwap.isDelegateInvoke pools inputs) decoded height
          input event i) ↔
      ∀ input ∈ inputs, ∀ event i, input.events[i]? = some event →
        PoolSwap.isDelegateInvoke event = true → namesPool (poolIdOf event) = true →
          ∀ tokens, poolTokens pools (poolIdOf event) = some tokens →
            PoolSwap.bringsToken tokens event = true →
              RevertedReturnsLose (PoolSwap.laterReturns input.events i (invokeVout event))
                (PoolSwap.swapRank tokens event)
                fun ret => (PoolSwap.swapAmounts tokens event
                  (responseAlkanes ret)).positive := by
  apply forall₂_congr
  intro input hinput
  apply forall₃_congr
  intro event i hat
  rw [PoolSwap.paidByOk_iff]
  apply forall₂_congr
  intro hinvoke hnames
  rw [blockTokenMap_of_candidate _ hinput (List.mem_of_getElem? hat) hinvoke hnames]

variable (pools decoded height inputs) in
theorem liquidity_paidByOk_iff
    (decoder : LiquidityDecoder)
    (sorting : SortingDecoder)
    (hisInvoke : ∀ event, sorting.isInvoke event =
      (decoder.isCandidate event && namesPool (poolIdOf event)))
    (htokensOf : ∀ event, sorting.tokensOf (poolTokens pools) event =
      poolTokens pools (poolIdOf event))
    (hsearch : ∀ tokens ordered i invoke, sorting.search tokens ordered i invoke =
      decoder.chosenReturn tokens ordered i invoke)
    (hpays : ∀ tokens invoke ret, sorting.pays tokens invoke ret =
      decoder.pays (LiquidityDecoder.returnTotals tokens invoke ret)) :
    (∀ input ∈ inputs, ∀ placed i, (orderedEvents input.events)[i]? = some placed →
        decoder.PaidByOk (blockTokenMap decoder.isCandidate pools inputs) decoded height input
          placed.1 i) ↔
      ∀ input ∈ inputs, ∀ event ∈ input.events, sorting.isInvoke event = true →
        ∀ tokens, sorting.tokensOf (poolTokens pools) event = some tokens →
          RevertedReturnsLose (admittedReturns sorting tokens input.events event)
            (sorting.rank tokens event) (sorting.pays tokens event) := by
  apply forall₂_congr
  intro input hinput
  rw [← forall_placed_iff]
  apply forall₃_congr
  intro placed i hplace
  have hmem : placed.1 ∈ input.events :=
    mem_of_mem_ordered (List.mk_mem_zipIdx_iff_getElem?.mpr hplace)
  have hchosen : ∀ tokens, sorting.isInvoke placed.1 = true →
      (RevertedReturnsLose (admittedReturns sorting tokens input.events placed.1)
        (sorting.rank tokens placed.1) (sorting.pays tokens placed.1) ↔
      ∀ chosen, decoder.chosenReturn tokens (orderedEvents input.events) i placed.1 =
        some chosen → decoder.pays (LiquidityDecoder.returnTotals tokens placed.1
          chosen.1.1) = true → Subfrost.statusOk chosen.1.1 = true) := by
    intro tokens hinvoke
    rw [← search_statusOk_iff _ _ hplace hinvoke]
    simp only [hsearch, hpays]
  rw [LiquidityDecoder.paidByOk_iff, hisInvoke, Bool.and_eq_true, and_imp]
  apply forall₂_congr
  intro hcandidate hnames
  rw [blockTokenMap_of_candidate _ hinput hmem hcandidate hnames, htokensOf]
  apply forall₂_congr
  intro tokens _
  rw [hchosen tokens (by rw [hisInvoke, hcandidate, hnames]; rfl)]

variable (pools inputs) in
theorem creations_paidByOk_iff :
    (∀ input ∈ inputs, ∀ placed i, (orderedEvents input.events)[i]? = some placed →
        PoolCreation.PaidByOk input.events placed.1 i) ↔
      ∀ input ∈ inputs, ∀ event ∈ input.events,
        SortingDecoder.poolCreation.isInvoke event = true →
          ∀ tokens, SortingDecoder.poolCreation.tokensOf (poolTokens pools) event = some tokens →
            RevertedReturnsLose (admittedReturns .poolCreation tokens input.events event)
              (SortingDecoder.poolCreation.rank tokens event)
              (SortingDecoder.poolCreation.pays tokens event) := by
  apply forall₂_congr
  intro input hinput
  rw [← forall_placed_iff]
  apply forall₃_congr
  intro placed i hplace
  rw [PoolCreation.paidByOk_iff]
  change _ ↔ ((isDelegateInvokeCreate placed.1 && namesPool (poolIdOf placed.1)) = true → _)
  rw [Bool.and_eq_true, and_imp]
  apply forall₂_congr
  intro hinvoke hnames
  apply forall₂_congr
  intro tokens _
  rw [← search_statusOk_iff .poolCreation _ hplace
    (Bool.and_eq_true_iff.mpr ⟨hinvoke, hnames⟩)]
  rfl

/-- Successful rows come from successful returns exactly when every reverted
return that would pay ranks behind another one. -/
theorem successMeansOk_iff
    (pools : List PoolRow)
    (decoded : DecodedByTxVout)
    (height : ℕ)
    (inputs : List TxInput) :
    SuccessMeansOk pools decoded height inputs ↔ RevertedReturnsPassedOver pools inputs := by
  have hmints := liquidity_paidByOk_iff pools decoded height inputs mintDecoder .poolMint
    (fun _ => rfl) (fun _ => rfl) (fun _ _ _ _ => rfl) (fun _ _ _ => rfl)
  have hburns := liquidity_paidByOk_iff pools decoded height inputs burnDecoder .poolBurn
    (fun _ => rfl) (fun _ => rfl) (fun _ _ _ _ => rfl) (fun _ _ _ => rfl)
  have hcreations := creations_paidByOk_iff pools inputs
  have hswaps := swaps_paidByOk_iff pools decoded height inputs
  constructor
  · rintro ⟨h1, h2, h3, h4⟩
    refine ⟨hswaps.mp h1, ?_⟩
    simp only [List.forall_mem_cons, List.not_mem_nil, IsEmpty.forall_iff, implies_true,
      and_true]
    exact ⟨hmints.mp h2, hburns.mp h3, hcreations.mp h4⟩
  · rintro ⟨h1, hothers⟩
    simp only [List.forall_mem_cons, List.not_mem_nil, IsEmpty.forall_iff, implies_true,
      and_true] at hothers
    exact ⟨hswaps.mpr h1, hmints.mpr hothers.1, hburns.mpr hothers.2.1,
      hcreations.mpr hothers.2.2⟩

end Blocks

/-! ## A swap that failed -/

def revertedTrace (outgoing : List JsonValue) : JsonValue :=
  .object [
    ("event", .string "return"),
    ("data", .object [
      ("status", .string "failure"),
      ("response", .object [("alkanes", .array outgoing)])])]

def tradedPool : PoolRow where
  factory := ("4", "1")
  pool := ("2", "10")
  token0 := ("2", "0")
  token1 := ("32", "0")
  poolName := "DIESEL / frBTC"

/-- A swap of token 0 whose call failed although its return names a payment. -/
def revertedSwap : TxInput where
  transactionId := "aa"
  transactionIndex := 0
  timestamp := 0
  transactionJson := .object []
  events := eventsOfTrace 3 [
    invokeTrace ("0x2", "0xa") "0x3" [alkaneEntry ("0x2", "0x0") 100],
    revertedTrace [alkaneEntry ("0x20", "0x0") 90]]

theorem not_successMeansOk_revertedSwap :
    ¬ SuccessMeansOk [tradedPool] (fun _ _ => []) 5 [revertedSwap] := by
  rintro ⟨hswaps, -⟩
  have hrow : ∃ row, PoolSwap.swapRowAt
      (blockTokenMap PoolSwap.isDelegateInvoke [tradedPool] [revertedSwap]) (fun _ _ => []) 5
      revertedSwap revertedSwap.events[0] 0 = some row ∧ row.successful = true :=
    ⟨PoolSwap.rowOf (fun _ _ => []) 5 revertedSwap (("2", "0"), ("32", "0"))
      revertedSwap.events[0] (some revertedSwap.events[1]), by decide, by decide⟩
  obtain ⟨row, hrow, hsuccessful⟩ := hrow
  obtain ⟨tokens, ret, htokens, hret, -, hstatus⟩ :=
    hswaps revertedSwap List.mem_cons_self revertedSwap.events[0] 0 rfl row hrow hsuccessful
  have htokens' : blockTokenMap PoolSwap.isDelegateInvoke [tradedPool] [revertedSwap]
      (poolIdOf revertedSwap.events[0]) = some (("2", "0"), ("32", "0")) := by decide
  rw [htokens', Option.some.injEq] at htokens
  subst htokens
  have hselected : PoolSwap.selectedReturn (("2", "0"), ("32", "0")) revertedSwap.events 0
      revertedSwap.events[0] = some revertedSwap.events[1] := by decide
  rw [hselected, Option.some.injEq] at hret
  subst hret
  revert hstatus
  decide

end AlkanesIndexer
