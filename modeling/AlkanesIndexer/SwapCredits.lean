import AlkanesIndexer.ReturnMatching
import AlkanesIndexer.SwapReturns

/-!
# Swaps credited with one return

Nothing keeps two swaps of a transaction from taking their amounts from one
return.  They do so exactly if the returns between the two invokes mean nothing to
the earlier swap and both swaps prefer the same one of the returns behind the
later invoke.
-/

namespace AlkanesIndexer.PoolSwap

open Sequences

/-- The return selected for a swap, with its position. -/
def creditedReturn
    (tokens : AlkaneId × AlkaneId)
    (events : List JsonValue)
    (i : ℕ)
    (event : JsonValue) : Option PlacedEvent :=
  let later := events.zipIdx.drop (i + 1)
  (later.find? fun placed =>
    isReturnOn (invokeVout event) placed.1 && paysExpected tokens event placed.1).or
      (later.find? fun placed => isReturnOn (invokeVout event) placed.1)

theorem creditedReturn_map_fst
    (tokens : AlkaneId × AlkaneId)
    (events : List JsonValue)
    (i : ℕ)
    (event : JsonValue) :
    (creditedReturn tokens events i event).map Prod.fst = selectedReturn tokens events i event := by
  have hdrop : events.drop (i + 1) = (events.zipIdx.drop (i + 1)).map Prod.fst := by
    rw [List.map_drop, List.zipIdx_map_fst]
  unfold creditedReturn selectedReturn findMatchingReturnStrict findMatchingReturn
  rw [hdrop, List.find?_map, List.find?_map, ← Option.map_or]
  rfl

theorem creditedReturn_eq_argmin
    (tokens : AlkaneId × AlkaneId)
    (events : List JsonValue)
    (i : ℕ)
    (event : JsonValue) :
    creditedReturn tokens events i event =
      (laterReturns events i (invokeVout event)).argmin (swapRank tokens event) :=
  find?_or_find?_eq_argmin (fun placed : PlacedEvent => isReturnOn (invokeVout event) placed.1)
    (fun placed => paysExpected tokens event placed.1) Prod.snd
    (pairwise_snd_zipIdx events 0).drop

theorem mem_laterReturns
    {events : List JsonValue}
    {i : ℕ}
    {vout : ℤ}
    {ret : PlacedEvent} :
    ret ∈ laterReturns events i vout ↔
      i < ret.2 ∧ events[ret.2]? = some ret.1 ∧ isReturnOn vout ret.1 = true := by
  unfold laterReturns
  rw [List.mem_filter, mem_drop_zipIdx, and_assoc]
  rfl

/-! ## Successful rows and their returns -/

/-- A successful row, with its invoke, the tokens of its pool and the return which
its outgoing amounts are taken from. -/
structure SwapCredit
    (tokenMap : TokenMap)
    (decoded : DecodedByTxVout)
    (height : ℕ)
    (input : TxInput) where
  i : ℕ
  event : JsonValue
  tokens : AlkaneId × AlkaneId
  row : PoolSwapRow
  ret : PlacedEvent
  event_at : input.events[i]? = some event
  tokens_eq : tokenMap (poolIdOf event) = some tokens
  row_at : swapRowAt tokenMap decoded height input event i = some row
  successful : row.successful = true
  credited : creditedReturn tokens input.events i event = some ret

section Credits

variable
  {tokenMap : TokenMap}
  {decoded : DecodedByTxVout}
  {height : ℕ}
  {input : TxInput}

theorem row_of_swapRowAt
    {i : ℕ}
    {event : JsonValue}
    {tokens : AlkaneId × AlkaneId}
    {row : PoolSwapRow}
    (htokens : tokenMap (poolIdOf event) = some tokens)
    (hrow : swapRowAt tokenMap decoded height input event i = some row) :
    row = rowOf decoded height input tokens event (selectedReturn tokens input.events i event) := by
  simp only [swapRowAt, Option.ite_none_right_eq_some, htokens, Option.bind_some, swapRow_eq,
    Option.some.injEq] at hrow
  exact hrow.2.2.symm

/-- A row is what its return makes of it. -/
theorem SwapCredit.row_eq
    (credit : SwapCredit tokenMap decoded height input) :
    credit.row = rowOf decoded height input credit.tokens credit.event (some credit.ret.1) := by
  rw [row_of_swapRowAt credit.tokens_eq credit.row_at, ← creditedReturn_map_fst, credit.credited]
  rfl

/-- Every successful row has a return to take its amounts from. -/
theorem exists_swapCredit
    {i : ℕ}
    {event : JsonValue}
    {row : PoolSwapRow}
    (hevent : input.events[i]? = some event)
    (hrow : swapRowAt tokenMap decoded height input event i = some row)
    (hsuccessful : row.successful = true) :
    ∃ credit : SwapCredit tokenMap decoded height input, credit.i = i ∧ credit.row = row := by
  have htokens : ∃ tokens, tokenMap (poolIdOf event) = some tokens := by
    simp only [swapRowAt, Option.ite_none_right_eq_some, Option.bind_eq_some_iff] at hrow
    obtain ⟨_, tokens, htokens, _⟩ := hrow
    exact ⟨tokens, htokens⟩
  obtain ⟨tokens, htokens⟩ := htokens
  have hform := row_of_swapRowAt htokens hrow
  cases hcredited : creditedReturn tokens input.events i event with
  | none =>
      rw [← creditedReturn_map_fst, hcredited] at hform
      rw [hform] at hsuccessful
      cases hsuccessful
  | some ret => exact ⟨⟨i, event, tokens, row, ret, hevent, htokens, hrow, hsuccessful,
      hcredited⟩, rfl, rfl⟩

theorem SwapCredit.eventType_eq
    (credit : SwapCredit tokenMap decoded height input) :
    eventType credit.event = some "invoke" := by
  have hrow := credit.row_at
  simp only [swapRowAt, Option.ite_none_right_eq_some, Bool.and_eq_true] at hrow
  exact eventType_of_isDelegateInvoke hrow.1.1

def SwapCredit.later (credit : SwapCredit tokenMap decoded height input) : List PlacedEvent :=
  laterReturns input.events credit.i (invokeVout credit.event)

def SwapCredit.rank (credit : SwapCredit tokenMap decoded height input) : PlacedEvent → ℕ ×ₗ ℕ :=
  swapRank credit.tokens credit.event

def SwapCredit.Pays
    (credit : SwapCredit tokenMap decoded height input)
    (ret : PlacedEvent) : Prop :=
  paysExpected credit.tokens credit.event ret.1 = true

theorem SwapCredit.ret_eq_iff
    (credit : SwapCredit tokenMap decoded height input)
    {ret : PlacedEvent} :
    credit.ret = ret ↔
      ret ∈ credit.later ∧ ∀ other ∈ credit.later, credit.rank ret ≤ credit.rank other := by
  have hinj : ∀ left ∈ credit.later, ∀ right ∈ credit.later,
      credit.rank left = credit.rank right → left = right := by
    intro left hleft right hright hrank
    have hposition := congrArg Prod.snd (toLex_inj.mp hrank)
    exact eq_of_mem_laterReturns hleft hright hposition
  have hargmin : credit.later.argmin credit.rank = some credit.ret := by
    rw [← credit.credited, creditedReturn_eq_argmin]
    rfl
  rw [← argmin_eq_some_iff_of_injOn hinj, hargmin, Option.some.injEq]

theorem SwapCredit.rank_le_iff
    (credit : SwapCredit tokenMap decoded height input)
    {left right : PlacedEvent} :
    credit.rank left ≤ credit.rank right ↔
      credit.Pays left ∧ ¬ credit.Pays right ∨
        (credit.Pays left ↔ credit.Pays right) ∧ left.2 ≤ right.2 := by
  unfold SwapCredit.rank swapRank SwapCredit.Pays
  rw [Prod.Lex.toLex_le_toLex]
  by_cases hleft : paysExpected credit.tokens credit.event left.1 = true
  · by_cases hright : paysExpected credit.tokens credit.event right.1 = true
    · simp [hleft, hright]
    · simp [hleft, hright]
  · by_cases hright : paysExpected credit.tokens credit.event right.1 = true
    · simp [hleft, hright]
    · simp [hleft, hright]

/-- The earlier of two swaps passes over what lies between the invokes, and behind
the later invoke both prefer the same return. -/
structure SharesReturn (first second : SwapCredit tokenMap decoded height input) : Prop where
  vout : invokeVout first.event = invokeVout second.event
  between : ∀ ret ∈ first.later, ret.2 < second.i →
    ¬ first.Pays ret ∧ ∃ later ∈ second.later, first.Pays later
  preferred : second.later.argmin first.rank = second.later.argmin second.rank

/-- On one vout, the returns behind the later invoke are those behind the earlier
one which stand behind the later one too. -/
theorem mem_later_iff
    {first second : SwapCredit tokenMap decoded height input}
    (hlt : first.i < second.i)
    (hvout : invokeVout first.event = invokeVout second.event)
    {ret : PlacedEvent} :
    ret ∈ second.later ↔ ret ∈ first.later ∧ ¬ ret.2 < second.i := by
  unfold SwapCredit.later
  rw [mem_laterReturns, mem_laterReturns, hvout]
  constructor
  · intro hmem
    obtain ⟨hbehind, hat, hreturn⟩ := hmem
    exact ⟨⟨by omega, hat, hreturn⟩, by omega⟩
  · intro hmem
    obtain ⟨⟨_, hat, hreturn⟩, hnot⟩ := hmem
    have hne : ret.2 ≠ second.i := by
      -- the later invoke itself is no return
      intro heq
      rw [heq, second.event_at, Option.some.injEq] at hat
      have htype := (isReturnOn_iff.mp hreturn).1
      rw [← hat, second.eventType_eq] at htype
      exact absurd htype (by decide)
    exact ⟨by omega, hat, hreturn⟩

theorem argmin_later_eq_some_iff
    (first second : SwapCredit tokenMap decoded height input)
    {ret : PlacedEvent} :
    second.later.argmin first.rank = some ret ↔
      ret ∈ second.later ∧ ∀ other ∈ second.later, first.rank ret ≤ first.rank other := by
  apply argmin_eq_some_iff_of_injOn
  intro left hleft right hright hrank
  have hposition := congrArg Prod.snd (toLex_inj.mp hrank)
  exact eq_of_mem_laterReturns hleft hright hposition

/-- Two successful swaps of a transaction take their amounts from one return exactly
if nothing between the invokes counts for the earlier one and both prefer the same
return behind the later invoke. -/
theorem shared_return_iff
    (first second : SwapCredit tokenMap decoded height input)
    (hlt : first.i < second.i) :
    first.ret = second.ret ↔ SharesReturn first second := by
  obtain ⟨hmem, hbest⟩ := second.ret_eq_iff.mp rfl
  have hown : second.later.argmin second.rank = some second.ret :=
    (argmin_later_eq_some_iff second second).mpr ⟨hmem, hbest⟩
  constructor
  · intro hsame
    obtain ⟨hmem', hbest'⟩ := first.ret_eq_iff.mp hsame
    have hvout : invokeVout first.event = invokeVout second.event := by
      have hfirst := (isReturnOn_iff.mp (mem_laterReturns.mp hmem').2.2).2
      rw [(isReturnOn_iff.mp (mem_laterReturns.mp hmem).2.2).2, Option.some.injEq] at hfirst
      exact hfirst.symm
    refine ⟨hvout, fun ret hret hbefore => ?_, ?_⟩
    · have hbehind := (mem_laterReturns.mp hmem).1
      cases first.rank_le_iff.mp (hbest' ret hret) with
      | inl hpays => exact ⟨hpays.2, second.ret, hmem, hpays.1⟩
      | inr hposition => omega
    · rw [hown, argmin_later_eq_some_iff]
      refine ⟨hmem, fun other hother => ?_⟩
      exact hbest' other ((mem_later_iff hlt hvout).mp hother).1
  · intro hshares
    have hpreferred := hshares.preferred
    rw [hown, argmin_later_eq_some_iff] at hpreferred
    apply first.ret_eq_iff.mpr
    refine ⟨((mem_later_iff hlt hshares.vout).mp hmem).1, fun other hother => ?_⟩
    by_cases hbefore : other.2 < second.i
    · obtain ⟨hnot, paying, hpaying, hpays⟩ := hshares.between other hother hbefore
      -- the preferred return pays the earlier swap, since some return does
      have hrank := first.rank_le_iff.mp (hpreferred.2 paying hpaying)
      apply first.rank_le_iff.mpr
      left
      exact ⟨by tauto, hnot⟩
    · exact hpreferred.2 other ((mem_later_iff hlt hshares.vout).mpr ⟨hother, hbefore⟩)

end Credits

/-! ## Two swaps in a row -/

/-- No two successful swaps of a transaction take their amounts from one return. -/
def NoDoubleCredit
    (tokenMap : TokenMap)
    (decoded : DecodedByTxVout)
    (height : ℕ)
    (input : TxInput) : Prop :=
  ∀ first second : SwapCredit tokenMap decoded height input,
    first.i ≠ second.i → first.ret ≠ second.ret

/-- The first swap names 90 as the amount it wants, and gets 95. -/
def swapTrace (inputs : List String) : JsonValue :=
  .object [
    ("event", .string "invoke"),
    ("data", .object [
      ("type", .string "delegatecall"),
      ("context", .object [
        ("myself", .object [("block", .string "0x2"), ("tx", .string "0xa")]),
        ("inputs", .array (inputs.map .string)),
        ("incomingAlkanes", .array [alkaneEntry ("0x2", "0x0") 100])])])]

def repeatedSwap : TxInput where
  transactionId := "aa"
  transactionIndex := 0
  timestamp := 0
  transactionJson := .object []
  events := eventsOfTrace 3 [
    swapTrace ["0x3", "0x5a"], returnTrace [alkaneEntry ("0x20", "0x0") 95],
    swapTrace ["0x3"], returnTrace [alkaneEntry ("0x20", "0x0") 90]]

def onePool : TokenMap := fun pool =>
  if pool = ("2", "10") then some (("2", "0"), ("32", "0")) else none

theorem repeatedSwap_properlyNested :
    ProperlyNested repeatedSwap.events :=
  properlyNested_of_vout (some 3) (by decide) (by decide)

def repeatedCredit (i : Fin 4) (hi : i = 0 ∨ i = 2) :
    SwapCredit onePool (fun _ _ => []) 5 repeatedSwap where
  i := i
  event := repeatedSwap.events[i]
  tokens := (("2", "0"), ("32", "0"))
  row := rowOf (fun _ _ => []) 5 repeatedSwap (("2", "0"), ("32", "0")) repeatedSwap.events[i]
    (some repeatedSwap.events[3])
  ret := (repeatedSwap.events[3], 3)
  event_at := by revert i; decide
  tokens_eq := by revert i; decide
  row_at := by revert i; decide
  successful := by revert i; decide
  credited := by revert i; decide

theorem repeatedSwap_credited_twice :
    ProperlyNested repeatedSwap.events ∧
      ¬ ∀ tokenMap decoded height input, ProperlyNested input.events →
        NoDoubleCredit tokenMap decoded height input := by
  refine ⟨repeatedSwap_properlyNested, fun hall => ?_⟩
  have hsingle := hall onePool (fun _ _ => []) 5 repeatedSwap repeatedSwap_properlyNested
  exact hsingle (repeatedCredit 0 (.inl rfl)) (repeatedCredit 2 (.inr rfl)) (by decide) rfl

theorem repeatedSwap_shares :
    SharesReturn (repeatedCredit 0 (.inl rfl)) (repeatedCredit 2 (.inr rfl)) :=
  (shared_return_iff (repeatedCredit 0 (.inl rfl)) (repeatedCredit 2 (.inr rfl)) (by decide)).mp rfl

end AlkanesIndexer.PoolSwap
