import AlkanesIndexer.Pipeline
import AlkanesIndexer.ReturnSelection

/-!
# Amounts and flags of Subfrost wraps

A wrap should be successful exactly when its amount is not zero.  The search of
the decoder stops at the first return which lists a value of the token at all, and
such a value may be zero.
-/

namespace AlkanesIndexer.Subfrost

open Sequences

/-- What a return pays of the token, before saturation. -/
def paid (ret : JsonValue) : ℕ := (subfrostValues (responseAlkanes ret)).sum

theorem subfrostTotal_eq
    (ret : JsonValue) :
    subfrostTotal (responseAlkanes ret) = min (paid ret) u128Max := by
  unfold subfrostTotal paid
  rw [foldl_saturatingAdd (Nat.zero_le _), Nat.zero_add]

/-- The sorted invokes of opcode 77 on `32:0`, each with its position. -/
def wrapInvokes (events : List JsonValue) : List (PlacedEvent × ℕ) :=
  (orderedEvents events).zipIdx.filter fun placed => isSubfrostWrapInvoke placed.1.1

/-- The flag of a wrap says whether its amount is zero, and the amount is what the
first successful return with a positive total pays. -/
structure AmountMatchesFlag
    (ordered : List PlacedEvent)
    (i : ℕ)
    (invoke : JsonValue)
    (row : SubfrostRow) : Prop where
  flag : row.successful = true ↔ row.amount ≠ "0"
  amount : row.successful = true → ∃ j ret,
    FirstReturn (fun ret => statusOk ret = true ∧ 0 < paid ret) ordered i (invokeVout invoke)
      j ret ∧
    row.amount = toString (min (paid ret) u128Max)
  zero : row.successful = false → row.amount = "0"

/-- Each wrap has exactly one row, whose flag and amount match. -/
def AmountsMatchFlags
    (decoded : DecodedByTxVout)
    (height : ℕ)
    (input : TxInput) : Prop :=
  List.Forall₂
    (fun placed row => AmountMatchesFlag (orderedEvents input.events) placed.2 placed.1.1 row)
    (wrapInvokes input.events)
    (rowsOfInput isSubfrostWrapInvoke wrapReturn wrapAmount decoded height input)

/-- The first successful return which lists a value of the token, if there is one,
lists a value other than zero. -/
def FirstListsNonZero
    (ordered : List PlacedEvent)
    (i : ℕ)
    (invoke : JsonValue) : Prop :=
  ∀ j ret,
    FirstReturn (fun ret => statusOk ret = true ∧ subfrostValues (responseAlkanes ret) ≠ [])
      ordered i (invokeVout invoke) j ret →
    ∃ value ∈ subfrostValues (responseAlkanes ret), value ≠ 0

theorem toString_eq_zero_iff
    {n : ℕ} :
    toString n = "0" ↔ n = 0 := by
  constructor
  · intro heq
    have hzero : toString n = toString 0 := heq
    simpa using hzero
  · intro heq
    rw [heq]
    rfl

theorem paid_pos_iff
    {ret : JsonValue} :
    0 < paid ret ↔ ∃ value ∈ subfrostValues (responseAlkanes ret), value ≠ 0 := by
  unfold paid
  rw [Nat.pos_iff_ne_zero, ne_eq, List.sum_eq_zero_iff]
  push Not
  rfl

section Search

variable
  {ordered : List PlacedEvent}
  {i : ℕ}
  {invoke : JsonValue}

theorem wrapReturn_eq_some_iff
    {j : ℕ}
    {ret : JsonValue} :
    (∃ k, wrapReturn ordered i invoke = some ((ret, k), j)) ↔
      FirstReturn (fun ret => statusOk ret = true ∧ subfrostValues (responseAlkanes ret) ≠ [])
        ordered i (invokeVout invoke) j ret := by
  have hadmits : (fun ret => statusOk ret = true ∧ subfrostValues (responseAlkanes ret) ≠ []) =
      fun ret => (statusOk ret && carriesSubfrost ret) = true := by
    funext ret
    simp [carriesSubfrost]
  rw [hadmits]
  exact firstReturn_eq_some_iff

/-- A wrap whose search stops at a positive amount stops where it should. -/
theorem firstReturn_paid
    {j : ℕ}
    {ret : JsonValue}
    (hfirst : FirstReturn
      (fun ret => statusOk ret = true ∧ subfrostValues (responseAlkanes ret) ≠ [])
      ordered i (invokeVout invoke) j ret)
    (hpaid : 0 < paid ret) :
    FirstReturn (fun ret => statusOk ret = true ∧ 0 < paid ret) ordered i (invokeVout invoke)
      j ret := by
  refine ⟨hfirst.later, ⟨hfirst.admissible.1, hpaid⟩, fun j' ret' hlater hadmissible => ?_⟩
  have hlists : subfrostValues (responseAlkanes ret') ≠ [] := by
    intro hnone
    have hpos := hadmissible.2
    rw [paid, hnone] at hpos
    exact Nat.lt_irrefl 0 hpos
  exact hfirst.first j' ret' hlater ⟨hadmissible.1, hlists⟩

theorem amountMatchesFlag_iff
    (decoded : DecodedByTxVout)
    (height : ℕ)
    (input : TxInput) :
    AmountMatchesFlag ordered i invoke
        (subfrostRow decoded height input invoke (wrapReturn ordered i invoke) wrapAmount) ↔
      FirstListsNonZero ordered i invoke := by
  cases hsearch : wrapReturn ordered i invoke with
  | none =>
      have hnone : FirstListsNonZero ordered i invoke := by
        intro j ret hfirst
        obtain ⟨k, hfound⟩ := wrapReturn_eq_some_iff.mpr hfirst
        rw [hsearch] at hfound
        cases hfound
      refine iff_of_true ⟨?_, ?_, ?_⟩ hnone
      · simp [subfrostRow]
      · simp [subfrostRow]
      · intro _
        rfl
  | some found =>
      obtain ⟨⟨ret, k⟩, j⟩ := found
      have hfirst := wrapReturn_eq_some_iff.mp ⟨k, hsearch⟩
      have hamount : (subfrostRow decoded height input invoke (some ((ret, k), j))
          wrapAmount).amount = toString (min (paid ret) u128Max) := by
        rw [← subfrostTotal_eq]
        rfl
      have hmax : 0 < u128Max := by decide
      constructor
      · intro hmatches j' ret' hfirst'
        obtain ⟨k', hsearch'⟩ := wrapReturn_eq_some_iff.mpr hfirst'
        rw [hsearch, Option.some.injEq, Prod.mk.injEq, Prod.mk.injEq] at hsearch'
        have hne := hmatches.flag.mp rfl
        rw [hamount, ne_eq, toString_eq_zero_iff] at hne
        rw [← hsearch'.1.1, ← paid_pos_iff]
        omega
      · intro hlists
        have hpaid : 0 < paid ret := paid_pos_iff.mpr (hlists j ret hfirst)
        refine ⟨?_, ?_, ?_⟩
        · refine iff_of_true rfl ?_
          rw [hamount, ne_eq, toString_eq_zero_iff]
          omega
        · intro _
          exact ⟨j, ret, firstReturn_paid hfirst hpaid, hamount⟩
        · intro hfailed
          cases hfailed

end Search

theorem rowsOfInput_eq_map
    (decoded : DecodedByTxVout)
    (height : ℕ)
    (input : TxInput) :
    rowsOfInput isSubfrostWrapInvoke wrapReturn wrapAmount decoded height input =
      (wrapInvokes input.events).map fun placed =>
        subfrostRow decoded height input placed.1.1
          (wrapReturn (orderedEvents input.events) placed.2 placed.1.1) wrapAmount := by
  unfold rowsOfInput wrapInvokes
  rw [← List.filterMap_eq_map, List.filterMap_filter]
  rfl

/-- Flags and amounts match on a list of events exactly when no wrap stops at a
return that lists nothing but zeros. -/
theorem amountsMatchFlags_iff
    (decoded : DecodedByTxVout)
    (height : ℕ)
    (input : TxInput) :
    SortedEvents input.events (orderedEvents input.events) ∧
      (AmountsMatchFlags decoded height input ↔
        ∀ placed ∈ wrapInvokes input.events,
          FirstListsNonZero (orderedEvents input.events) placed.2 placed.1.1) := by
  refine ⟨sortedEvents_orderedEvents input.events, ?_⟩
  unfold AmountsMatchFlags
  rw [rowsOfInput_eq_map, List.forall₂_map_right_iff, List.forall₂_same]
  exact forall₂_congr fun placed _ => amountMatchesFlag_iff decoded height input

/-- A wrap whose only return lists the token with a value of zero. -/
def zeroWrap : TxInput where
  transactionId := "aa"
  transactionIndex := 0
  timestamp := 0
  transactionJson := .object []
  events := eventsOfTrace 3 [
    invokeTrace ("0x20", "0x0") "0x4d" [],
    returnTrace [alkaneEntry ("0x20", "0x0") 0]]

theorem zeroWrap_successful :
    ¬ AmountsMatchFlags (fun _ _ => []) 5 zeroWrap := by
  intro hall
  have hrows : rowsOfInput isSubfrostWrapInvoke wrapReturn wrapAmount (fun _ _ => []) 5
      zeroWrap = [⟨"aa", 5, 0, none, "0", true, 0⟩] := by
    decide
  unfold AmountsMatchFlags at hall
  rw [hrows] at hall
  cases hall with
  | cons hmatches _ => exact hmatches.flag.mp rfl rfl

end AlkanesIndexer.Subfrost
