import AlkanesIndexer.Protostone
import AlkanesIndexer.TraceCalls

/-!
# Fetching the hex of a transaction

A transaction without its hex is asked for twice at Esplora, and, if that gives no hex,
three times at the Bitcoin node.  The loops are those of `tx_from_json_or_fetch_hex`, with
their pauses and their last error; what they come to is what the decoder takes for the
answer of the node.
-/

namespace AlkanesIndexer

open BoundedRetry

namespace HexFetch

/-- The answers to each request, by the number of requests made before it. -/
structure HexProvider where
  getTxHex : String → ℕ → Except CallFailure String
  getTransactionHex : String → ℕ → Except CallFailure String

/-- Where a loop has come to: the hex, if there is one, the last error, the requests made,
and the milliseconds slept. -/
structure LoopEnd where
  hex : Option String
  lastErr : Option String
  calls : ℕ
  sleptMs : ℕ
  deriving DecidableEq, Repr

/-- `attempt` counts the requests made before the pass. -/
def hexLoop
    (limit : ℕ)
    (answers : ℕ → Except CallFailure String)
    (attempt sleptMs : ℕ)
    (lastErr : Option String) : LoopEnd :=
  match answers attempt with
  | .ok hex => ⟨some hex, lastErr, attempt + 1, sleptMs⟩
  | .error failure =>
      if attempt + 1 ≥ limit then ⟨none, some failure.message, attempt + 1, sleptMs⟩
      else
        hexLoop limit answers (attempt + 1) (sleptMs + 200 * (attempt + 1)) (some failure.message)
termination_by limit - attempt

def getTxHexLoop (provider : HexProvider) (txid : String) : LoopEnd :=
  hexLoop 2 (provider.getTxHex txid) 0 0 none

def getTransactionHexLoop
    (provider : HexProvider)
    (txid : String)
    (lastErr : Option String) : LoopEnd :=
  hexLoop 3 (provider.getTransactionHex txid) 0 0 lastErr

/-- The transaction, or the messages along the chain of the error, outermost first. -/
structure FetchReport where
  result : Except (List String) BitcoinTx
  txHexCalls : ℕ
  transactionHexCalls : ℕ
  sleptMs : ℕ

def decodeHex (rpc : Rpc) (hex : String) : Except (List String) BitcoinTx :=
  (rpc.deserializeTx hex).mapError fun error => [error]

def txFromJsonOrFetchHex (rpc : Rpc) (provider : HexProvider) (txJson : JsonValue) : FetchReport :=
  match txJson.strAt ["hex"] with
  | some hex => ⟨decodeHex rpc hex, 0, 0, 0⟩
  | none =>
      match txJson.strAt ["txid"] with
      | none => ⟨.error ["txid missing in tx json"], 0, 0, 0⟩
      | some txid =>
          let first := getTxHexLoop provider txid
          let hex := first.hex.getD ""
          if hex ≠ "" then ⟨decodeHex rpc hex, first.calls, 0, first.sleptMs⟩
          else
            let second := getTransactionHexLoop provider txid first.lastErr
            ⟨match second.hex with
              | some hex => decodeHex rpc hex
              | none => .error ["get_transaction_hex call failed",
                  second.lastErr.getD "get_transaction_hex failed"],
              first.calls, second.calls, first.sleptMs + second.sleptMs⟩

/-- The first hex among the first answers. -/
def firstHex (limit : ℕ) (answers : ℕ → Except CallFailure String) : Option String :=
  (List.range limit).findSome? fun attempt => (answers attempt).toOption

/-- The node as the decoder sees it behind the loops. -/
def servedBy (rpc : Rpc) (provider : HexProvider) : Rpc := { rpc with
  txHex := fun txid => firstHex 2 (provider.getTxHex txid)
  transactionHex := fun txid =>
    match firstHex 3 (provider.getTransactionHex txid) with
    | some hex => .ok hex
    | none => .error "get_transaction_hex call failed" }

/-! ## A loop is a bounded retry -/

section Loop

variable
  {limit : ℕ}
  {answers : ℕ → Except CallFailure String}
  {lastErr : Option String}

def hexOf : Ending String CallFailure → Option String
  | .answered hex => some hex
  | .refused _ | .exhausted _ => none

variable (limit answers) in
/-- The loop with the pauses that its earlier passes have made. -/
theorem hexLoop_eq_attemptsFrom
    (left attempt : ℕ)
    (hleft : left = limit - 1 - attempt)
    (lastErr : Option String) :
    let loop := hexLoop limit answers attempt (100 * attempt * (attempt + 1)) lastErr
    let ending := attemptsFrom (fun _ => false) answers left attempt
    loop.hex = hexOf ending.1 ∧ loop.calls = ending.2 ∧
      loop.sleptMs = 100 * (ending.2 - 1) * ending.2 ∧
      ∀ failure, ending.1 = .exhausted failure → loop.lastErr = some failure.message := by
  induction left generalizing attempt lastErr with
  | zero =>
      have hlimit : attempt + 1 ≥ limit := by omega
      rw [hexLoop, attemptsFrom]
      cases answers attempt with
      | ok hex => exact ⟨rfl, rfl, rfl, fun _ hfailure => by cases hfailure⟩
      | error failure =>
          simp only [Bool.false_eq_true, if_false, if_pos hlimit]
          refine ⟨rfl, trivial, rfl, fun failure' hfailure => ?_⟩
          cases hfailure
          rfl
  | succ left ih =>
      have hlimit : ¬ attempt + 1 ≥ limit := by omega
      rw [hexLoop, attemptsFrom]
      cases answers attempt with
      | ok hex => exact ⟨rfl, rfl, rfl, fun _ hfailure => by cases hfailure⟩
      | error failure =>
          have hslept : 100 * attempt * (attempt + 1) + 200 * (attempt + 1) =
              100 * (attempt + 1) * (attempt + 1 + 1) := by ring
          simp only [Bool.false_eq_true, if_false, if_neg hlimit, hslept]
          exact ih (attempt + 1) (by omega) (some failure.message)

variable (answers) in
theorem firstHex_eq_attempts
    (hlimit : 0 < limit) :
    firstHex limit answers = hexOf (attempts (fun _ => false) answers limit).1 := by
  have hearlier : ∀ attempt, Retriable (fun _ => false) answers attempt →
      (answers attempt).toOption = none := by
    rintro attempt ⟨failure, hfailure, _⟩
    rw [hfailure]
    rfl
  have hcases := attemptsFrom_cases (fun _ => false) answers (limit - 1) 0
  simp only [Nat.zero_add] at hcases
  unfold attempts firstHex
  rcases hcases with ⟨last, hex, hle, hanswer, hall, heq⟩ | ⟨last, failure, _, _, hfinal, _, _⟩ |
    ⟨failure, hfailure, hall, heq⟩
  · rw [heq, hexOf, List.findSome?_eq_some_iff]
    refine ⟨List.range last, last, List.range' (last + 1) (limit - 1 - last), ?_, ?_, ?_⟩
    · rw [List.range_eq_range', List.range_eq_range', ← List.range'_succ,
        show limit = last + (limit - 1 - last + 1) by omega, ← List.range'_append_1]
      simp
    · rw [hanswer]
      rfl
    · exact fun attempt hlt => hearlier attempt (hall attempt (List.mem_range.mp hlt))
  · cases hfinal
  · rw [heq, hexOf, List.findSome?_eq_none_iff]
    exact fun attempt hlt =>
      hearlier attempt (hall attempt (Nat.le_sub_one_of_lt (List.mem_range.mp hlt)))

variable (answers) in
/-- What the whole loop comes to. -/
theorem hexLoop_spec
    (hlimit : 0 < limit)
    (lastErr : Option String) :
    let loop := hexLoop limit answers 0 0 lastErr
    loop.hex = firstHex limit answers ∧ 0 < loop.calls ∧ loop.calls ≤ limit ∧
      loop.sleptMs ≤ 100 * (limit - 1) * limit ∧
      ∀ failure, firstHex limit answers = none → answers (limit - 1) = .error failure →
        loop.lastErr = some failure.message := by
  obtain ⟨hhex, hcalls, hslept, hlast⟩ :=
    hexLoop_eq_attemptsFrom limit answers (limit - 1) 0 rfl lastErr
  have hfirst := firstHex_eq_attempts answers hlimit
  have hcases := attemptsFrom_cases (fun _ => false) answers (limit - 1) 0
  unfold attempts at hfirst
  simp only [Nat.zero_add, mul_zero, zero_mul] at hhex hcalls hslept hlast hcases
  dsimp only
  have hmade : (attemptsFrom (fun _ => false) answers (limit - 1) 0).2 ≤ limit := by
    have hle := attempts_calls_le (fun _ => false) answers limit
    rwa [max_eq_right hlimit] at hle
  refine ⟨hhex.trans hfirst.symm, ?_, hcalls.trans_le hmade, ?_, fun failure hnone hfailure => ?_⟩
  · rcases hcases with ⟨_, _, _, _, _, heq⟩ | ⟨_, _, _, _, hfinal, _, _⟩ | ⟨_, _, _, heq⟩
    · rw [hcalls, heq]
      exact Nat.succ_pos _
    · cases hfinal
    · rw [hcalls, heq]
      exact Nat.succ_pos _
  · rw [hslept]
    exact Nat.mul_le_mul (Nat.mul_le_mul le_rfl (Nat.sub_le_sub_right hmade 1)) hmade
  · rcases hcases with ⟨_, _, _, _, _, heq⟩ | ⟨_, _, _, _, hfinal, _, _⟩ |
      ⟨failure', hfailure', _, heq⟩
    · rw [hfirst, heq] at hnone
      cases hnone
    · cases hfinal
    · cases hfailure.symm.trans hfailure'
      exact hlast failure (congrArg Prod.fst heq)

end Loop

/-! ## What a fetch comes to -/

/-- The fetch is that of the decoder with the node behind the loops; it makes at most two
requests of one kind and three of the other, of which the Bitcoin node gets none as long
as Esplora has a hex, and sleeps for less than a second. -/
theorem fetch_refines
    (rpc : Rpc)
    (provider : HexProvider)
    (txJson : JsonValue) :
    let report := txFromJsonOrFetchHex rpc provider txJson
    (report.result.mapError fun chain => chain.headD "") =
        AlkanesIndexer.txFromJsonOrFetchHex (servedBy rpc provider) txJson ∧
      report.txHexCalls ≤ 2 ∧ report.transactionHexCalls ≤ 3 ∧ report.sleptMs ≤ 800 ∧
      (0 < report.transactionHexCalls ↔ txJson.strAt ["hex"] = none ∧
        ∃ txid, txJson.strAt ["txid"] = some txid ∧
          (firstHex 2 (provider.getTxHex txid)).getD "" = "") := by
  have hdecode : ∀ hex, ((decodeHex rpc hex).mapError fun chain => chain.headD "") =
      rpc.deserializeTx hex := by
    intro hex
    unfold decodeHex
    cases rpc.deserializeTx hex <;> rfl
  unfold txFromJsonOrFetchHex AlkanesIndexer.txFromJsonOrFetchHex
  cases hhex : txJson.strAt ["hex"] with
  | some hex => exact ⟨hdecode hex, by simp⟩
  | none =>
      cases htxid : txJson.strAt ["txid"] with
      | none => exact ⟨rfl, by simp⟩
      | some txid =>
          obtain ⟨hfirst, _, hcalls, hslept, _⟩ :=
            hexLoop_spec (provider.getTxHex txid) (Nat.zero_lt_succ 1) none
          rw [← getTxHexLoop] at hfirst hcalls hslept
          simp only [hfirst, servedBy]
          by_cases hempty : (firstHex 2 (provider.getTxHex txid)).getD "" = ""
          · obtain ⟨hsecond, hpos, hcalls', hslept', _⟩ :=
              hexLoop_spec (provider.getTransactionHex txid) (Nat.zero_lt_succ 2)
                (getTxHexLoop provider txid).lastErr
            rw [← getTransactionHexLoop] at hsecond hpos hcalls' hslept'
            simp only [hempty, ne_eq, not_true_eq_false, if_false, hsecond]
            refine ⟨?_, hcalls, hcalls', by omega, ?_, fun _ => hpos⟩
            · cases firstHex 3 (provider.getTransactionHex txid) with
              | some hex => exact hdecode hex
              | none => rfl
            · exact fun _ => ⟨trivial, txid, rfl, hempty⟩
          · simp only [ne_eq, hempty, not_false_eq_true, if_true]
            refine ⟨hdecode _, hcalls, Nat.zero_le 3, by omega, nofun, ?_⟩
            rintro ⟨_, txid', htxid', hempty'⟩
            cases htxid'
            exact absurd hempty' hempty

/-- A fetch that gets no hex from anyone keeps the last failure behind its own message. -/
theorem fetch_gives_up
    (rpc : Rpc)
    (provider : HexProvider)
    {txJson : JsonValue}
    {txid : String}
    {failure : CallFailure}
    (hhex : txJson.strAt ["hex"] = none)
    (htxid : txJson.strAt ["txid"] = some txid)
    (hempty : (firstHex 2 (provider.getTxHex txid)).getD "" = "")
    (hnone : firstHex 3 (provider.getTransactionHex txid) = none)
    (hlast : provider.getTransactionHex txid 2 = .error failure) :
    (txFromJsonOrFetchHex rpc provider txJson).result =
      .error ["get_transaction_hex call failed", failure.message] := by
  have hfirst := (hexLoop_spec (provider.getTxHex txid) (Nat.zero_lt_succ 1) none).1
  obtain ⟨hsecond, _, _, _, hfailure⟩ := hexLoop_spec (provider.getTransactionHex txid)
    (Nat.zero_lt_succ 2) (getTxHexLoop provider txid).lastErr
  rw [← getTxHexLoop] at hfirst
  rw [← getTransactionHexLoop] at hsecond hfailure
  unfold txFromJsonOrFetchHex
  simp only [hhex, htxid, hfirst, hempty, ne_eq, not_true_eq_false, if_false, hsecond, hnone,
    hfailure failure hnone hlast, Option.getD_some]

end HexFetch

end AlkanesIndexer
