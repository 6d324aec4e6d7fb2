import AlkanesIndexer.BlockFetch
import AlkanesIndexer.TokenAmounts

/-!
# Decoding and tracing a block

`decode_and_trace_for_block` splits the OP_RETURN transactions of a block into
at most ten batches and works on them concurrently.  A transaction that cannot
be materialised and a trace that fails for an unknown reason fail the whole
block; a runestone that does not decode drops its transaction, and a trace which
fails with the known upstream error drops the trace only.
-/

namespace AlkanesIndexer

open BatchScheduler Sequences

structure DecodedProtostoneItem where
  vout : ℤ
  protostoneIndex : ℕ
  decoded : JsonValue
  deriving DecidableEq, Repr

structure TraceEventItem where
  vout : ℤ
  eventType : String
  data : JsonValue
  alkaneAddressBlock : String
  alkaneAddressTx : String
  deriving DecidableEq, Repr

structure TxDecodeTraceResult where
  transactionId : String
  transactionJson : JsonValue
  decodedProtostones : List DecodedProtostoneItem
  traceEvents : List TraceEventItem
  hasTrace : Bool
  traceSucceed : Bool
  deriving DecidableEq, Repr

def ignoredTraceTxids : List String := [
  "a807e8d4e91a6fa957c3f9929d267f6795971e41e6da61c44886deaa45797830",
  "33c5a9f2d415b2b826a2ea1230d1849be0a74dc73857460c9c7674fe76147830",
  "79c202e94c425320c91d6176108b93c033fb5a627fc2750453e97c6c434e7830",
  "12a6c6f41a722e75d48caf57ed7a22feb56686c2ba51e226e6b6033ef3357830",
  "6ee9eda5df0814af442f75db1d553f951f04699b854b9e0cff6d1395c2bdf075",
  "c4c00e467ec76aa228a737156488b74dc27a998cf3056655612dbd3eeb5e6fb0",
  "9d258d9e805ca9252101d5839aee46d63fbda8786e3f80988f5b10ce35aa060e",
  "83d0deb1d223c932e0ff4306c0f408d17dbd520bd1dfb9e8d5823b711be77830",
  "b19dd4c02942b0c2f19c5f11e9e4b1211051a779ff4bb8e84b02f37a2f415f6d"]

/-- The text of `txid`, by default an empty one. -/
def txidOf (tx : JsonValue) : String := (tx.strAt ["txid"]).getD ""

/-! ## Materialising a transaction -/

def reversePairs : List Char → List Char → Option (List Char)
  | [], reversed => some reversed
  | [_], _ => none
  | high :: low :: rest, reversed =>
      if (toDigit 16 high).isSome && (toDigit 16 low).isSome then
        reversePairs rest (high.toLower :: low.toLower :: reversed)
      else none

/-- The bytes of a hex string in reverse; a string that is no hex stays as it
is. -/
def toLittleEndianHex (txid : String) : String :=
  match reversePairs txid.toList [] with
  | some reversed => String.ofList reversed
  | none => txid

def txFromJsonOrFetchHex (rpc : Rpc) (txJson : JsonValue) : Except String BitcoinTx :=
  match txJson.strAt ["hex"] with
  | some hex => rpc.deserializeTx hex
  | none =>
      match txJson.strAt ["txid"] with
      | none => .error "txid missing in tx json"
      | some txid =>
          let hex := (rpc.txHex txid).getD ""
          if hex ≠ "" then rpc.deserializeTx hex
          else (rpc.transactionHex txid).bind rpc.deserializeTx

/-! ## Reading a trace -/

def statusSucceeds (status : String) : Bool :=
  containsText (toAsciiLowercase status) "ok" || containsText (toAsciiLowercase status) "success"

/-- Success is read off the structured trace where it parses, else off the
return events of the raw array. -/
def traceOk (rpc : Rpc) (trace : JsonValue) : Bool :=
  match rpc.parseTrace trace with
  | some exits => exits.any statusSucceeds
  | none =>
      (trace.asArray.getD []).any fun event =>
        (event.strAt ["event"]).getD "" = "return" &&
          statusSucceeds ((event.strAt ["data", "status"]).getD "")

/-- One component of `context.myself`: decimal where it decodes, raw where it
does not. -/
def addressComponent (data : JsonValue) (key : String) : String :=
  let hex := (data.strAt ["context", "myself", key]).getD ""
  if hex = "" then "" else (hexToDecU128Str hex).getD hex

def flattenEvent (vout : ℤ) (event : JsonValue) : TraceEventItem :=
  let eventType := (event.strAt ["event"]).getD "unknown"
  let data := (event.get "data").getD (.object [])
  { vout := vout
    eventType := eventType
    data := data
    alkaneAddressBlock := if eventType = "invoke" then addressComponent data "block" else ""
    alkaneAddressTx := if eventType = "invoke" then addressComponent data "tx" else "" }

/-- A trace of an unexpected shape is stored whole, as one event. -/
def flattenTrace (vout : ℤ) (trace : JsonValue) : List TraceEventItem :=
  match trace.asArray with
  | some events => events.map (flattenEvent vout)
  | none => [⟨vout, "trace", trace, "", ""⟩]

/-- The error texts of the chain, joined, name the known client error. -/
def isKnownUpstreamTypeError (combined : String) : Bool :=
  containsText (toAsciiLowercase combined) "non-standard error object received" &&
    containsText (toAsciiLowercase combined) "cannot read properties of undefined"

/-! ## One transaction -/

/-- The state of the loop over the protostones of one transaction. -/
structure TraceProgress where
  traceEvents : List TraceEventItem
  hasTrace : Bool
  traceSucceed : Bool
  deriving DecidableEq, Repr

def traceProtostone
    (rpc : Rpc)
    (txid : String)
    (start : ℕ)
    (progress : TraceProgress)
    (protostoneIndex : ℕ) : Except String TraceProgress :=
  let vout := start + protostoneIndex
  match rpc.alkanesTrace (toLittleEndianHex txid) vout with
  | .ok trace => .ok {
      traceEvents := progress.traceEvents ++ flattenTrace (asI32 vout) trace
      hasTrace := true
      traceSucceed := progress.traceSucceed || traceOk rpc trace }
  | .error chain =>
      let combined := " | ".intercalate chain
      if isKnownUpstreamTypeError combined then .ok progress
      else .error ("trace failed for " ++ txid ++ " vout " ++ toString vout ++ ": " ++ combined)

def traceProtostones
    (rpc : Rpc)
    (txid : String)
    (start : ℕ) : List ℕ → TraceProgress → Except String TraceProgress
  | [], progress => .ok progress
  | index :: rest, progress =>
      (traceProtostone rpc txid start progress index).bind
        (traceProtostones rpc txid start rest)

/-- The work on one transaction between two looks at the fatal flag: an error is
fatal for the block, `none` skips the transaction. -/
def decodeAndTrace (rpc : Rpc) (txJson : JsonValue) :
    Except String (Option TxDecodeTraceResult) :=
  match txFromJsonOrFetchHex rpc txJson with
  | .error error =>
      .error ("materialize_tx failed for " ++ (txJson.strAt ["txid"]).getD "<no-txid>" ++
        ": " ++ error)
  | .ok tx =>
      match rpc.formatRunestone tx with
      | none => .ok none
      | some formatted =>
          let txid := (formatted.strAt ["transaction_id"]).getD tx.txid
          let start := tx.outputs + 1
          let protos := formatted.arrayAt ["protostones"]
          (traceProtostones rpc txid start (List.range protos.length)
            ⟨[], false, false⟩).map fun progress => some {
              transactionId := txid
              transactionJson := txJson
              decodedProtostones := protos.zipIdx.map fun placed =>
                ⟨asI32 (start + placed.2 : ℕ), placed.2, placed.1⟩
              traceEvents := progress.traceEvents
              hasTrace := progress.hasTrace
              traceSucceed := progress.traceSucceed }

/-! ## The block -/

def tracedTxs (txs : List JsonValue) : List JsonValue :=
  (txs.filter txHasOpReturn).filter fun tx => txidOf tx ∉ ignoredTraceTxids

/-- Up to ten batches of `ceil(total / num_batches)` transactions. -/
def traceBatches {α : Type*} (txs : List α) : List (List α) :=
  let total := txs.length
  let numBatches := min 10 total
  chunks ((total + numBatches - 1) / numBatches) txs

def decodeAndTraceForBlock
    (rpc : Rpc)
    (schedule : List ℕ)
    (txs : List JsonValue) : Except String (List TxDecodeTraceResult) :=
  match tracedTxs txs with
  | [] => .ok []
  | traced => runBatches (decodeAndTrace rpc) schedule (traceBatches traced)

def resultsInOrder (rpc : Rpc) (txs : List JsonValue) : List TxDecodeTraceResult :=
  (tracedTxs txs).filterMap (produced (decodeAndTrace rpc))

/-- Whatever the schedule, a block yields the results of its traced transactions
in some order. -/
theorem perm_of_decodeAndTraceForBlock
    {rpc : Rpc}
    {schedule : List ℕ}
    {txs : List JsonValue}
    {results : List TxDecodeTraceResult}
    (hdecode : decodeAndTraceForBlock rpc schedule txs = .ok results) :
    results.Perm (resultsInOrder rpc txs) := by
  unfold decodeAndTraceForBlock at hdecode
  unfold resultsInOrder
  cases htraced : tracedTxs txs with
  | nil =>
      simp only [htraced, Except.ok.injEq] at hdecode
      simp [← hdecode]
  | cons tx rest =>
      simp only [htraced] at hdecode
      have hperm := perm_of_runBatches_eq_ok hdecode
      rwa [traceBatches, flatten_chunks] at hperm

theorem protostoneIndex_nodup
    {rpc : Rpc}
    {tx : JsonValue}
    {result : TxDecodeTraceResult}
    (hdecode : decodeAndTrace rpc tx = .ok (some result)) :
    (result.decodedProtostones.map DecodedProtostoneItem.protostoneIndex).Nodup := by
  unfold decodeAndTrace at hdecode
  split at hdecode
  · cases hdecode
  · split at hdecode
    · cases hdecode
    · simp only [Except.map] at hdecode
      split at hdecode
      · cases hdecode
      · simp only [Except.ok.injEq, Option.some.injEq] at hdecode
        subst hdecode
        rw [List.map_map]
        change (List.map Prod.snd _).Nodup
        rw [List.zipIdx_map_snd]
        exact List.nodup_range'

end AlkanesIndexer
