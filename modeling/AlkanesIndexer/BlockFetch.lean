import AlkanesIndexer.BatchScheduler
import AlkanesIndexer.JsonValue
import AlkanesIndexer.Sequences

/-!
# Fetching a block

The calls the indexer makes to its node are the fields of `Rpc`: each is what
the call answers after its retries.  Transactions are decoded by a library, so a
decoded transaction is only what the indexer reads off it.
-/

namespace AlkanesIndexer

open BatchScheduler

/-- `bitcoin::Transaction`, read through `output.len()` and `compute_txid()`. -/
structure BitcoinTx where
  txid : String
  outputs : ℕ
  deriving DecidableEq, Repr

/-- The answers of the node and of the decoding libraries.  A failed trace is the
list of the messages along the chain of its error, outermost first. -/
structure Rpc where
  blockHash : ℕ → Except String String
  blockTxids : String → Except String JsonValue
  esploraTx : String → Except String JsonValue
  txHex : String → Option String
  transactionHex : String → Except String String
  deserializeTx : String → Except String BitcoinTx
  /-- `none` where the formatter answers an error or panics -/
  formatRunestone : BitcoinTx → Option JsonValue
  alkanesTrace : String → ℕ → Except (List String) JsonValue
  /-- the exit statuses of the first call, where the trace parses -/
  parseTrace : JsonValue → Option (List String)
  timestampOpt : ℤ → Option ℤ
  now : ℤ

/-! ## Text tests -/

def startsWith (text mark : String) : Bool := mark.toList.isPrefixOf text.toList

def containsText (text part : String) : Bool := decide (part.toList <:+: text.toList)

def toAsciiLowercase (text : String) : String := String.ofList (text.toList.map Char.toLower)

/-! ## Blocks and transactions -/

/-- From the answer of `get_metashrew_height`. -/
def canonicalTipHeight (metashrewHeight : Except String ℕ) : Except String ℕ :=
  match metashrewHeight with
  | .error error => .error error
  | .ok 0 => .error "unexpected metashrew height 0"
  | .ok height => .ok height

/-- Entries that are no strings are dropped, and so is an answer that is no
array. -/
def getBlockTxids (rpc : Rpc) (blockHash : String) : Except String (List String) :=
  (rpc.blockTxids blockHash).map fun answer =>
    (answer.asArray.map fun items => items.filterMap JsonValue.asStr).getD []

def esploraFailure (failed : List String) : String :=
  "esplora_tx failed for " ++ toString failed.length ++ " txids (sample: " ++
    ", ".intercalate (failed.take 5) ++ ")"

def failedTxids (completed : List (String × Except String JsonValue)) : List String :=
  completed.filterMap fun request =>
    match request.2 with
    | .ok _ => none
    | .error _ => some request.1

def fetchedTxs (completed : List (String × Except String JsonValue)) : List JsonValue :=
  completed.filterMap fun request => request.2.toOption

/-- `get_transactions_info`: at most `batchSize` requests are in flight, and the
answers come in the order in which the requests complete. -/
def getTransactionsInfo
    (rpc : Rpc)
    (picks : List ℕ)
    (txids : List String)
    (batchSize : ℕ) : Except String (List JsonValue) :=
  let completed := bufferUnordered batchSize picks
    (txids.map fun txid => (txid, rpc.esploraTx txid))
  match failedTxids completed with
  | [] => .ok (fetchedTxs completed)
  | failed => .error (esploraFailure failed)

def outputIsOpReturn (output : JsonValue) : Bool :=
  (output.strAt ["scriptpubkey_type"]).any (fun kind => toAsciiLowercase kind = "op_return") ||
    (output.strAt ["scriptpubkey_asm"]).any (fun asm => startsWith asm "OP_RETURN") ||
    (output.strAt ["scriptpubkey"]).any (fun script => startsWith script "6a")

def txHasOpReturn (tx : JsonValue) : Bool := (tx.arrayAt ["vout"]).any outputIsOpReturn

/-- A completed request of a run without failures is the fetched transaction. -/
theorem fetchedTxs_perm
    {rpc : Rpc}
    {picks : List ℕ}
    {txids : List String}
    {batchSize : ℕ}
    {txs : List JsonValue}
    (hfetch : getTransactionsInfo rpc picks txids batchSize = .ok txs) :
    txs.Perm (txids.filterMap fun txid => (rpc.esploraTx txid).toOption) := by
  unfold getTransactionsInfo at hfetch
  dsimp only at hfetch
  split at hfetch
  · simp only [Except.ok.injEq] at hfetch
    rw [← hfetch, fetchedTxs]
    refine ((bufferUnordered_perm batchSize picks _).filterMap _).trans ?_
    rw [List.filterMap_map]
    exact List.Perm.refl _
  · cases hfetch

end AlkanesIndexer
