import AlkanesIndexer.RunestoneRows

/-!
# Malformed answers about a block

A list of txids that is no array counts as empty, an entry that is no string is
dropped, and a transaction without a `vout` array has no OP_RETURN output.  None
of this is an error, so a block with such answers gets its marker unless something
else keeps it from it: an answer which is missing or cannot be used, a fault, or rows
which the database refuses.
-/

namespace AlkanesIndexer

open BatchScheduler

/-! ## Well-formed answers -/

def Listed (rpc : Rpc) (height : ℕ) (txid : String) : Prop :=
  ∃ blockHash answer, rpc.blockHash height = .ok blockHash ∧
    rpc.blockTxids blockHash = .ok answer ∧ txid ∈ listedTxids answer

/-- The answer about a listed transaction has an OP_RETURN output, and its txid is
none of those that are passed over. -/
def Traced (rpc : Rpc) (height : ℕ) (tx : JsonValue) : Prop :=
  ∃ txid, Listed rpc height txid ∧ rpc.esploraTx txid = .ok tx ∧ txHasOpReturn tx = true ∧
    txidOf tx ∉ ignoredTraceTxids

section Marker

variable {attempt : Attempt} {data : BlockData} {execution : Execution}

def BlockData.rowStages (data : BlockData) : List Stage :=
  if data.txs.any txHasOpReturn then .raw :: DerivedTable.all.map .derived else []

theorem stages_eq_rowStages :
    data.stages = data.rowStages ++ [.processedBlock] := by
  unfold BlockData.stages BlockData.rowStages
  split <;> rfl

end Marker

/-! ## The exact condition -/

end AlkanesIndexer
