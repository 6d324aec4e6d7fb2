import AlkanesIndexer.CompletionOrders
import AlkanesIndexer.ResultOrder

/-!
# The indices that a block can get

The node and the runtime decide in which order the transactions of a block are collected,
and so which index each of them is stored with.  The orders that can come about are
exactly these: the requests complete so that none overtakes 25 others, and the chunks that
the traced transactions are cut into are merged in any way.
-/

namespace AlkanesIndexer

open BatchScheduler Sequences

/-- Positions of the block in an order in which their results can be collected. -/
def PossibleOrder (rpc : Rpc) (txids : List String) (order : List ℕ) : Prop :=
  ∃ fetched : List ℕ, fetched.Perm (List.range txids.length) ∧ OvertakesFewer 25 fetched ∧
    Interleaving ((traceBatches (fetched.filter (tracedAt rpc txids))).map
      (List.filter (indexedAt rpc txids))) order

theorem collectionOrder_iff
    {rpc : Rpc}
    {txids : List String}
    {order : List ℕ} :
    (∃ schedule, collectionOrder rpc txids schedule = order) ↔
      PossibleOrder rpc txids order := by
  have hfetched : ∀ fetched, (∃ picks, bufferUnordered 25 picks (List.range txids.length) =
      fetched) ↔ fetched.Perm (List.range txids.length) ∧ OvertakesFewer 25 fetched :=
    fun fetched => exists_picks_iff (by decide) List.pairwise_lt_range
  constructor
  · rintro ⟨schedule, rfl⟩
    obtain ⟨hperm, hfewer⟩ := (hfetched _).mp ⟨schedule.picks, rfl⟩
    exact ⟨_, hperm, hfewer, exists_schedule_iff.mp ⟨schedule.turns, rfl⟩⟩
  · rintro ⟨fetched, hperm, hfewer, hinterleaving⟩
    obtain ⟨picks, rfl⟩ := (hfetched fetched).mpr ⟨hperm, hfewer⟩
    obtain ⟨turns, rfl⟩ := exists_schedule_iff.mpr hinterleaving
    exact ⟨⟨picks, turns⟩, rfl⟩

section Fetch

variable
  {rpc : Rpc}
  {schedule : Schedule}
  {height : ℕ}
  {data : BlockData}
  {txids : List String}

theorem exists_getTransactionsInfo
    {picks : List ℕ}
    {txs : List JsonValue}
    (hfetch : getTransactionsInfo rpc picks txids 25 = .ok txs)
    (picks' : List ℕ) :
    ∃ txs', getTransactionsInfo rpc picks' txids 25 = .ok txs' := by
  have hanswers := (txs_eq_of_getTransactionsInfo hfetch).2
  have hnone : failedTxids (bufferUnordered 25 picks'
      (txids.map fun txid => (txid, rpc.esploraTx txid))) = [] := by
    rw [failedTxids, List.filterMap_eq_nil_iff]
    intro request hrequest
    obtain ⟨txid, htxid, rfl⟩ :=
      List.mem_map.mp ((bufferUnordered_perm 25 picks' _).mem_iff.mp hrequest)
    obtain ⟨i, hi, rfl⟩ := List.getElem_of_mem htxid
    have hanswer := hanswers i hi
    rw [List.getElem?_eq_getElem hi, Option.getD_some] at hanswer
    simp only [hanswer]
  unfold getTransactionsInfo
  simp only [hnone]
  exact ⟨_, rfl⟩

theorem exists_decodeAndTraceForBlock
    {txs txs' : List JsonValue}
    {turns : List ℕ}
    {results : List TxDecodeTraceResult}
    (hdecode : runBatches (decodeAndTrace rpc) turns (traceBatches (tracedTxs txs)) = .ok results)
    (hperm : txs'.Perm txs)
    (turns' : List ℕ) :
    ∃ results', decodeAndTraceForBlock rpc turns' (txs'.filter txHasOpReturn) = .ok results' := by
  have hfine := (runBatches_isOk_iff turns _).mp ⟨results, hdecode⟩
  have htraced : (tracedTxs (txs'.filter txHasOpReturn)).Perm (tracedTxs txs) := by
    simp only [tracedTxs, List.filter_filter, Bool.and_self]
    exact hperm.filter _
  have hrun : ∃ results', runBatches (decodeAndTrace rpc) turns'
      (traceBatches (tracedTxs (txs'.filter txHasOpReturn))) = .ok results' := by
    rw [runBatches_isOk_iff]
    intro job hjob
    refine hfine job ?_
    rw [traceBatches, flatten_chunks] at hjob ⊢
    exact htraced.mem_iff.mp hjob
  unfold decodeAndTraceForBlock
  cases hempty : tracedTxs (txs'.filter txHasOpReturn) with
  | nil => exact ⟨[], rfl⟩
  | cons tx rest =>
      rw [hempty] at hrun
      exact hrun

/-- Whether a block can be fetched does not depend on the schedule. -/
theorem exists_fetchBlock
    (hfetch : fetchBlock rpc schedule height = .ok data)
    (schedule' : Schedule) :
    ∃ data', fetchBlock rpc schedule' height = .ok data' := by
  obtain ⟨hhash, txids, htxids, htxs⟩ := answers_of_fetchBlock hfetch
  obtain ⟨txs', htxs'⟩ := exists_getTransactionsInfo htxs schedule'.picks
  have hperm : txs'.Perm data.txs := (fetchedTxs_perm htxs').trans (fetchedTxs_perm htxs).symm
  obtain ⟨results', hresults'⟩ :=
    exists_decodeAndTraceForBlock (decodeAndTrace_of_fetchBlock hfetch) hperm schedule'.turns
  unfold fetchBlock
  simp only [hhash, htxids, htxs', hresults', Except.map]
  split
  · exact ⟨_, rfl⟩
  · exact ⟨_, rfl⟩

theorem txids_eq_of_fetchBlock
    (hfetch : fetchBlock rpc schedule height = .ok data)
    (htxids : getBlockTxids rpc data.blockHash = .ok txids)
    (hidentifies : rpc.Identifies txids) :
    data.txids = (collectionOrder rpc txids schedule).map fun i => txids[i]?.getD "" := by
  rw [BlockData.txids, results_eq_of_fetchBlock hfetch htxids, List.map_filterMap,
    ← List.filterMap_eq_map]
  apply List.filterMap_congr
  intro i hi
  obtain ⟨hlt, hindexed⟩ := of_mem_collectionOrder rpc txids hi
  obtain ⟨result, hproduced⟩ := Option.isSome_iff_exists.mp hindexed
  have hanswer := esploraTx_of_fetchBlock hfetch htxids hlt
  rw [hproduced, Option.map_some, transactionId_of_produced hidentifies hanswer hproduced]
  rfl

end Fetch

/-- A block that can be fetched can be fetched under every schedule, and these are the orders
in which its transactions can be stored. -/
theorem possibleOrders_iff
    {rpc : Rpc}
    {height : ℕ}
    {blockHash : String}
    {txids : List String}
    (hhash : rpc.blockHash height = .ok blockHash)
    (htxids : getBlockTxids rpc blockHash = .ok txids)
    (hidentifies : rpc.Identifies txids)
    (hfetches : ∃ schedule data, fetchBlock rpc schedule height = .ok data) :
    (∀ schedule, ∃ data, fetchBlock rpc schedule height = .ok data) ∧
      ∀ stored, (∃ schedule data, fetchBlock rpc schedule height = .ok data ∧
          data.txids = stored) ↔
        ∃ order, PossibleOrder rpc txids order ∧
          stored = order.map fun i => txids[i]?.getD "" := by
  have hlisted : ∀ {schedule : Schedule} {data : BlockData},
      fetchBlock rpc schedule height = .ok data →
        getBlockTxids rpc data.blockHash = .ok txids := by
    intro schedule data hfetch
    have hsame := (answers_of_fetchBlock hfetch).1
    rw [hhash] at hsame
    rwa [← Except.ok.inj hsame]
  obtain ⟨schedule', data', hfetch'⟩ := hfetches
  refine ⟨exists_fetchBlock hfetch', fun stored => ⟨?_, ?_⟩⟩
  · rintro ⟨schedule, data, hfetch, rfl⟩
    exact ⟨_, collectionOrder_iff.mp ⟨schedule, rfl⟩,
      txids_eq_of_fetchBlock hfetch (hlisted hfetch) hidentifies⟩
  · rintro ⟨order, hpossible, rfl⟩
    obtain ⟨schedule, rfl⟩ := collectionOrder_iff.mpr hpossible
    obtain ⟨data, hfetch⟩ := exists_fetchBlock hfetch' schedule
    exact ⟨schedule, data, hfetch, txids_eq_of_fetchBlock hfetch (hlisted hfetch) hidentifies⟩

set_option maxRecDepth 4000 in
/-- The second of two transactions can be stored first. -/
theorem pairRpc_possibleOrders :
    (∀ schedule, ∃ data, fetchBlock pairRpc schedule 5 = .ok data) ∧
      ∃ order, PossibleOrder pairRpc ["a1", "a2"] order ∧
        ["a2", "a1"] = order.map fun i => ["a1", "a2"][i]?.getD "" := by
  have hmap : (fetchBlock pairRpc ⟨[1], []⟩ 5).toOption.map BlockData.txids =
      some ["a2", "a1"] := by decide
  cases hfetch : fetchBlock pairRpc ⟨[1], []⟩ 5 with
  | error error =>
      rw [hfetch] at hmap
      cases hmap
  | ok data =>
      rw [hfetch] at hmap
      have hhash : pairRpc.blockHash 5 = .ok "pair" := rfl
      have htxids : getBlockTxids pairRpc "pair" = .ok ["a1", "a2"] := rfl
      have hidentifies : pairRpc.Identifies ["a1", "a2"] := serving_identifies (by decide)
      obtain ⟨hall, horders⟩ :=
        possibleOrders_iff hhash htxids hidentifies ⟨_, data, hfetch⟩
      exact ⟨hall, (horders _).mp ⟨_, data, hfetch, Option.some.inj hmap⟩⟩

end AlkanesIndexer
