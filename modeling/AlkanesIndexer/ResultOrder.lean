import AlkanesIndexer.PipelineEffects

/-!
# The order of the results

A transaction's index is its place in the vector of results, and two concurrent
collections stand between that vector and the block: the requests for the
transactions complete in any order, and the decode tasks push to the vector as
they get ahead.  This file computes the place of every transaction from the
schedule and says when the places follow the block.
-/

namespace AlkanesIndexer

open BatchScheduler Sequences

/-! ## Positions in the block -/

section Positions

variable (rpc : Rpc) (txids : List String)

/-- The answer to the request for the transaction at a position of the block. -/
def txAt (i : ℕ) : JsonValue := ((rpc.esploraTx (txids[i]?.getD "")).toOption).getD .null

def tracedAt (i : ℕ) : Bool :=
  txHasOpReturn (txAt rpc txids i) && decide (txidOf (txAt rpc txids i) ∉ ignoredTraceTxids)

def indexedAt (i : ℕ) : Bool := (produced (decodeAndTrace rpc) (txAt rpc txids i)).isSome

/-- The positions of the indexed transactions, in the order in which the decode
tasks push their results. -/
def collectionOrder (schedule : Schedule) : List ℕ :=
  pushOrder (indexedAt rpc txids) schedule.turns
    (traceBatches ((bufferUnordered 25 schedule.picks (List.range txids.length)).filter
      (tracedAt rpc txids)))

theorem collectionOrder_perm
    (schedule : Schedule) :
    (collectionOrder rpc txids schedule).Perm
      (((List.range txids.length).filter (tracedAt rpc txids)).filter (indexedAt rpc txids)) := by
  have hperm := pushOrder_perm (indexedAt rpc txids) schedule.turns
    (traceBatches ((bufferUnordered 25 schedule.picks (List.range txids.length)).filter
      (tracedAt rpc txids)))
  rw [traceBatches, flatten_chunks] at hperm
  exact hperm.trans (((bufferUnordered_perm 25 schedule.picks _).filter _).filter _)

theorem collectionOrder_nodup
    (schedule : Schedule) :
    (collectionOrder rpc txids schedule).Nodup := by
  rw [(collectionOrder_perm rpc txids schedule).nodup_iff]
  exact (List.nodup_range.filter _).filter _

theorem of_mem_collectionOrder
    {schedule : Schedule}
    {i : ℕ}
    (hmem : i ∈ collectionOrder rpc txids schedule) :
    i < txids.length ∧ indexedAt rpc txids i = true := by
  have hin := (collectionOrder_perm rpc txids schedule).mem_iff.mp hmem
  simp only [List.mem_filter, List.mem_range] at hin
  exact ⟨hin.1.1, hin.2⟩

end Positions

/-! ## The vector of results -/

theorem map_getElem_range
    (txids : List String) :
    (List.range txids.length).map (fun i => txids[i]?.getD "") = txids := by
  apply List.ext_getElem
  · simp
  · intro i hleft hright
    simp [hright]

/-- The fetched transactions stand in the order in which their requests have
completed. -/
theorem txs_eq_of_getTransactionsInfo
    {rpc : Rpc}
    {picks : List ℕ}
    {txids : List String}
    {txs : List JsonValue}
    (hfetch : getTransactionsInfo rpc picks txids 25 = .ok txs) :
    txs = (bufferUnordered 25 picks (List.range txids.length)).map (txAt rpc txids) ∧
      ∀ i < txids.length, rpc.esploraTx (txids[i]?.getD "") = .ok (txAt rpc txids i) := by
  have hcompleted : bufferUnordered 25 picks
      (txids.map fun txid => (txid, rpc.esploraTx txid)) =
        (bufferUnordered 25 picks (List.range txids.length)).map fun i =>
          (txids[i]?.getD "", rpc.esploraTx (txids[i]?.getD "")) := by
    rw [← bufferUnordered_map]
    congr 1
    conv_lhs => rw [← map_getElem_range txids, List.map_map]
    rfl
  unfold getTransactionsInfo at hfetch
  simp only [hcompleted] at hfetch
  split at hfetch
  · next hnone =>
    have hall : ∀ i ∈ bufferUnordered 25 picks (List.range txids.length),
        rpc.esploraTx (txids[i]?.getD "") = .ok (txAt rpc txids i) := by
      intro i hi
      rw [failedTxids, List.filterMap_eq_nil_iff] at hnone
      have hrequest := hnone _ (List.mem_map_of_mem hi)
      unfold txAt
      cases hanswer : rpc.esploraTx (txids[i]?.getD "") with
      | ok tx => rfl
      | error error => simp [hanswer] at hrequest
    constructor
    · rw [← Except.ok.inj hfetch, fetchedTxs, List.filterMap_map, ← List.filterMap_eq_map]
      apply List.filterMap_congr
      intro i hi
      simp [hall i hi, Except.toOption]
    · intro i hi
      exact hall i ((bufferUnordered_perm 25 picks _).mem_iff.mpr (List.mem_range.mpr hi))
  · cases hfetch

theorem decodeAndTrace_of_fetchBlock
    {rpc : Rpc}
    {schedule : Schedule}
    {height : ℕ}
    {data : BlockData}
    (hfetch : fetchBlock rpc schedule height = .ok data) :
    runBatches (decodeAndTrace rpc) schedule.turns (traceBatches (tracedTxs data.txs)) =
      .ok data.results := by
  have hdecode : decodeAndTraceForBlock rpc schedule.turns (data.txs.filter txHasOpReturn) =
      .ok data.results := by
    unfold fetchBlock at hfetch
    split at hfetch
    · cases hfetch
    · split at hfetch
      · cases hfetch
      · split at hfetch
        · cases hfetch
        · next txs _ =>
          split at hfetch
          · simp only [Except.map] at hfetch
            split at hfetch
            · cases hfetch
            · next results hresults =>
              cases hfetch
              exact hresults
          · next hnone =>
            cases hfetch
            have hempty : txs.filter txHasOpReturn = [] := by
              rw [List.filter_eq_nil_iff]
              intro tx htx hreturn
              exact hnone (List.any_eq_true.mpr ⟨tx, htx, hreturn⟩)
            simp [hempty, decodeAndTraceForBlock, tracedTxs]
  have htraced : tracedTxs (data.txs.filter txHasOpReturn) = tracedTxs data.txs := by
    simp [tracedTxs, List.filter_filter]
  unfold decodeAndTraceForBlock at hdecode
  rw [htraced] at hdecode
  cases hempty : tracedTxs data.txs with
  | nil =>
      simp only [hempty] at hdecode
      change runBatches _ _ [] = _
      rw [runBatches_nil, hdecode]
  | cons tx rest => simpa [hempty] using hdecode

/-- The results of a block are those of its transactions in collection order. -/
theorem results_eq_of_fetchBlock
    {rpc : Rpc}
    {schedule : Schedule}
    {height : ℕ}
    {data : BlockData}
    {txids : List String}
    (hfetch : fetchBlock rpc schedule height = .ok data)
    (htxids : getBlockTxids rpc data.blockHash = .ok txids) :
    data.results = (collectionOrder rpc txids schedule).filterMap fun i =>
      produced (decodeAndTrace rpc) (txAt rpc txids i) := by
  obtain ⟨_, txids', htxids', htxs⟩ := answers_of_fetchBlock hfetch
  have hsame : txids' = txids := by
    rw [htxids] at htxids'
    exact (Except.ok.inj htxids').symm
  subst hsame
  have hrun := decodeAndTrace_of_fetchBlock hfetch
  rw [(txs_eq_of_getTransactionsInfo htxs).1] at hrun
  have htraced : tracedTxs ((bufferUnordered 25 schedule.picks
      (List.range txids'.length)).map (txAt rpc txids')) =
        ((bufferUnordered 25 schedule.picks (List.range txids'.length)).filter
          (tracedAt rpc txids')).map (txAt rpc txids') := by
    rw [tracedTxs, List.filter_filter, List.filter_map]
    congr 1
    apply List.filter_congr
    intro i _
    exact Bool.and_comm _ _
  have hbatches : ∀ positions : List ℕ,
      traceBatches (positions.map (txAt rpc txids')) =
        (traceBatches positions).map (List.map (txAt rpc txids')) := by
    intro positions
    simp only [traceBatches, List.length_map]
    exact chunks_map _ _ _
  rw [htraced, hbatches] at hrun
  exact eq_pushOrder_of_runBatches hrun

/-! ## The node's answers -/

/-- The node lists every transaction of the block once and answers each request
by the transaction asked for, and the formatter reports the id of its input. -/
structure Rpc.Identifies (rpc : Rpc) (txids : List String) : Prop where
  txids_nodup : txids.Nodup
  tx_of_txid : ∀ txid txJson tx, rpc.esploraTx txid = .ok txJson →
    txFromJsonOrFetchHex rpc txJson = .ok tx → tx.txid = txid
  runestone_txid : ∀ tx formatted txid, rpc.formatRunestone tx = some formatted →
    formatted.strAt ["transaction_id"] = some txid → txid = tx.txid

theorem transactionId_of_produced
    {rpc : Rpc}
    {txids : List String}
    {txid : String}
    {txJson : JsonValue}
    {result : TxDecodeTraceResult}
    (hidentifies : rpc.Identifies txids)
    (hanswer : rpc.esploraTx txid = .ok txJson)
    (hproduced : produced (decodeAndTrace rpc) txJson = some result) :
    result.transactionId = txid := by
  have hdecode : decodeAndTrace rpc txJson = .ok (some result) := by
    unfold produced at hproduced
    split at hproduced
    · next found hfound => rw [hfound, hproduced]
    · cases hproduced
  unfold decodeAndTrace at hdecode
  split at hdecode
  · cases hdecode
  · next tx htx =>
    split at hdecode
    · cases hdecode
    · next formatted hformatted =>
      simp only [Except.map] at hdecode
      split at hdecode
      · cases hdecode
      · cases hdecode
        have htxid := hidentifies.tx_of_txid txid txJson tx hanswer htx
        cases hid : formatted.strAt ["transaction_id"] with
        | none => simpa [hid] using htxid
        | some id =>
            have heq := hidentifies.runestone_txid tx formatted id hformatted hid
            simpa [hid, heq] using htxid

/-! ## Places and indices -/

/-- The transactions at earlier positions of the block have smaller indices. -/
def OrderedByBlock
    {ρ : Type*}
    (txids : List String)
    (transactionId : ρ → String)
    (transactionIndex : ρ → ℕ)
    (rows : List ρ) : Prop :=
  ∀ left ∈ rows, ∀ right ∈ rows, ∀ i j : ℕ, txids[i]? = some (transactionId left) →
    txids[j]? = some (transactionId right) → i < j →
      transactionIndex left < transactionIndex right

/-- The index of every row is the place of its transaction in the given order. -/
def IndexedBy
    {ρ : Type*}
    (order : List ℕ)
    (txids : List String)
    (transactionId : ρ → String)
    (transactionIndex : ρ → ℕ)
    (rows : List ρ) : Prop :=
  ∀ row ∈ rows, ∃ i, order[transactionIndex row]? = some i ∧
    txids[i]? = some (transactionId row)

theorem orderedByBlock_of_pairwise
    {ρ : Type*}
    {order : List ℕ}
    {txids : List String}
    {transactionId : ρ → String}
    {transactionIndex : ρ → ℕ}
    {rows : List ρ}
    (hnodup : txids.Nodup)
    (hindexed : IndexedBy order txids transactionId transactionIndex rows)
    (hincreasing : order.Pairwise (· < ·)) :
    OrderedByBlock txids transactionId transactionIndex rows := by
  intro left hleft right hright i j hi hj hlt
  obtain ⟨i', horder, htxid⟩ := hindexed left hleft
  obtain ⟨j', horder', htxid'⟩ := hindexed right hright
  have hsame : ∀ {a b : ℕ} {txid : String}, txids[a]? = some txid →
      txids[b]? = some txid → a = b := by
    intro a b txid ha hb
    obtain ⟨halt, _⟩ := List.getElem?_eq_some_iff.mp ha
    exact (List.getElem?_inj halt hnodup).mp (ha.trans hb.symm)
  cases hsame hi htxid
  cases hsame hj htxid'
  obtain ⟨hleftLt, hleftGet⟩ := List.getElem?_eq_some_iff.mp horder
  obtain ⟨hrightLt, hrightGet⟩ := List.getElem?_eq_some_iff.mp horder'
  by_contra hnot
  rcases Nat.lt_or_ge (transactionIndex right) (transactionIndex left) with hback | hequal
  · have hdecreasing := List.pairwise_iff_getElem.mp hincreasing _ _ hrightLt hleftLt hback
    omega
  · have heq : transactionIndex left = transactionIndex right := by omega
    rw [heq, horder'] at horder
    have := Option.some.inj horder
    omega

section Block

variable
  {rpc : Rpc}
  {schedule : Schedule}
  {height : ℕ}
  {data : BlockData}
  {txids : List String}

theorem getElem?_results
    (hfetch : fetchBlock rpc schedule height = .ok data)
    (htxids : getBlockTxids rpc data.blockHash = .ok txids)
    (k : ℕ) :
    data.results[k]? = (collectionOrder rpc txids schedule)[k]?.bind fun i =>
      produced (decodeAndTrace rpc) (txAt rpc txids i) := by
  rw [results_eq_of_fetchBlock hfetch htxids]
  apply getElem?_filterMap_of_isSome
  intro i hi
  exact (of_mem_collectionOrder rpc txids hi).2

theorem esploraTx_of_fetchBlock
    (hfetch : fetchBlock rpc schedule height = .ok data)
    (htxids : getBlockTxids rpc data.blockHash = .ok txids)
    {i : ℕ}
    (hi : i < txids.length) :
    rpc.esploraTx (txids[i]?.getD "") = .ok (txAt rpc txids i) := by
  obtain ⟨_, txids', htxids', htxs⟩ := answers_of_fetchBlock hfetch
  have hsame : txids' = txids := by
    rw [htxids] at htxids'
    exact (Except.ok.inj htxids').symm
  subst hsame
  exact (txs_eq_of_getTransactionsInfo htxs).2 i hi

theorem transactionId_at
    (hfetch : fetchBlock rpc schedule height = .ok data)
    (htxids : getBlockTxids rpc data.blockHash = .ok txids)
    (hidentifies : rpc.Identifies txids)
    {k : ℕ}
    {result : TxDecodeTraceResult}
    (hresult : data.results[k]? = some result) :
    ∃ i, (collectionOrder rpc txids schedule)[k]? = some i ∧
      txids[i]? = some result.transactionId := by
  rw [getElem?_results hfetch htxids, Option.bind_eq_some_iff] at hresult
  obtain ⟨i, horder, hproduced⟩ := hresult
  refine ⟨i, horder, ?_⟩
  have hlt := (of_mem_collectionOrder rpc txids (List.mem_of_getElem? horder)).1
  have hanswer := esploraTx_of_fetchBlock hfetch htxids hlt
  rw [transactionId_of_produced hidentifies hanswer hproduced]
  simp [hlt]

theorem indexedBy_transactionRows
    (hfetch : fetchBlock rpc schedule height = .ok data)
    (htxids : getBlockTxids rpc data.blockHash = .ok txids)
    (hidentifies : rpc.Identifies txids) :
    IndexedBy (collectionOrder rpc txids schedule) txids AlkaneTransactionRow.transactionId
      AlkaneTransactionRow.transactionIndex data.transactionRows := by
  intro row hrow
  obtain ⟨placed, hplaced, rfl⟩ := List.mem_map.mp hrow
  exact transactionId_at hfetch htxids hidentifies (List.mem_zipIdx_iff_getElem?.mp hplaced)

theorem indexedBy_derivedBatch
    (hfetch : fetchBlock rpc schedule height = .ok data)
    (htxids : getBlockTxids rpc data.blockHash = .ok txids)
    (hidentifies : rpc.Identifies txids)
    (pools : DerivedTable → List PoolRow)
    (table : DerivedTable) :
    IndexedBy (collectionOrder rpc txids schedule) txids table.transactionId
      table.transactionIndex (data.batch pools (.derived table)) := by
  intro row hrow
  obtain ⟨input, hinput, htxid, hindex, _⟩ := data.input_of_mem_derivedBatch hrow
  obtain ⟨placed, hplaced, rfl⟩ := List.mem_map.mp hinput
  rw [htxid, hindex]
  exact transactionId_at hfetch htxids hidentifies (List.mem_zipIdx_iff_getElem?.mp hplaced)

theorem exists_transactionRow
    (hfetch : fetchBlock rpc schedule height = .ok data)
    (htxids : getBlockTxids rpc data.blockHash = .ok txids)
    (hidentifies : rpc.Identifies txids)
    {k i : ℕ}
    (horder : (collectionOrder rpc txids schedule)[k]? = some i) :
    ∃ row ∈ data.transactionRows, row.transactionIndex = k ∧
      txids[i]? = some row.transactionId := by
  have hindexed := (of_mem_collectionOrder rpc txids (List.mem_of_getElem? horder)).2
  obtain ⟨result, hproduced⟩ := Option.isSome_iff_exists.mp hindexed
  have hresult : data.results[k]? = some result := by
    rw [getElem?_results hfetch htxids, horder]
    exact hproduced
  obtain ⟨i', horder', htxid⟩ := transactionId_at hfetch htxids hidentifies hresult
  rw [horder] at horder'
  cases horder'
  exact ⟨_, List.mem_map.mpr ⟨(result, k), List.mk_mem_zipIdx_iff_getElem?.mpr hresult, rfl⟩,
    rfl, htxid⟩

theorem pairwise_of_orderedByBlock
    (hfetch : fetchBlock rpc schedule height = .ok data)
    (htxids : getBlockTxids rpc data.blockHash = .ok txids)
    (hidentifies : rpc.Identifies txids)
    (hordered : OrderedByBlock txids AlkaneTransactionRow.transactionId
      AlkaneTransactionRow.transactionIndex data.transactionRows) :
    (collectionOrder rpc txids schedule).Pairwise (· < ·) := by
  rw [List.pairwise_iff_getElem]
  intro k l hk hl hlt
  by_contra hnot
  have hne := (List.nodup_iff_pairwise_ne.mp (collectionOrder_nodup rpc txids schedule))
  have hdistinct := List.pairwise_iff_getElem.mp hne k l hk hl hlt
  obtain ⟨left, hleft, hleftIndex, hleftTxid⟩ := exists_transactionRow hfetch htxids hidentifies
    (List.getElem?_eq_getElem hl)
  obtain ⟨right, hright, hrightIndex, hrightTxid⟩ := exists_transactionRow hfetch htxids
    hidentifies (List.getElem?_eq_getElem hk)
  have hback := hordered left hleft right hright _ _ hleftTxid hrightTxid (by omega)
  omega

end Block

/-! ## Runs in block order -/

/-- The rows written by a run have their indices in the order of the block. -/
structure InBlockOrder (txids : List String) (outcome : Outcome) : Prop where
  transactions : OrderedByBlock txids AlkaneTransactionRow.transactionId
    AlkaneTransactionRow.transactionIndex (outcome.batches .alkaneTransaction)
  derived : ∀ table : DerivedTable, OrderedByBlock txids table.transactionId
    table.transactionIndex (outcome.batches (.derived table))

theorem batch_congr
    {data data' : BlockData}
    (hresults : data.results = data'.results)
    (hheight : data.height = data'.height)
    (hrpc : data.rpc = data'.rpc)
    (pools : DerivedTable → List PoolRow)
    (table : Table) :
    data.batch pools table = data'.batch pools table := by
  obtain ⟨rpc, height, _, _, results, _⟩ := data
  obtain ⟨_, _, _, _, _, _⟩ := data'
  dsimp only at hresults hheight hrpc
  subst hresults hheight hrpc
  rfl

/-- The indices follow the block exactly when the results are collected in the
order of the block, and then every schedule yields the same rows. -/
theorem inBlockOrder_iff
    {attempt : Attempt}
    {height : ℕ}
    {emitPublish : Bool}
    {db : Db}
    {blockHash : String}
    {txids : List String}
    (hhash : attempt.rpc.blockHash height = .ok blockHash)
    (htxids : getBlockTxids attempt.rpc blockHash = .ok txids)
    (hidentifies : attempt.rpc.Identifies txids)
    (hsuccess : (processBlockSequential attempt height emitPublish db).error = none) :
    (InBlockOrder txids (processBlockSequential attempt height emitPublish db) ↔
      (collectionOrder attempt.rpc txids attempt.schedule).Pairwise (· < ·)) ∧
    ∀ (schedule : Schedule) (emitPublish' : Bool) (db' : Db),
      (processBlockSequential { attempt with schedule := schedule } height emitPublish'
        db').error = none →
      (collectionOrder attempt.rpc txids attempt.schedule).Pairwise (· < ·) →
      (collectionOrder attempt.rpc txids schedule).Pairwise (· < ·) →
      (processBlockSequential { attempt with schedule := schedule } height emitPublish'
          db').batches =
        (processBlockSequential attempt height emitPublish db).batches := by
  obtain ⟨data, hfetch⟩ := exists_data_of_error_eq_none _ _ _ hsuccess
  have hlisted : getBlockTxids attempt.rpc data.blockHash = .ok txids := by
    have hsame := (answers_of_fetchBlock hfetch).1
    rw [hhash] at hsame
    rwa [← Except.ok.inj hsame]
  rw [processBlockSequential_of_fetch attempt emitPublish db hfetch] at hsuccess ⊢
  have hbatches : ∀ table, (writeBlock attempt emitPublish db data).batches table =
      data.batch attempt.pools table := writeBlock_batches attempt emitPublish db data hsuccess
  refine ⟨?_, ?_⟩
  · constructor
    · intro hordered
      have htransactions := hordered.transactions
      rw [hbatches] at htransactions
      exact pairwise_of_orderedByBlock hfetch hlisted hidentifies htransactions
    · intro hincreasing
      constructor
      · rw [hbatches]
        exact orderedByBlock_of_pairwise hidentifies.txids_nodup
          (indexedBy_transactionRows hfetch hlisted hidentifies) hincreasing
      · intro table
        rw [hbatches]
        exact orderedByBlock_of_pairwise hidentifies.txids_nodup
          (indexedBy_derivedBatch hfetch hlisted hidentifies attempt.pools table) hincreasing
  · intro schedule emitPublish' db' hsuccess' hincreasing hincreasing'
    obtain ⟨data', hfetch'⟩ := exists_data_of_error_eq_none _ _ _ hsuccess'
    have hlisted' : getBlockTxids attempt.rpc data'.blockHash = .ok txids := by
      have hsame := (answers_of_fetchBlock hfetch').1
      rw [hhash] at hsame
      rwa [← Except.ok.inj hsame]
    have horder : collectionOrder attempt.rpc txids schedule =
        collectionOrder attempt.rpc txids attempt.schedule := by
      have hperm := (collectionOrder_perm attempt.rpc txids schedule).trans
        (collectionOrder_perm attempt.rpc txids attempt.schedule).symm
      exact hperm.eq_of_pairwise (fun _ _ _ _ hlt hgt => absurd hlt (Nat.lt_asymm hgt))
        hincreasing' hincreasing
    have hresults : data'.results = data.results := by
      rw [results_eq_of_fetchBlock hfetch' hlisted', results_eq_of_fetchBlock hfetch hlisted,
        horder]
    obtain ⟨hheight, hrpc⟩ := height_of_fetchBlock hfetch
    obtain ⟨hheight', hrpc'⟩ := height_of_fetchBlock hfetch'
    rw [processBlockSequential_of_fetch _ emitPublish' db' hfetch'] at hsuccess' ⊢
    funext table
    rw [hbatches, writeBlock_batches _ emitPublish' db' data' hsuccess']
    exact batch_congr hresults (hheight'.trans hheight.symm) (hrpc'.trans hrpc.symm) _ table

/-! ## Two transactions -/

theorem serving_identifies
    {hash : String}
    {traces : List (String × List JsonValue)}
    (hnodup : (traces.map Prod.fst).Nodup) :
    (Rpc.serving hash traces).Identifies (traces.map Prod.fst) where
  txids_nodup := hnodup
  tx_of_txid := by
    intro txid txJson tx hanswer htx
    cases hanswer
    cases htx
    rfl
  runestone_txid := by
    intro tx formatted txid hformatted hid
    cases hformatted
    cases hid

def pairRpc : Rpc :=
  .serving "pair" [
    ("a1", [invokeTrace ("0x20", "0x0") "0x4d" []]),
    ("a2", [invokeTrace ("0x20", "0x0") "0x4d" []])]

def promptAttempt : Attempt := .smooth pairRpc []

/-- The request for the second transaction completes first. -/
def overtakenAttempt : Attempt := { promptAttempt with schedule := ⟨[1], []⟩ }

set_option maxRecDepth 4000 in
theorem reversed_indices :
    (processBlockSequential overtakenAttempt 5 false .empty).error = none ∧
      ¬ InBlockOrder ["a1", "a2"] (processBlockSequential overtakenAttempt 5 false .empty) ∧
      (processBlockSequential overtakenAttempt 5 false .empty).batches ≠
        (processBlockSequential promptAttempt 5 false .empty).batches := by
  refine ⟨by decide, ?_, ?_⟩
  · intro hordered
    have hrows := hordered.transactions
    have hindices : ∀ left ∈ (processBlockSequential overtakenAttempt 5 false
        .empty).batches .alkaneTransaction, ∀ right ∈ (processBlockSequential overtakenAttempt
          5 false .empty).batches .alkaneTransaction,
        AlkaneTransactionRow.transactionId left = "a1" →
          AlkaneTransactionRow.transactionId right = "a2" →
            AlkaneTransactionRow.transactionIndex left <
              AlkaneTransactionRow.transactionIndex right := by
      intro left hleft right hright ha1 ha2
      exact hrows left hleft right hright 0 1 (by simp [ha1]) (by simp [ha2]) (by decide)
    exact absurd hindices (by decide)
  · intro hsame
    have hrows := congrFun hsame .alkaneTransaction
    exact absurd (congrArg (List.map AlkaneTransactionRow.transactionId) hrows) (by decide)

set_option maxRecDepth 4000 in
theorem promptAttempt_inBlockOrder :
    InBlockOrder ["a1", "a2"] (processBlockSequential promptAttempt 5 false .empty) := by
  have hidentifies : promptAttempt.rpc.Identifies ["a1", "a2"] :=
    serving_identifies (by decide)
  have hhash : promptAttempt.rpc.blockHash 5 = .ok "pair" := rfl
  have htxids : getBlockTxids promptAttempt.rpc "pair" = .ok ["a1", "a2"] := rfl
  exact (inBlockOrder_iff hhash htxids hidentifies (by decide)).1.mpr (by decide)

end AlkanesIndexer
