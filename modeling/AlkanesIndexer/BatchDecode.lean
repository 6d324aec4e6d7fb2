import AlkanesIndexer.Pipeline
import AlkanesIndexer.TraceCalls

/-!
# A block is decoded strictly and without loss

The concurrent batches hold the transactions by their positions, so that two
equal transactions of a block may be answered differently.  A block is decoded
exactly when every traced transaction is tolerated, and what comes back is one
entry for each transaction whose runestone decodes.
-/

namespace AlkanesIndexer

open BatchScheduler Sequences

/-- The answers to what is asked for one transaction, those of its trace calls
attempt by attempt. -/
structure TxAnswers where
  rpc : Rpc
  traceCalls : String → ℕ → RpcCall

def TxAnswers.toRpc (answers : TxAnswers) (maxAttempts : ℕ) : Rpc :=
  { answers.rpc with
    alkanesTrace := fun txid vout => traceCall maxAttempts (answers.traceCalls txid vout) }

/-- `decode_and_trace_for_block` with answers of its own for every position. -/
def decodeAndTraceJobs
    (rpcs : ℕ → Rpc)
    (schedule : List ℕ)
    (txs : List JsonValue) : Except String (List TxDecodeTraceResult) :=
  match (tracedTxs txs).zipIdx with
  | [] => .ok []
  | jobs =>
      runBatches (fun job => decodeAndTrace (rpcs job.2) job.1) schedule (traceBatches jobs)

/-! ## The loop over the protostones -/

/-- A trace call that does not fail the block. -/
def Tolerated (outcome : Except (List String) JsonValue) : Prop :=
  ∀ chain, outcome = .error chain → isKnownUpstreamTypeError (" | ".intercalate chain) = true

def tracedEvents (vout : ℕ) (outcome : Except (List String) JsonValue) : List TraceEventItem :=
  match outcome with
  | .ok trace => flattenTrace (asI32 vout) trace
  | .error _ => []

theorem traceProtostone_of_tolerated
    {rpc : Rpc}
    {txid : String}
    {start index : ℕ}
    (progress : TraceProgress)
    (htolerated : Tolerated (rpc.alkanesTrace (toLittleEndianHex txid) (start + index))) :
    ∃ next, traceProtostone rpc txid start progress index = .ok next ∧
      next.traceEvents = progress.traceEvents ++ tracedEvents (start + index)
        (rpc.alkanesTrace (toLittleEndianHex txid) (start + index)) := by
  unfold traceProtostone
  dsimp only
  cases houtcome : rpc.alkanesTrace (toLittleEndianHex txid) (start + index) with
  | ok trace =>
      dsimp only
      refine ⟨_, rfl, ?_⟩
      rfl
  | error chain =>
      have hknown := htolerated chain houtcome
      exact ⟨progress, if_pos hknown, (List.append_nil _).symm⟩

theorem traceProtostone_of_not_tolerated
    {rpc : Rpc}
    {txid : String}
    {start index : ℕ}
    (progress : TraceProgress)
    (htolerated : ¬ Tolerated (rpc.alkanesTrace (toLittleEndianHex txid) (start + index))) :
    ∃ error, traceProtostone rpc txid start progress index = .error error := by
  unfold traceProtostone
  dsimp only
  cases houtcome : rpc.alkanesTrace (toLittleEndianHex txid) (start + index) with
  | ok trace => exact absurd (fun chain herror => by simp [houtcome] at herror) htolerated
  | error chain =>
      have hunknown : ¬ isKnownUpstreamTypeError (" | ".intercalate chain) = true := by
        intro hknown
        apply htolerated
        intro chain' herror
        rw [houtcome] at herror
        cases herror
        exact hknown
      exact ⟨_, if_neg hunknown⟩

/-- The loop ends if every call is tolerated, and then it has the events of every
call in order. -/
theorem traceProtostones_of_tolerated
    {rpc : Rpc}
    {txid : String}
    {start : ℕ}
    {indices : List ℕ}
    (progress : TraceProgress)
    (htolerated : ∀ index ∈ indices,
      Tolerated (rpc.alkanesTrace (toLittleEndianHex txid) (start + index))) :
    ∃ last, traceProtostones rpc txid start indices progress = .ok last ∧
      last.traceEvents = progress.traceEvents ++ indices.flatMap fun index =>
        tracedEvents (start + index)
          (rpc.alkanesTrace (toLittleEndianHex txid) (start + index)) := by
  induction indices generalizing progress with
  | nil => exact ⟨progress, rfl, (List.append_nil _).symm⟩
  | cons index rest ih =>
      obtain ⟨next, hnext, hevents⟩ :=
        traceProtostone_of_tolerated progress (htolerated index List.mem_cons_self)
      obtain ⟨last, hlast, hrest⟩ :=
        ih next fun other hother => htolerated other (List.mem_cons_of_mem index hother)
      refine ⟨last, ?_, ?_⟩
      · rw [traceProtostones, hnext]
        exact hlast
      · rw [hrest, hevents, List.append_assoc, List.flatMap_cons]

theorem traceProtostones_of_not_tolerated
    {rpc : Rpc}
    {txid : String}
    {start : ℕ}
    {indices : List ℕ}
    (progress : TraceProgress)
    (htolerated : ¬ ∀ index ∈ indices,
      Tolerated (rpc.alkanesTrace (toLittleEndianHex txid) (start + index))) :
    ∃ error, traceProtostones rpc txid start indices progress = .error error := by
  induction indices generalizing progress with
  | nil => simp at htolerated
  | cons index rest ih =>
      rw [traceProtostones]
      by_cases hindex :
          Tolerated (rpc.alkanesTrace (toLittleEndianHex txid) (start + index))
      · obtain ⟨next, hnext, -⟩ := traceProtostone_of_tolerated progress hindex
        rw [hnext]
        apply ih
        intro hrest
        apply htolerated
        intro other hother
        cases List.mem_cons.mp hother with
        | inl heq => exact heq ▸ hindex
        | inr hmem => exact hrest other hmem
      · obtain ⟨error, herror⟩ := traceProtostone_of_not_tolerated progress hindex
        rw [herror]
        exact ⟨error, rfl⟩

/-! ## One transaction -/

/-- The decoded runestone of a transaction, if its bytes were obtained and the
formatter neither failed nor panicked. -/
def decodedRunestone (rpc : Rpc) (tx : JsonValue) : Option (BitcoinTx × JsonValue) :=
  (txFromJsonOrFetchHex rpc tx).toOption.bind fun bitcoinTx =>
    (rpc.formatRunestone bitcoinTx).map fun formatted => (bitcoinTx, formatted)

/-- The transaction id which a runestone is stored and traced under. -/
def runestoneTxid (decoded : BitcoinTx × JsonValue) : String :=
  (decoded.2.strAt ["transaction_id"]).getD decoded.1.txid

def protostonesOf (decoded : BitcoinTx × JsonValue) : List JsonValue :=
  decoded.2.arrayAt ["protostones"]

def traceOf (rpc : Rpc) (decoded : BitcoinTx × JsonValue) (index : ℕ) :
    Except (List String) JsonValue :=
  rpc.alkanesTrace (toLittleEndianHex (runestoneTxid decoded)) (decoded.1.outputs + 1 + index)

def TxTolerated (rpc : Rpc) (tx : JsonValue) : Prop :=
  (∃ bitcoinTx, txFromJsonOrFetchHex rpc tx = .ok bitcoinTx) ∧
    ∀ decoded, decodedRunestone rpc tx = some decoded →
      ∀ index < (protostonesOf decoded).length, Tolerated (traceOf rpc decoded index)

structure EntryOf (rpc : Rpc) (tx : JsonValue) (entry : TxDecodeTraceResult) : Prop where
  isDecoded : ∃ decoded, decodedRunestone rpc tx = some decoded ∧
    entry.transactionId = runestoneTxid decoded ∧
    entry.decodedProtostones = (protostonesOf decoded).zipIdx.map (fun placed =>
      ⟨asI32 (decoded.1.outputs + 1 + placed.2 : ℕ), placed.2, placed.1⟩) ∧
    entry.traceEvents = (List.range (protostonesOf decoded).length).flatMap fun index =>
      tracedEvents (decoded.1.outputs + 1 + index) (traceOf rpc decoded index)
  transactionJson : entry.transactionJson = tx

theorem decodeAndTrace_of_tolerated
    {rpc : Rpc}
    {tx : JsonValue}
    (htolerated : TxTolerated rpc tx) :
    (decodedRunestone rpc tx = none ∧ decodeAndTrace rpc tx = .ok none) ∨
      ∃ entry, EntryOf rpc tx entry ∧ decodeAndTrace rpc tx = .ok (some entry) := by
  obtain ⟨⟨bitcoinTx, hbytes⟩, hcalls⟩ := htolerated
  unfold decodeAndTrace decodedRunestone at *
  simp only [hbytes, Except.toOption, Option.bind_some] at hcalls ⊢
  cases hformat : rpc.formatRunestone bitcoinTx with
  | none => exact .inl ⟨rfl, rfl⟩
  | some formatted =>
      right
      obtain ⟨last, hlast, hevents⟩ := traceProtostones_of_tolerated
        ⟨[], false, false⟩ (fun index hindex =>
          hcalls (bitcoinTx, formatted) (by rw [hformat]; rfl) index
            (List.mem_range.mp hindex))
      unfold runestoneTxid protostonesOf at hlast
      dsimp only at hlast ⊢
      rw [hlast]
      refine ⟨_, ⟨⟨(bitcoinTx, formatted), ?_, rfl, rfl, hevents⟩, rfl⟩, rfl⟩
      rw [decodedRunestone, hbytes]
      simp [hformat, Except.toOption]

theorem decodeAndTrace_of_not_tolerated
    {rpc : Rpc}
    {tx : JsonValue}
    (htolerated : ¬ TxTolerated rpc tx) :
    ∃ error, decodeAndTrace rpc tx = .error error := by
  unfold decodeAndTrace
  cases hbytes : txFromJsonOrFetchHex rpc tx with
  | error error => exact ⟨_, rfl⟩
  | ok bitcoinTx =>
      dsimp only
      cases hformat : rpc.formatRunestone bitcoinTx with
      | none =>
          refine absurd ⟨⟨bitcoinTx, hbytes⟩, fun decoded hdecoded => ?_⟩ htolerated
          simp [decodedRunestone, hbytes, hformat, Except.toOption] at hdecoded
      | some formatted =>
          have hcalls : ¬ ∀ index ∈ List.range (protostonesOf (bitcoinTx, formatted)).length,
              Tolerated (traceOf rpc (bitcoinTx, formatted) index) := by
            intro hall
            apply htolerated
            refine ⟨⟨bitcoinTx, hbytes⟩, fun decoded hdecoded index hindex => ?_⟩
            simp only [decodedRunestone, hbytes, hformat, Except.toOption, Option.bind_some,
              Option.map_some, Option.some.injEq] at hdecoded
            subst hdecoded
            exact hall index (List.mem_range.mpr hindex)
          obtain ⟨error, herror⟩ := traceProtostones_of_not_tolerated ⟨[], false, false⟩ hcalls
          unfold runestoneTxid protostonesOf at herror
          dsimp only at herror ⊢
          rw [herror]
          exact ⟨error, rfl⟩

/-! ## The block -/

theorem mem_flatten_traceBatches
    {α : Type*}
    {jobs : List α}
    {job : α} :
    job ∈ (traceBatches jobs).flatten ↔ job ∈ jobs := by
  rw [traceBatches, flatten_chunks]

/-- A block decodes exactly when each of its traced transactions is tolerated. -/
theorem decodeAndTraceJobs_isOk_iff
    {rpcs : ℕ → Rpc}
    {schedule : List ℕ}
    {txs : List JsonValue} :
    (∃ results, decodeAndTraceJobs rpcs schedule txs = .ok results) ↔
      ∀ job ∈ (tracedTxs txs).zipIdx, TxTolerated (rpcs job.2) job.1 := by
  have htolerated : ∀ job : JsonValue × ℕ, TxTolerated (rpcs job.2) job.1 ↔
      ∀ error, decodeAndTrace (rpcs job.2) job.1 ≠ .error error := by
    intro job
    constructor
    · intro h error herror
      cases decodeAndTrace_of_tolerated h with
      | inl hnone => simp [herror] at hnone
      | inr hsome =>
          obtain ⟨entry, -, hentry⟩ := hsome
          simp [herror] at hentry
    · intro h
      by_contra hnot
      obtain ⟨error, herror⟩ := decodeAndTrace_of_not_tolerated hnot
      exact h error herror
  unfold decodeAndTraceJobs
  cases hjobs : (tracedTxs txs).zipIdx with
  | nil => simp
  | cons job rest =>
      dsimp only
      rw [runBatches_isOk_iff]
      simp only [mem_flatten_traceBatches, htolerated]

/-- What comes back is one entry for each transaction whose runestone decodes. -/
theorem entries_of_decodeAndTraceJobs
    {rpcs : ℕ → Rpc}
    {schedule : List ℕ}
    {txs : List JsonValue}
    {results : List TxDecodeTraceResult}
    (hdecode : decodeAndTraceJobs rpcs schedule txs = .ok results) :
    ∃ entries, results.Perm entries ∧
      List.Forall₂ (fun job entry => EntryOf (rpcs job.2) job.1 entry)
        ((tracedTxs txs).zipIdx.filter fun job =>
          (decodedRunestone (rpcs job.2) job.1).isSome) entries := by
  have htolerated := decodeAndTraceJobs_isOk_iff.mp ⟨results, hdecode⟩
  have hperm : results.Perm ((tracedTxs txs).zipIdx.filterMap
      (produced fun job => decodeAndTrace (rpcs job.2) job.1)) := by
    unfold decodeAndTraceJobs at hdecode
    cases hjobs : (tracedTxs txs).zipIdx with
    | nil =>
        simp only [hjobs, Except.ok.injEq] at hdecode
        simp [← hdecode]
    | cons job rest =>
        simp only [hjobs] at hdecode
        have h := perm_of_runBatches_eq_ok hdecode
        rwa [traceBatches, flatten_chunks] at h
  refine ⟨_, hperm, ?_⟩
  generalize (tracedTxs txs).zipIdx = jobs at htolerated
  clear hperm hdecode
  induction jobs with
  | nil => exact .nil
  | cons job rest ih =>
      have hrest := ih fun other hother => htolerated other (List.mem_cons_of_mem job hother)
      rcases decodeAndTrace_of_tolerated (htolerated job List.mem_cons_self) with
        ⟨hnone, hjob⟩ | ⟨entry, hentry, hjob⟩
      · simp only [List.filter_cons, hnone, Option.isSome_none, Bool.false_eq_true, if_false,
          List.filterMap_cons, produced, hjob]
        exact hrest
      · obtain ⟨decoded, hdecoded, -⟩ := hentry.isDecoded
        simp only [List.filter_cons, hdecoded, Option.isSome_some, if_true,
          List.filterMap_cons, produced, hjob]
        exact .cons hentry hrest

namespace TxAnswers

variable (answers : TxAnswers) (maxAttempts : ℕ)

def callOf (decoded : BitcoinTx × JsonValue) (index : ℕ) : RpcCall :=
  answers.traceCalls (toLittleEndianHex (runestoneTxid decoded))
    (decoded.1.outputs + 1 + index)

def eventsOf (decoded : BitcoinTx × JsonValue) (index : ℕ) : List TraceEventItem :=
  match traceCall maxAttempts (answers.callOf decoded index) with
  | .ok trace => flattenTrace (decoded.1.outputs + 1 + index : ℕ) trace
  | .error _ => []

/-- The transaction was materialised, and each trace call of its protostones
succeeded or failed with the known upstream error. -/
def Fine (tx : JsonValue) : Prop :=
  (∃ bitcoinTx, txFromJsonOrFetchHex answers.rpc tx = .ok bitcoinTx) ∧
    ∀ decoded, decodedRunestone answers.rpc tx = some decoded →
      ∀ index < (protostonesOf decoded).length,
        (∃ trace, (answers.callOf decoded index).Succeeds maxAttempts trace) ∨
          (answers.callOf decoded index).FailsKnown maxAttempts

/-- The entry of a transaction with `decoded.1.outputs` outputs. -/
structure EntryFor (tx : JsonValue) (decoded : BitcoinTx × JsonValue)
    (entry : TxDecodeTraceResult) : Prop where
  transactionId : entry.transactionId = runestoneTxid decoded
  transactionJson : entry.transactionJson = tx
  decodedProtostones : entry.decodedProtostones =
    (protostonesOf decoded).zipIdx.map fun placed =>
      ⟨(decoded.1.outputs + 1 + placed.2 : ℕ), placed.2, placed.1⟩
  traceEvents : entry.traceEvents =
    (List.range (protostonesOf decoded).length).flatMap
      (answers.eventsOf maxAttempts decoded)

variable {answers maxAttempts}

theorem tolerated_iff
    {call : RpcCall} :
    Tolerated (traceCall maxAttempts call) ↔
      (∃ trace, call.Succeeds maxAttempts trace) ∨ call.FailsKnown maxAttempts := by
  simp only [← traceCall_eq_ok_iff, ← traceCall_known_iff, Tolerated]
  cases traceCall maxAttempts call <;> simp

theorem txTolerated_toRpc_iff
    {tx : JsonValue} :
    TxTolerated (answers.toRpc maxAttempts) tx ↔ answers.Fine maxAttempts tx := by
  unfold Fine
  simp only [← tolerated_iff]
  rfl

theorem asI32_of_lt
    {n : ℕ}
    (hlt : n < 2 ^ 31) :
    asI32 (n : ℤ) = n := by
  apply Int.bmod_eq_of_le
  · omega
  · omega

theorem entryFor_of_entryOf
    {tx : JsonValue}
    {entry : TxDecodeTraceResult}
    (hfew : ∀ decoded, decodedRunestone answers.rpc tx = some decoded →
      (protostonesOf decoded).length < 2 ^ 31 - decoded.1.outputs - 1)
    (hentry : EntryOf (answers.toRpc maxAttempts) tx entry) :
    ∃ decoded, decodedRunestone answers.rpc tx = some decoded ∧
      answers.EntryFor maxAttempts tx decoded entry := by
  obtain ⟨⟨decoded, hdecoded, htxid, hitems, hevents⟩, hjson⟩ := hentry
  have hlength := hfew decoded hdecoded
  have hvout : ∀ index < (protostonesOf decoded).length,
      asI32 (decoded.1.outputs + 1 + index : ℕ) = (decoded.1.outputs + 1 + index : ℕ) := by
    intro index hindex
    apply asI32_of_lt
    omega
  refine ⟨decoded, hdecoded, htxid, hjson, ?_, ?_⟩
  · rw [hitems]
    apply List.map_congr_left
    intro placed hplaced
    have hindex : placed.2 < (protostonesOf decoded).length := by
      have h := List.snd_lt_of_mem_zipIdx hplaced
      simpa using h
    rw [hvout placed.2 hindex]
  · rw [hevents]
    apply List.flatMap_congr
    intro index hindex
    unfold tracedEvents eventsOf
    rw [hvout index (List.mem_range.mp hindex)]
    rfl

end TxAnswers

/-- An event of a trace is kept with its type, its data and, of an invoke, its address. -/
structure KeptEvent (vout : ℤ) (raw : JsonValue) (event : TraceEventItem) : Prop where
  vout : event.vout = vout
  eventType : event.eventType = (raw.strAt ["event"]).getD "unknown"
  data : event.data = (raw.get "data").getD (.object [])
  address : (event.alkaneAddressBlock, event.alkaneAddressTx) =
    if event.eventType = "invoke" then
      (addressComponent event.data "block", addressComponent event.data "tx")
    else ("", "")

/-- The events of an array are kept one by one, and any other trace as a whole. -/
def KeptTrace (vout : ℤ) (trace : JsonValue) (events : List TraceEventItem) : Prop :=
  match trace.asArray with
  | some raws => List.Forall₂ (KeptEvent vout) raws events
  | none => events = [⟨vout, "trace", trace, "", ""⟩]

theorem keptEvent_flattenEvent
    (vout : ℤ)
    (raw : JsonValue) :
    KeptEvent vout raw (flattenEvent vout raw) := by
  refine ⟨rfl, rfl, rfl, ?_⟩
  unfold flattenEvent
  dsimp only
  split
  · rfl
  · rfl

theorem keptTrace_flattenTrace
    (vout : ℤ)
    (trace : JsonValue) :
    KeptTrace vout trace (flattenTrace vout trace) := by
  unfold KeptTrace flattenTrace
  cases trace.asArray with
  | none => rfl
  | some raws =>
      dsimp only
      rw [List.forall₂_map_right_iff, List.forall₂_same]
      exact fun raw _ => keptEvent_flattenEvent vout raw

theorem length_flattenTrace
    (vout : ℤ)
    (trace : JsonValue) :
    (flattenTrace vout trace).length = (trace.asArray.map List.length).getD 1 := by
  unfold flattenTrace
  cases trace.asArray with
  | none => rfl
  | some events => simp

theorem vout_of_mem_flattenTrace
    {vout : ℤ}
    {trace : JsonValue}
    {event : TraceEventItem}
    (hmem : event ∈ flattenTrace vout trace) :
    event.vout = vout := by
  unfold flattenTrace at hmem
  cases htrace : trace.asArray with
  | none =>
      rw [htrace] at hmem
      rw [List.mem_singleton.mp hmem]
  | some events =>
      rw [htrace] at hmem
      obtain ⟨raw, -, rfl⟩ := List.mem_map.mp hmem
      rfl

/-- A block decodes exactly when all its traced transactions are fine; then the
results are one entry for each of them whose runestone decodes. -/
theorem decodeAndTraceJobs_strict_lossless
    (maxAttempts : ℕ)
    (answers : ℕ → TxAnswers)
    (schedule : List ℕ)
    (txs : List JsonValue)
    (hfew : ∀ job ∈ (tracedTxs txs).zipIdx, ∀ decoded,
      decodedRunestone (answers job.2).rpc job.1 = some decoded →
        (protostonesOf decoded).length < 2 ^ 31 - decoded.1.outputs - 1) :
    ((∃ results, decodeAndTraceJobs (fun place => (answers place).toRpc maxAttempts)
          schedule txs = .ok results) ↔
        ∀ job ∈ (tracedTxs txs).zipIdx, (answers job.2).Fine maxAttempts job.1) ∧
      (∀ results, decodeAndTraceJobs (fun place => (answers place).toRpc maxAttempts)
          schedule txs = .ok results →
        ∃ entries, results.Perm entries ∧
          List.Forall₂ (fun job entry => ∃ decoded,
              decodedRunestone (answers job.2).rpc job.1 = some decoded ∧
                (answers job.2).EntryFor maxAttempts job.1 decoded entry)
            ((tracedTxs txs).zipIdx.filter fun job =>
              (decodedRunestone (answers job.2).rpc job.1).isSome) entries) ∧
      ∀ vout trace, (flattenTrace vout trace).length =
          (trace.asArray.map List.length).getD 1 ∧
        (∀ event ∈ flattenTrace vout trace, event.vout = vout) ∧
        KeptTrace vout trace (flattenTrace vout trace) := by
  refine ⟨?_, ?_, fun vout trace => ⟨length_flattenTrace vout trace,
    fun event => vout_of_mem_flattenTrace, keptTrace_flattenTrace vout trace⟩⟩
  · rw [decodeAndTraceJobs_isOk_iff]
    simp only [TxAnswers.txTolerated_toRpc_iff]
  · intro results hdecode
    obtain ⟨entries, hperm, hentries⟩ := entries_of_decodeAndTraceJobs hdecode
    refine ⟨entries, hperm, ?_⟩
    have hjobs := (List.forall₂_and_left _ _).mpr
      ⟨fun job hjob => hfew job (List.mem_of_mem_filter hjob), hentries⟩
    exact hjobs.imp fun job entry h => TxAnswers.entryFor_of_entryOf h.1 h.2

/-- A transaction whose first trace attempt times out. -/
def retriedAnswers : TxAnswers where
  rpc := Rpc.serving "hash" []
  traceCalls := fun _ _ => ⟨false, fun attempt =>
    if attempt = 0 then .error .timeout else .ok (.array [.object []])⟩

theorem decodeAndTraceJobs_retriedAnswers :
    ∃ results, decodeAndTraceJobs (fun _ => retriedAnswers.toRpc 5) [] [opReturnTx "aa"] =
      .ok results := by
  have hjobs : (tracedTxs [opReturnTx "aa"]).zipIdx = [(opReturnTx "aa", 0)] := by decide
  have hrunestone : decodedRunestone retriedAnswers.rpc (opReturnTx "aa") =
      some (⟨"aa", 1⟩, .object [("protostones", .array [.object []])]) := by decide
  apply (decodeAndTraceJobs_strict_lossless 5 (fun _ => retriedAnswers) [] [opReturnTx "aa"]
    ?_).1.mpr
  · intro job hjob
    rw [hjobs, List.mem_singleton] at hjob
    subst hjob
    refine ⟨⟨⟨"aa", 1⟩, by decide⟩, fun decoded hdecoded index hindex => .inl ?_⟩
    refine ⟨.array [.object []], rfl, 1, by decide, rfl, fun earlier hearlier => ?_⟩
    obtain rfl : earlier = 0 := by omega
    exact ⟨.timeout, rfl, rfl⟩
  · intro job hjob decoded hdecoded
    rw [hjobs, List.mem_singleton] at hjob
    subst hjob
    rw [hrunestone, Option.some.injEq] at hdecoded
    subst hdecoded
    decide

end AlkanesIndexer
