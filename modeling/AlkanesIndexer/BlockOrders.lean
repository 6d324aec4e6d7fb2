import AlkanesIndexer.CompletionOrders
import AlkanesIndexer.StageCommits

/-!
# Blocks in any order

The poller and the coordinator process blocks at both ends of the chain, and `reprocess`
anywhere.  New blocks with transactions of their own can be processed in any order, one
after another or side by side: if one order of their stages succeeds every other one does,
and they leave the same rows.
-/

namespace AlkanesIndexer

open KeyedRows Runs BatchScheduler

namespace BlockCall

/-- The database behind a call that succeeds. -/
def process (db : Db) (call : BlockCall) : Option Db :=
  let outcome := processBlockSequential call.attempt call.height call.emitPublish db
  if outcome.error.isNone then some outcome.db else none

/-- The stages that a successful call commits. -/
def stages (call : BlockCall) (data : BlockData) : List Stage :=
  data.stages.filter fun stage => !data.skipped call.attempt.pools stage

/-- The stages of a block that can be fetched, in the order of the pipeline. -/
def stageCalls (call : BlockCall) : List StageCall :=
  match fetchBlock call.attempt.rpc call.attempt.schedule call.height with
  | .error _ => []
  | .ok data => data.stages.map (Prod.mk call)

/-- No creation is on record for a transaction of the block, and no marker for its
height. -/
def New (db : Db) (call : BlockCall) : Prop :=
  (∀ data, call.Fetches data → ∀ row ∈ db.rows (.derived .poolCreation),
    PoolCreationRow.transactionId row ∉ data.txids) ∧
  ∀ row ∈ db.processedBlocks, row.blockHeight ≠ call.height

def Independent (db : Db) (calls : List BlockCall) : Prop :=
  calls.Pairwise Apart ∧ ∀ call ∈ calls, call.New db

/-! ## A call and its stages -/

section Stages

variable {call : BlockCall} {calls : List BlockCall} {db db' : Db} {data : BlockData}

theorem process_eq_some_iff :
    call.process db = some db' ↔
      ∃ data, call.Fetches data ∧
        (∀ stage ∈ data.stages, StageReady call.attempt data db stage) ∧
        db' = data.after call.attempt.pools (call.stages data) db := by
  obtain ⟨attempt, height, emitPublish⟩ := call
  unfold process
  simp only [Option.ite_none_right_eq_some, Option.isNone_iff_eq_none, Option.some.injEq]
  constructor
  · rintro ⟨hsuccess, rfl⟩
    obtain ⟨data, hfetch⟩ := exists_data_of_error_eq_none attempt emitPublish db hsuccess
    rw [processBlockSequential_of_fetch attempt emitPublish db hfetch] at hsuccess ⊢
    have hready := (writeBlock_error_eq_none_iff attempt emitPublish db data).mp hsuccess
    refine ⟨data, hfetch, hready, ?_⟩
    rw [writeBlock_db, writeBlock_committed _ _ _ _ hsuccess]
    rfl
  · rintro ⟨data, hfetch, hready, rfl⟩
    rw [processBlockSequential_of_fetch attempt emitPublish db hfetch]
    have hsuccess := (writeBlock_error_eq_none_iff attempt emitPublish db data).mpr hready
    refine ⟨hsuccess, ?_⟩
    rw [writeBlock_db, writeBlock_committed _ _ _ _ hsuccess]
    rfl

theorem stageCalls_of_fetches
    (hfetch : call.Fetches data) :
    call.stageCalls = data.stages.map (Prod.mk call) := by
  unfold Fetches at hfetch
  unfold stageCalls
  rw [hfetch]

/-- Stages of one block in a row, each of which has what it needs at the start. -/
theorem run_commit_eq_some_iff
    (hfetch : call.Fetches data)
    {stages : List Stage}
    (hnodup : stages.Nodup) :
    run StageCall.commit db (stages.map (Prod.mk call)) = some db' ↔
      (∀ stage ∈ stages, StageReady call.attempt data db stage) ∧
        db' = data.after call.attempt.pools
          (stages.filter fun stage => !data.skipped call.attempt.pools stage) db := by
  induction stages generalizing db with
  | nil =>
      rw [List.map_nil, run_nil, List.filter_nil, after_nil, Option.some.injEq]
      simp [eq_comm]
  | cons stage rest ih =>
      obtain ⟨hnot, hrest⟩ := List.nodup_cons.mp hnodup
      have hafter : data.after call.attempt.pools
            (rest.filter fun stage => !data.skipped call.attempt.pools stage)
            (data.after call.attempt.pools (StageCall.written (call, stage) data) db) =
          data.after call.attempt.pools
            ((stage :: rest).filter fun stage => !data.skipped call.attempt.pools stage) db := by
        rw [after_after]
        exact congrArg (fun stages => data.after call.attempt.pools stages db)
          (List.filter_append [stage] rest).symm
      rw [List.map_cons, run_cons_eq_some_iff, List.forall_mem_cons]
      constructor
      · rintro ⟨next, hcommit, hrun⟩
        obtain ⟨data', hfetch', hready, rfl⟩ := StageCall.commit_eq_some_iff.mp hcommit
        obtain rfl := StageCall.Fetches_unique hfetch hfetch'
        obtain ⟨hreadyRest, rfl⟩ := (ih hrest).mp hrun
        refine ⟨⟨hready, fun other hother => ?_⟩, hafter⟩
        exact (stageReady_after_iff _ other).mp (hreadyRest other hother)
      · rintro ⟨⟨hready, hreadyRest⟩, rfl⟩
        refine ⟨_, StageCall.commit_eq_some_iff.mpr ⟨data, hfetch, hready, rfl⟩,
          (ih hrest).mpr ⟨fun other hother => ?_, hafter.symm⟩⟩
        exact (stageReady_after_iff _ other).mpr (hreadyRest other hother)

theorem process_eq_run
    (hfetch : call.Fetches data) :
    call.process db = run StageCall.commit db call.stageCalls := by
  rw [stageCalls_of_fetches hfetch]
  ext final
  rw [process_eq_some_iff, run_commit_eq_some_iff hfetch (stages_nodup data)]
  constructor
  · rintro ⟨data', hfetch', hready, hfinal⟩
    obtain rfl := StageCall.Fetches_unique hfetch hfetch'
    exact ⟨hready, hfinal⟩
  · rintro ⟨hready, hfinal⟩
    exact ⟨data, hfetch, hready, hfinal⟩

/-- Calls one after another are their stages one after another. -/
theorem run_process_eq_some_iff :
    run process db calls = some db' ↔
      (∀ call ∈ calls, ∃ data, call.Fetches data) ∧
        run StageCall.commit db (calls.flatMap stageCalls) = some db' := by
  induction calls generalizing db with
  | nil => simp
  | cons call rest ih =>
      rw [run_cons_eq_some_iff, List.forall_mem_cons, List.flatMap_cons, run_append_eq_some_iff]
      constructor
      · rintro ⟨next, hprocess, hrun⟩
        obtain ⟨data, hfetch, _⟩ := process_eq_some_iff.mp hprocess
        obtain ⟨hfetches, hrest⟩ := ih.mp hrun
        exact ⟨⟨⟨data, hfetch⟩, hfetches⟩, next, process_eq_run hfetch ▸ hprocess, hrest⟩
      · rintro ⟨⟨⟨data, hfetch⟩, hfetches⟩, next, hcommit, hrest⟩
        exact ⟨next, process_eq_run hfetch ▸ hcommit, ih.mpr ⟨hfetches, hrest⟩⟩

theorem independent_stageCalls
    (hindependent : Independent db calls) :
    StageCall.Independent db (calls.flatMap stageCalls) := by
  obtain ⟨hpairwise, hnew⟩ := hindependent
  have hmem : ∀ call : BlockCall, ∀ event ∈ call.stageCalls, event.1 = call := by
    intro call event hevent
    unfold stageCalls at hevent
    split at hevent
    next => exact absurd hevent List.not_mem_nil
    next => exact (List.mem_map.mp hevent).choose_spec.2 ▸ rfl
  constructor
  · refine List.pairwise_flatMap.mpr ⟨fun call _ => ?_, ?_⟩
    · unfold stageCalls
      split
      next => exact .nil
      next =>
        refine List.pairwise_map.mpr ((stages_nodup _).imp fun hne => ?_)
        exact .inl ⟨rfl, hne⟩
    · refine hpairwise.imp fun hapart event hevent event' hevent' => .inr ?_
      rwa [hmem _ event hevent, hmem _ event' hevent']
  · intro event hevent
    obtain ⟨call, hcall, hstage⟩ := List.mem_flatMap.mp hevent
    obtain rfl := hmem call event hstage
    exact ⟨fun _ => (hnew event.1 hcall).1, fun _ => (hnew event.1 hcall).2⟩

end Stages

/-- Calls of new blocks without common transactions succeed in every order if they do in
one, and leave the same rows. -/
theorem order_irrelevant
    {db final : Db}
    {calls calls' : List BlockCall}
    (hperm : calls.Perm calls')
    (hindependent : Independent db calls)
    (hrun : run process db calls = some final) :
    ∃ final', run process db calls' = some final' ∧ SameRows final final' := by
  obtain ⟨hfetches, hcommits⟩ := run_process_eq_some_iff.mp hrun
  obtain ⟨final', hcommits', hsame⟩ := StageCall.commuting_commit.exists_run_of_perm
    (hperm.flatMap_right stageCalls) (independent_stageCalls hindependent) hcommits
  refine ⟨final', run_process_eq_some_iff.mpr ⟨fun call hcall => ?_, hcommits'⟩, hsame⟩
  exact hfetches call (hperm.mem_iff.mpr hcall)

/-! ## Side by side -/

/-- A call with the stages it has still to make. -/
structure RunningCall where
  call : BlockCall
  data : BlockData
  remaining : List Stage
  fetched : call.Fetches data

def RunningCall.stageCalls (running : RunningCall) : List StageCall :=
  running.remaining.map (Prod.mk running.call)

section Interleavings

variable {db : Db} {calls : List BlockCall} {order : List StageCall}

/-- What is left of a call finds the protostones it needs. -/
theorem preloadsFor_of_commit
    {call : BlockCall}
    {data : BlockData}
    {stage : Stage}
    {rest : List Stage}
    (hpreloads : data.PreloadsFor (stage :: rest) db) :
    data.PreloadsFor rest
      (data.after call.attempt.pools (StageCall.written (call, stage) data) db) := by
  rcases hpreloads with hdb | hraw | hnone
  · exact .inl (preloads_after _ (.inr hdb))
  · obtain rfl : stage = .raw := Option.some.inj hraw
    exact .inl (preloads_after _ (.inl (StageCall.mem_written_iff.mpr ⟨rfl, rfl⟩)))
  · exact .inr (.inr fun table hmem => hnone table (List.mem_cons_of_mem stage hmem))

/-- However the stages of blocks apart are interleaved, each finds the protostones of its
own block. -/
theorem run_perform_eq_run_commit
    {running : List RunningCall}
    (hinterleaving : Interleaving (running.map RunningCall.stageCalls) order)
    (hapart : running.Pairwise fun first second => first.call.Apart second.call)
    (hpreloads : ∀ entry ∈ running, entry.data.PreloadsFor entry.remaining db) :
    run StageCall.perform db order = run StageCall.commit db order := by
  generalize hbatches : running.map RunningCall.stageCalls = batches at hinterleaving
  induction hinterleaving generalizing db running with
  | done hempty => rfl
  | next turn event left hturn _ ih =>
      subst hbatches
      rw [List.getElem?_map] at hturn
      obtain ⟨⟨call, data, remaining, hfetch⟩, hentry, hevents⟩ := Option.map_eq_some_iff.mp hturn
      obtain ⟨stage, rest, rfl, rfl, rfl⟩ := List.map_eq_cons_iff.mp hevents
      obtain ⟨hlt, hget⟩ := List.getElem?_eq_some_iff.mp hentry
      obtain ⟨earlier, later, hsplit, _, hset⟩ : ∃ earlier later, _ ∧ _ ∧
          running.set turn (⟨call, data, rest, hfetch⟩ : RunningCall) = _ :=
        List.exists_of_set hlt
      rw [hget] at hsplit
      rw [hsplit] at hapart hpreloads
      have hown := hpreloads _ (List.mem_append_right _ List.mem_cons_self)
      have hstep : StageCall.perform db (call, stage) = StageCall.commit db (call, stage) :=
        StageCall.perform_eq_commit hfetch (preloads_of_head hown)
      rw [run, run, hstep]
      cases hcommit : StageCall.commit db (call, stage) with
      | none => rfl
      | some next =>
          obtain ⟨data', hfetch', _, rfl⟩ := StageCall.commit_eq_some_iff.mp hcommit
          obtain rfl := StageCall.Fetches_unique hfetch hfetch'
          obtain ⟨hearlier, hcons, hcross⟩ := List.pairwise_append.mp hapart
          obtain ⟨hhead, hlater⟩ := List.pairwise_cons.mp hcons
          have hleft : (earlier ++ (⟨call, data, rest, hfetch⟩ : RunningCall) :: later).map
              RunningCall.stageCalls =
                (running.map RunningCall.stageCalls).set turn (rest.map (Prod.mk call)) := by
            rw [← hset, List.map_set]
            rfl
          refine ih ?_ ?_ hleft
          · refine List.pairwise_append.mpr ⟨hearlier, List.pairwise_cons.mpr ⟨hhead, hlater⟩, ?_⟩
            intro other hother entry hentry
            rcases List.mem_cons.mp hentry with rfl | hmem
            · exact hcross other hother ⟨call, data, stage :: rest, hfetch⟩ List.mem_cons_self
            · exact hcross other hother entry (List.mem_cons_of_mem _ hmem)
          · intro entry hentry
            rcases List.mem_append.mp hentry with hmem | hmem
            · have hdisjoint := (hcross entry hmem _ List.mem_cons_self).symm.2 data entry.data
                hfetch entry.fetched
              exact preloadsFor_after_disjoint hdisjoint
                (hpreloads entry (List.mem_append_left _ hmem)) _ _
            · rcases List.mem_cons.mp hmem with rfl | hmem
              · exact preloadsFor_of_commit hown
              · have hdisjoint := (hhead entry hmem).2 data entry.data hfetch entry.fetched
                exact preloadsFor_after_disjoint hdisjoint
                  (hpreloads entry (List.mem_append_right _ (List.mem_cons_of_mem _ hmem))) _ _

/-- New blocks without common transactions that are processed side by side, a stage at a
time, all succeed if and only if they do one after another, and leave the same rows. -/
theorem serializable
    (hindependent : Independent db calls)
    (hfetches : ∀ call ∈ calls, ∃ data, call.Fetches data)
    (hinterleaving : Interleaving (calls.map stageCalls) order) :
    (∀ final, run StageCall.perform db order = some final →
      ∃ final', run process db calls = some final' ∧ SameRows final final') ∧
    ∀ final, run process db calls = some final →
      ∃ final', run StageCall.perform db order = some final' ∧ SameRows final final' := by
  obtain ⟨running, hcalls, hstages⟩ : ∃ running : List RunningCall,
      running.map RunningCall.call = calls ∧
        ∀ entry ∈ running, entry.remaining = entry.data.stages := by
    clear hindependent hinterleaving
    induction calls with
    | nil => exact ⟨[], rfl, fun _ hentry => absurd hentry List.not_mem_nil⟩
    | cons call rest ih =>
        obtain ⟨⟨data, hfetch⟩, hrest⟩ := List.forall_mem_cons.mp hfetches
        obtain ⟨running, hcalls, hstages⟩ := ih hrest
        exact ⟨⟨call, data, data.stages, hfetch⟩ :: running, by rw [List.map_cons, hcalls],
          List.forall_mem_cons.mpr ⟨rfl, hstages⟩⟩
  subst hcalls
  have hbatches : running.map RunningCall.stageCalls =
      (running.map RunningCall.call).map BlockCall.stageCalls := by
    rw [List.map_map]
    refine List.map_congr_left fun entry hentry => ?_
    rw [RunningCall.stageCalls, hstages entry hentry]
    exact (stageCalls_of_fetches entry.fetched).symm
  have hcommits : run StageCall.perform db order = run StageCall.commit db order := by
    rw [← hbatches] at hinterleaving
    refine run_perform_eq_run_commit hinterleaving (List.pairwise_map.mp hindependent.1)
      fun entry hentry => ?_
    rw [hstages entry hentry]
    exact preloadsFor_stages entry.data db
  have hperm := hinterleaving.perm
  rw [← List.flatMap_def] at hperm
  have hfits := independent_stageCalls hindependent
  rw [hcommits]
  constructor
  · intro final hrun
    obtain ⟨final', hserial, hsame⟩ := StageCall.commuting_commit.exists_run_of_perm hperm
      (StageCall.commuting_commit.fits_perm hperm.symm hfits) hrun
    exact ⟨final', run_process_eq_some_iff.mpr ⟨hfetches, hserial⟩, hsame⟩
  · intro final hrun
    exact StageCall.commuting_commit.exists_run_of_perm hperm.symm hfits
      (run_process_eq_some_iff.mp hrun).2

end Interleavings

/-! ## Processing again -/

theorem process_again
    {call : BlockCall}
    {db db' : Db}
    (hprocess : call.process db = some db') :
    call.process db' = some db' := by
  obtain ⟨data, hfetch, hready, rfl⟩ := process_eq_some_iff.mp hprocess
  refine process_eq_some_iff.mpr ⟨data, hfetch, fun stage hstage => ?_, ?_⟩
  · exact (stageReady_after_iff _ stage).mpr (hready stage hstage)
  · rw [after_after]
    exact after_congr data _ db fun stage => by rw [List.mem_append, or_self]

theorem process_congr
    {call : BlockCall}
    {db db' next : Db}
    (hsame : SameRows db db')
    (hprocess : call.process db = some next) :
    ∃ next', call.process db' = some next' ∧ SameRows next next' := by
  obtain ⟨data, hfetch, _⟩ := process_eq_some_iff.mp hprocess
  rw [process_eq_run hfetch] at hprocess ⊢
  exact StageCall.commuting_commit.exists_run hsame hprocess

section Again

variable {db final : Db} {calls : List BlockCall}

/-- Each of the calls could have been the last one. -/
theorem unchanged_of_mem
    (hindependent : Independent db calls)
    (hrun : run process db calls = some final)
    {call : BlockCall}
    (hcall : call ∈ calls) :
    ∃ again, call.process final = some again ∧ SameRows final again := by
  obtain ⟨earlier, later, rfl⟩ := List.append_of_mem hcall
  have hlast : (earlier ++ call :: later).Perm (earlier ++ later ++ [call]) :=
    List.perm_middle.trans (List.perm_append_singleton call (earlier ++ later)).symm
  obtain ⟨moved, hmoved, hsame⟩ := order_irrelevant hlast hindependent hrun
  obtain ⟨before, _, hprocess⟩ := run_concat_eq_some_iff.mp hmoved
  obtain ⟨again, hagain, hsame'⟩ := process_congr hsame.symm (process_again hprocess)
  exact ⟨again, hagain, hsame.trans hsame'⟩

/-- Blocks that have been processed can be processed again in any order and any number of
times: every call succeeds and no row changes. -/
theorem replayed_unchanged
    (hindependent : Independent db calls)
    (hrun : run process db calls = some final)
    {again : List BlockCall}
    (hagain : again ⊆ calls) :
    ∃ final', run process final again = some final' ∧ SameRows final final' := by
  suffices hfrom : ∀ state, SameRows final state →
      ∃ final', run process state again = some final' ∧ SameRows final final' from
    hfrom final (SameRows.refl final)
  intro state hsame
  induction again generalizing state with
  | nil => exact ⟨state, rfl, hsame⟩
  | cons call rest ih =>
      obtain ⟨hcall, hrest⟩ := List.cons_subset.mp hagain
      obtain ⟨next, hnext, hunchanged⟩ := unchanged_of_mem hindependent hrun hcall
      obtain ⟨next', hnext', hsame'⟩ := process_congr hsame hnext
      obtain ⟨final', hfinal, hend⟩ :=
        ih hrest next' (hunchanged.trans hsame')
      exact ⟨final', run_cons_eq_some_iff.mpr ⟨next', hnext', hfinal⟩, hend⟩

end Again

def mintingCall : BlockCall := ⟨mintingAttempt, 5, false⟩

def nextCall : BlockCall := ⟨.smooth (.serving "next" [("b1", [])]) [mintedPool], 6, true⟩

theorem independent_twoCalls :
    Independent .empty [mintingCall, nextCall] := by
  have hnew : ∀ call : BlockCall, call.New .empty := fun call =>
    ⟨fun _ _ row hrow => absurd hrow List.not_mem_nil, fun row hrow => absurd hrow List.not_mem_nil⟩
  refine ⟨List.pairwise_pair.mpr ⟨by decide, fun data data' hfetch hfetch' => ?_⟩,
    fun call _ => hnew call⟩
  have htxids : (fetchBlock mintingCall.attempt.rpc mintingCall.attempt.schedule
      mintingCall.height).toOption.map BlockData.txids = some ["a1"] := by decide
  have htxids' : (fetchBlock nextCall.attempt.rpc nextCall.attempt.schedule
      nextCall.height).toOption.map BlockData.txids = some ["b1"] := by decide
  have hdata : data.txids = ["a1"] := Option.some.inj (by rw [← htxids, hfetch]; rfl)
  have hdata' : data'.txids = ["b1"] := Option.some.inj (by rw [← htxids', hfetch']; rfl)
  rw [hdata, hdata', List.disjoint_singleton]
  decide

theorem twoCalls_in_either_order :
    ∃ final final', run process .empty [mintingCall, nextCall] = some final ∧
      run process .empty [nextCall, mintingCall] = some final' ∧ SameRows final final' := by
  have hruns : (run process .empty [mintingCall, nextCall]).isSome = true := by decide +kernel
  obtain ⟨final, hrun⟩ := Option.isSome_iff_exists.mp hruns
  obtain ⟨final', hrun', hsame⟩ :=
    order_irrelevant (.swap nextCall mintingCall []) independent_twoCalls hrun
  exact ⟨final, final', hrun, hrun', hsame⟩

/-- The stages of the two calls take turns. -/
theorem twoCalls_side_by_side :
    ∃ final final', run process .empty [mintingCall, nextCall] = some final ∧
      run StageCall.perform .empty ((mintingCall.stageCalls.zip nextCall.stageCalls).flatMap
        fun turn => [turn.1, turn.2]) = some final' ∧ SameRows final final' := by
  have hruns : (run process .empty [mintingCall, nextCall]).isSome = true := by decide +kernel
  have hlength : mintingCall.stageCalls.length = nextCall.stageCalls.length := by decide +kernel
  obtain ⟨final, hrun⟩ := Option.isSome_iff_exists.mp hruns
  obtain ⟨hfetches, _⟩ := run_process_eq_some_iff.mp hrun
  obtain ⟨final', hrun', hsame⟩ :=
    (serializable independent_twoCalls hfetches (interleaving_zip hlength)).2 final hrun
  exact ⟨final, final', hrun, hrun', hsame⟩

theorem twoCalls_replayed :
    ∃ final final', run process .empty [mintingCall, nextCall] = some final ∧
      run process final [nextCall, mintingCall, mintingCall] = some final' ∧
      SameRows final final' := by
  have hruns : (run process .empty [mintingCall, nextCall]).isSome = true := by decide +kernel
  obtain ⟨final, hrun⟩ := Option.isSome_iff_exists.mp hruns
  have hagain : [nextCall, mintingCall, mintingCall] ⊆ [mintingCall, nextCall] := by simp
  obtain ⟨final', hrun', hsame⟩ := replayed_unchanged independent_twoCalls hrun hagain
  exact ⟨final, final', hrun, hrun', hsame⟩

end BlockCall

end AlkanesIndexer
