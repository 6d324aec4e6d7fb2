import AlkanesIndexer.PublishOrder
import AlkanesIndexer.StageCommits

/-!
# What a notification promises

A height is notified of behind the last stage of its processing.  Each stage has put the
rows of its transactions in place of the old ones, and the rows stay there until another
processing writes to these transactions.  So who reads the tables on a notification finds
the whole block, as long as the two loops are at different transactions.
-/

namespace AlkanesIndexer

open KeyedRows Runs

/-! ## The tables of a processing -/

/-- The tables behind the stages a processing has made: their rows for its transactions are
its own, and in the tables that it skips or has not come to they are as they were when it
began. -/
structure Processing.UpTo (processing : Processing) (began db : Db) : Prop where
  remaining : processing.remaining <:+ processing.data.stages
  preloads : processing.data.PreloadsFor processing.remaining db
  rows : ∀ table : Table, table.stage ∈ processing.data.stages →
    ∀ txid ∈ processing.data.txids, rowsOf table.transactionId (db.rows table) txid =
      if table.stage ∈ processing.remaining ∨
          processing.data.skipped processing.attempt.pools table.stage = true then
        rowsOf table.transactionId (began.rows table) txid
      else
        rowsOf table.transactionId
          (written table (processing.data.batch processing.attempt.pools table)) txid

section UpTo

variable {attempt : Attempt} {data : BlockData} {began db : Db}

theorem upTo_fetched
    (execution : Execution) :
    Processing.UpTo ⟨attempt, data, data.stages, execution⟩ db db where
  remaining := List.suffix_rfl
  preloads := preloadsFor_stages data db
  rows := fun _ hstage _ _ => (if_pos (.inl hstage)).symm

theorem upTo_after
    {stage : Stage}
    {rest : List Stage}
    {execution : Execution}
    (hupTo : Processing.UpTo ⟨attempt, data, stage :: rest, execution⟩ began db)
    (execution' : Execution) :
    Processing.UpTo ⟨attempt, data, rest, execution'⟩ began
      (data.after attempt.pools
        ([stage].filter fun stage => !data.skipped attempt.pools stage) db) := by
  obtain ⟨hsuffix, hpreloads, hrows⟩ := hupTo
  dsimp only at hsuffix hpreloads hrows
  have hnodup : (stage :: rest).Nodup := (stages_nodup data).sublist hsuffix.sublist
  obtain ⟨hnot, _⟩ := List.nodup_cons.mp hnodup
  refine ⟨(List.suffix_cons stage rest).trans hsuffix, ?_, fun table hstage txid htxid => ?_⟩
  · rcases hpreloads with hdb | hraw | hnone
    · exact .inl (preloads_after _ (.inr hdb))
    · obtain rfl : stage = .raw := Option.some.inj hraw
      exact .inl (preloads_after _ (.inl (List.mem_singleton_self Stage.raw)))
    · exact .inr (.inr fun table hmem => hnone table (List.mem_cons_of_mem stage hmem))
  · rw [rowsOf_after]
    dsimp only
    have hold := hrows table hstage txid htxid
    by_cases hown : table.stage = stage
    · subst hown
      cases hskipped : data.skipped attempt.pools table.stage with
      | true => simp [hskipped, hold]
      | false => simp [hskipped, htxid, hnot]
    · have hother : table.stage ∉
          [stage].filter fun stage => !data.skipped attempt.pools stage :=
        fun hmem => hown (List.mem_singleton.mp (List.mem_filter.mp hmem).1)
      rw [if_neg fun h => hother h.2, hold]
      simp [hown]

theorem Processing.UpTo.after_disjoint
    {processing : Processing}
    {data' : BlockData}
    (hupTo : processing.UpTo began db)
    (hdisjoint : data'.txids.Disjoint processing.data.txids)
    (pools : DerivedTable → List PoolRow)
    (stages : List Stage) :
    processing.UpTo began (data'.after pools stages db) where
  remaining := hupTo.remaining
  preloads := preloadsFor_after_disjoint hdisjoint hupTo.preloads pools stages
  rows := fun table hstage txid htxid => by
    rw [rowsOf_after, if_neg fun h => hdisjoint h.1 htxid]
    exact hupTo.rows table hstage txid htxid

end UpTo

namespace Service

/-- The processings of the two loops have no transaction in common. -/
def Separate (service : Service) : Prop :=
  ∀ session other processing processing', session ≠ other →
    service.running session = some processing → service.running other = some processing' →
    processing.data.txids.Disjoint processing'.data.txids

/-- No processing of the transaction is under way. -/
def Quiet (txid : String) (service : Service) : Prop :=
  ∀ session processing, service.running session = some processing → txid ∉ processing.data.txids

variable {startHeight : Option ℕ} {first service service' : Service} {session : Session}
  {actions : List ServiceAction} {action : ServiceAction} {processing : Processing} {db : Db}

/-! ## From the fetch on -/

variable (startHeight first actions session db processing) in
/-- The processing goes back to the action that fetched its block. -/
def Traced : Prop :=
  ∃ earlier later began height,
    actions = earlier ++ .fetches session processing.attempt :: later ∧
    run startHeight first earlier = some began ∧
    began.loops.current session = some height ∧
    fetchBlock processing.attempt.rpc processing.attempt.schedule height = .ok processing.data ∧
    processing.UpTo began.db db

theorem Traced.concat
    {db' : Db}
    (htraced : Traced startHeight first session actions processing db)
    (action : ServiceAction)
    (processing' : Processing)
    (hattempt : processing'.attempt = processing.attempt)
    (hdata : processing'.data = processing.data)
    (hupTo : ∀ began, processing.UpTo began db → processing'.UpTo began db') :
    Traced startHeight first session (actions ++ [action]) processing' db' := by
  obtain ⟨earlier, later, began, height, rfl, hrun, hcurrent, hfetch, hrows⟩ := htraced
  refine ⟨earlier, later ++ [action], began, height, ?_, hrun, hcurrent, ?_, hupTo began.db hrows⟩
  · rw [hattempt, List.append_assoc, List.cons_append]
  · rw [hattempt, hdata]
    exact hfetch

theorem traced_fetches
    {attempt : Attempt}
    (htraced : ∀ session processing, service.running session = some processing →
      Traced startHeight first session actions processing service.db)
    (hrun : run startHeight first actions = some service)
    (hfetches : service.fetches startHeight session attempt = some service') :
    ∀ other processing, service'.running other = some processing →
      Traced startHeight first other (actions ++ [.fetches session attempt]) processing
        service'.db := by
  obtain ⟨height, hcurrent, _, hreturns | ⟨data, hfetch, rfl⟩⟩ := fetches_cases hfetches
  · obtain ⟨loops, _, rfl⟩ := returns_cases hreturns
    intro other processing hrunning
    by_cases hother : other = session
    · subst hother
      simp [runs] at hrunning
    · simp only [runs, Function.update_of_ne hother] at hrunning
      exact (htraced other processing hrunning).concat _ processing rfl rfl fun _ h => h
  · intro other processing hrunning
    by_cases hother : other = session
    · subst hother
      simp only [runs, Function.update_self, Option.some.injEq] at hrunning
      subst hrunning
      exact ⟨actions, [], service, height, rfl, hrun, hcurrent, hfetch, upTo_fetched _⟩
    · simp only [runs, Function.update_of_ne hother] at hrunning
      exact (htraced other processing hrunning).concat _ processing rfl rfl fun _ h => h

/-- A stage that finds its protostones puts its rows in place of the old ones, and its
processing goes on with the next one or is over. -/
theorem db_of_writes
    (hpreloads : ∀ processing, service.running session = some processing →
      processing.data.PreloadsFor processing.remaining service.db)
    (hwrites : service.writes startHeight session = some service') :
    ∃ attempt data stage rest execution stages,
      service.running session = some ⟨attempt, data, stage :: rest, execution⟩ ∧
      service'.db = data.after attempt.pools stages service.db ∧
      ((∃ execution', service'.running =
            Function.update service.running session (some ⟨attempt, data, rest, execution'⟩) ∧
          stages = [stage].filter fun stage => !data.skipped attempt.pools stage) ∨
        service'.running = Function.update service.running session none) := by
  obtain ⟨attempt, data, stage, rest, execution, hrunning, result, hresult, hcases⟩ :=
    writes_cases hwrites
  obtain ⟨done, heffect⟩ := runStage_effect attempt data { execution with db := service.db } stage
    (preloads_of_head (hpreloads _ hrunning))
  rw [← hresult] at heffect
  obtain ⟨hdb, _⟩ := wrote_db service session data.height result.1
  obtain ⟨_, hsame, _⟩ := wrote_same service session data.height result.1
  refine ⟨attempt, data, stage, rest, execution,
    done.filter fun stage => !data.skipped attempt.pools stage, hrunning, ?_⟩
  rcases hcases with ⟨hok, rfl⟩ | hreturns
  · refine ⟨hdb.trans heffect.db_eq, .inl ⟨result.1, ?_, by rw [heffect.complete hok]⟩⟩
    rw [← hsame]
    rfl
  · obtain ⟨loops, _, rfl⟩ := returns_cases hreturns
    refine ⟨hdb.trans heffect.db_eq, .inr ?_⟩
    rw [← hsame]
    rfl

theorem traced_writes
    (htraced : ∀ session processing, service.running session = some processing →
      Traced startHeight first session actions processing service.db)
    (hseparate : service.Separate)
    (hwrites : service.writes startHeight session = some service') :
    ∀ other processing, service'.running other = some processing →
      Traced startHeight first other (actions ++ [.writes session]) processing service'.db := by
  obtain ⟨attempt, data, stage, rest, execution, stages, hrunning, hdb, hcases⟩ :=
    db_of_writes (fun processing hrunning => by
      obtain ⟨_, _, _, _, _, _, _, _, hupTo⟩ := htraced session processing hrunning
      exact hupTo.preloads) hwrites
  rw [hdb]
  intro other processing hother
  by_cases hsame : other = session
  · subst hsame
    rcases hcases with ⟨execution', hrunning', rfl⟩ | hrunning'
    · rw [hrunning', Function.update_self, Option.some.injEq] at hother
      subst hother
      exact (htraced other _ hrunning).concat _ ⟨attempt, data, rest, execution'⟩ rfl rfl
        fun _ h => upTo_after h execution'
    · rw [hrunning', Function.update_self] at hother
      cases hother
  · have hkept : service.running other = some processing := by
      rcases hcases with ⟨execution', hrunning', _⟩ | hrunning' <;>
        rwa [hrunning', Function.update_of_ne hsame] at hother
    have hdisjoint := hseparate session other _ processing (Ne.symm hsame) hrunning hkept
    exact (htraced other processing hkept).concat _ processing rfl rfl
      fun _ h => h.after_disjoint hdisjoint attempt.pools stages

theorem same_of_ends
    (hends : service.ends startHeight session = some service') :
    service'.db = service.db ∧ service'.running = Function.update service.running session none := by
  obtain ⟨_, data, _, _, hreturns⟩ := ends_cases hends
  obtain ⟨loops, _, rfl⟩ := returns_cases hreturns
  split <;> exact ⟨rfl, rfl⟩

theorem traced_run
    (hstart : ∀ session, first.running session = none)
    (hindexer : ∀ db, .otherWrites db ∉ actions)
    (hseparate : Throughout (step startHeight) Separate first actions)
    (hrun : run startHeight first actions = some service) :
    ∀ session processing, service.running session = some processing →
      Traced startHeight first session actions processing service.db := by
  induction actions using List.reverseRecOn generalizing service with
  | nil =>
      cases hrun
      intro session processing hrunning
      rw [hstart session] at hrunning
      cases hrunning
  | append_singleton actions action ih =>
      obtain ⟨last, hlast, hstep⟩ := run_concat_eq_some_iff.mp hrun
      have htraced := ih (fun db hmem => hindexer db (List.mem_append_left _ hmem))
        hseparate.of_append hlast
      cases action with
      | fetches session attempt => exact traced_fetches htraced hlast hstep
      | writes session => exact traced_writes htraced (hseparate.of_append.last hlast) hstep
      | otherWrites db =>
          exact absurd (List.mem_append_right _ (List.mem_singleton_self _)) (hindexer db)
      | calls action =>
          simp only [step, Option.ite_none_left_eq_some, Option.map_eq_some_iff] at hstep
          obtain ⟨_, loops, _, rfl⟩ := hstep
          intro session processing hrunning
          exact (htraced session processing hrunning).concat _ processing rfl rfl fun _ h => h
      | ends session =>
          obtain ⟨hdb, hrunning'⟩ := same_of_ends hstep
          rw [hdb, hrunning']
          intro other processing hrunning
          by_cases hother : other = session
          · rw [hother, Function.update_self] at hrunning
            cases hrunning
          · rw [Function.update_of_ne hother] at hrunning
            exact (htraced other processing hrunning).concat _ processing rfl rfl fun _ h => h

/-! ## From the end on -/

/-- The tables keep the rows of a transaction as long as no processing is at it. -/
theorem rows_kept
    {later : List ServiceAction}
    {txid : String}
    (hstart : ∀ session, first.running session = none)
    (hindexer : ∀ db, .otherWrites db ∉ actions ++ later)
    (hseparate : Throughout (step startHeight) Separate first (actions ++ later))
    (hrun : run startHeight first actions = some service)
    (hquiet : Throughout (step startHeight) (Quiet txid) service later)
    (hlater : run startHeight service later = some service')
    (table : Table) :
    rowsOf table.transactionId (service'.db.rows table) txid =
      rowsOf table.transactionId (service.db.rows table) txid := by
  induction later using List.reverseRecOn generalizing service' with
  | nil =>
      cases hlater
      rfl
  | append_singleton later action ih =>
      rw [← List.append_assoc] at hindexer hseparate
      obtain ⟨last, hlast, hstep⟩ := run_concat_eq_some_iff.mp hlater
      have hwhole : run startHeight first (actions ++ later) = some last :=
        run_append_eq_some_iff.mpr ⟨service, hrun, hlast⟩
      have hbefore : ∀ db, .otherWrites db ∉ actions ++ later :=
        fun db hmem => hindexer db (List.mem_append_left _ hmem)
      have hkept := ih hbefore hseparate.of_append hquiet.of_append hlast
      rw [← hkept]
      cases action with
      | fetches session attempt =>
          obtain ⟨height, _, _, hreturns | ⟨data, _, rfl⟩⟩ := fetches_cases hstep
          · obtain ⟨loops, _, rfl⟩ := returns_cases hreturns
            rfl
          · rfl
      | writes session =>
          have htraced := traced_run hstart hbefore hseparate.of_append hwhole
          obtain ⟨attempt, data, stage, rest, execution, stages, hrunning, hdb, _⟩ :=
            db_of_writes (fun processing hrunning => by
              obtain ⟨_, _, _, _, _, _, _, _, hupTo⟩ := htraced session processing hrunning
              exact hupTo.preloads) hstep
          have hother := (hquiet.of_append.last hlast) session _ hrunning
          rw [hdb, rowsOf_after, if_neg fun h => hother h.1]
      | otherWrites db =>
          exact absurd (List.mem_append_right _ (List.mem_singleton_self _)) (hindexer db)
      | calls action =>
          simp only [step, Option.ite_none_left_eq_some, Option.map_eq_some_iff] at hstep
          obtain ⟨_, loops, _, rfl⟩ := hstep
          rfl
      | ends session => rw [(same_of_ends hstep).1]

/-- A height has been notified of by the end of a processing of it. -/
theorem exists_ends_of_published
    {height : ℕ}
    (hrun : run startHeight first actions = some service)
    (hpublished : height ∈ service.published) :
    height ∈ first.published ∨
      ∃ before after last processing, actions = before ++ .ends .poller :: after ∧
        run startHeight first before = some last ∧
        last.running .poller = some processing ∧ processing.remaining = [] ∧
        processing.data.height = height := by
  induction actions using List.reverseRecOn generalizing service with
  | nil =>
      cases hrun
      exact .inl hpublished
  | append_singleton actions action ih =>
      obtain ⟨last, hlast, hstep⟩ := run_concat_eq_some_iff.mp hrun
      have hold : height ∈ last.published → height ∈ first.published ∨
          ∃ before after last processing, actions ++ [action] = before ++ .ends .poller :: after ∧
            run startHeight first before = some last ∧
            last.running .poller = some processing ∧ processing.remaining = [] ∧
            processing.data.height = height := by
        intro hmem
        refine (ih hlast hmem).imp_right ?_
        rintro ⟨before, after, last, processing, rfl, hrest⟩
        exact ⟨before, after ++ [action], last, processing, by simp, hrest⟩
      cases action with
      | fetches session attempt =>
          obtain ⟨_, _, _, hreturns | ⟨data, _, rfl⟩⟩ := fetches_cases hstep
          · obtain ⟨loops, _, rfl⟩ := returns_cases hreturns
            exact hold (by simpa [published, runs] using hpublished)
          · exact hold (by simpa [published, runs] using hpublished)
      | writes session =>
          obtain ⟨_, data, _, _, _, _, result, _, hcases⟩ := writes_cases hstep
          obtain ⟨_, hsame⟩ := wrote_db last session data.height result.1
          rcases hcases with ⟨_, rfl⟩ | hreturns
          · exact hold (hsame ▸ hpublished)
          · obtain ⟨loops, _, rfl⟩ := returns_cases hreturns
            exact hold (hsame ▸ hpublished)
      | otherWrites db =>
          cases hstep
          exact hold hpublished
      | calls action =>
          simp only [step, Option.ite_none_left_eq_some, Option.map_eq_some_iff] at hstep
          obtain ⟨_, loops, _, rfl⟩ := hstep
          exact hold hpublished
      | ends session =>
          obtain ⟨attempt, data, execution, hrunning, hreturns⟩ := ends_cases hstep
          obtain ⟨loops, _, rfl⟩ := returns_cases hreturns
          cases session with
          | coordinator => exact hold hpublished
          | poller =>
              rcases List.mem_append.mp (published_logs _ ▸ hpublished) with hmem | hmem
              · exact hold hmem
              · rw [if_pos rfl, List.mem_singleton] at hmem
                exact .inr ⟨actions, [], last, _, rfl, hlast, hrunning, rfl, hmem.symm⟩

/-- Without a start height the coordinator never begins. -/
theorem waiting_of_following
    {progress : Option ℕ}
    (hrun : run none (start progress db) actions = some service) :
    service.Sound ∧ service.loops.coordinator = .waiting := by
  refine invariant_of_run
    (P := fun state => state.Sound ∧ state.loops.coordinator = .waiting)
    (fun before action after hbefore hstep => ?_) ⟨sound_start progress db, rfl⟩ hrun
  obtain ⟨hsound, hwaiting⟩ := hbefore
  refine ⟨sound_step hsound hstep, ?_⟩
  rcases follows_step hsound hstep with ⟨hloops, _⟩ | ⟨call, hloops, _⟩
  · rw [hloops]
    exact hwaiting
  · generalize after.loops = loops at hloops
    cases steps_of_step hloops with
    | pollerTip => exact hwaiting
    | pollerRefreshed => exact hwaiting
    | pollerProcessed => exact hwaiting
    | coordinatorTip _ _ hsignalled => simp at hsignalled
    | coordinatorRead _ _ _ hstart => cases hstart
    | coordinatorProcessed _ _ _ hcurrent =>
        rw [hwaiting] at hcurrent
        cases hcurrent
    | coordinatorSaved _ _ hsaved =>
        obtain ⟨_, _, hphase, _⟩ := saved_cases hsaved
        rw [hwaiting] at hphase
        cases hphase

theorem separate_of_following
    {progress : Option ℕ} :
    Throughout (step none) Separate (start progress db) actions := by
  intro earlier service _ hrun
  obtain ⟨hsound, hwaiting⟩ := waiting_of_following hrun
  have hnone : service.running .coordinator = none := by
    by_contra hsome
    obtain ⟨processing, hrunning⟩ := Option.ne_none_iff_exists'.mp hsome
    have hcurrent := hsound.current .coordinator processing hrunning
    rw [Loops.current, hwaiting] at hcurrent
    cases hcurrent
  intro session other processing processing' hne hrunning hrunning'
  cases session with
  | coordinator =>
      rw [hnone] at hrunning
      cases hrunning
  | poller =>
      cases other with
      | coordinator =>
          rw [hnone] at hrunning'
          cases hrunning'
      | poller => exact absurd rfl hne

end Service

/-- The block of a height is complete: a processing of the poller has ended, and until
another processing comes to its transactions the tables hold for them the rows that the
attempt has computed and no others.  The tables it skips hold what they held when it began. -/
def Service.Completed
    (startHeight : Option ℕ)
    (first : Service)
    (actions : List ServiceAction)
    (service : Service)
    (height : ℕ) : Prop :=
  ∃ before attempt middle after began ended data,
    actions = before ++ .fetches .poller attempt :: middle ++ .ends .poller :: after ∧
    run startHeight first before = some began ∧
    run startHeight first (before ++ .fetches .poller attempt :: middle ++ [.ends .poller]) =
      some ended ∧
    fetchBlock attempt.rpc attempt.schedule height = .ok data ∧
    ∀ txid ∈ data.txids, Throughout (step startHeight) (Quiet txid) ended after →
      ∀ table : Table, rowsOf table.transactionId (service.db.rows table) txid =
        if data.skipped attempt.pools table.stage = true then
          rowsOf table.transactionId (began.db.rows table) txid
        else rowsOf table.transactionId (written table (data.batch attempt.pools table)) txid

/-- Every block that has been notified of is complete, as long as the loops are at different
transactions. -/
theorem published_rows
    {startHeight progress : Option ℕ}
    {db : Db}
    {actions : List ServiceAction}
    {service : Service}
    (hrun : Service.run startHeight (.start progress db) actions = some service)
    (hindexer : ∀ db', .otherWrites db' ∉ actions)
    (hseparate :
      Throughout (Service.step startHeight) Service.Separate (.start progress db) actions) :
    ∀ height ∈ service.published,
      Service.Completed startHeight (.start progress db) actions service height := by
  intro height hpublished
  obtain ⟨earlier, after, last, processing, rfl, hlast, hrunning, hremaining, hheight⟩ :=
    (Service.exists_ends_of_published hrun hpublished).resolve_left List.not_mem_nil
  have hidle : ∀ session, (Service.start progress db).running session = none := fun _ => rfl
  obtain ⟨before, middle, began, height', rfl, hbegan, hcurrent, hfetch, hupTo⟩ :=
    Service.traced_run hidle (fun db' hmem => hindexer db' (List.mem_append_left _ hmem))
      hseparate.of_append hlast .poller processing hrunning
  obtain rfl : height' = height := (height_of_fetchBlock hfetch).1.symm.trans hheight
  obtain ⟨ended, hended, hafter⟩ : ∃ ended,
      Service.run startHeight (.start progress db)
        (before ++ .fetches .poller processing.attempt :: middle ++ [.ends .poller]) = some ended ∧
      Service.run startHeight ended after = some service := by
    refine run_append_eq_some_iff.mp ?_
    rw [List.append_assoc]
    exact hrun
  refine ⟨before, processing.attempt, middle, after, began, ended, processing.data, rfl, hbegan,
    hended, hfetch, fun txid htxid hquiet table => ?_⟩
  have hstage : table.stage ∈ processing.data.stages := by
    refine stage_mem_stages processing.data ?_ table
    by_contra hreturn
    have hresults := processing.data.results_nil (Bool.eq_false_of_not_eq_true hreturn)
    rw [BlockData.txids, hresults] at htxid
    exact List.not_mem_nil htxid
  obtain ⟨last', hlast', hends⟩ := run_concat_eq_some_iff.mp hended
  obtain rfl : last' = last := Option.some.inj (hlast'.symm.trans hlast)
  rw [List.append_cons] at hindexer hseparate
  rw [Service.rows_kept hidle hindexer hseparate hended hquiet hafter table,
    (Service.same_of_ends hends).1, hupTo.rows table hstage txid htxid, hremaining]
  simp only [List.not_mem_nil, false_or]

/-- The poller is started at the tip 5 and processes the block of `mintingAttempt`. -/
def noticedBlock : List ServiceAction :=
  [.calls (.pollerTip (some 5)), .calls .pollerRefreshed, .fetches .poller mintingAttempt] ++
    List.replicate 8 (.writes .poller) ++ [.ends .poller, .calls (.pollerTip (some 5))]

theorem noticedBlock_complete :
    ∃ service, Service.run none (.start none .empty) noticedBlock = some service ∧
      service.published = [5] ∧
      Service.Completed none (.start none .empty) noticedBlock service 5 := by
  have hpublished : (Service.run none (.start none .empty) noticedBlock).map Service.published =
      some [5] := by decide +kernel
  obtain ⟨service, hrun, hnoticed⟩ := Option.map_eq_some_iff.mp hpublished
  refine ⟨service, hrun, hnoticed, published_rows hrun (fun db' hmem => ?_)
    Service.separate_of_following 5 (by rw [hnoticed]; exact List.mem_singleton_self 5)⟩
  simp [noticedBlock] at hmem

end AlkanesIndexer
