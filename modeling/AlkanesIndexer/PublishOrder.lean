import AlkanesIndexer.MalformedBlocks
import AlkanesIndexer.StagedIndexer

/-!
# The order of the notifications

As long as the tips the poller observes do not decrease, its pointer goes up by
one, and so do the heights it notifies of.
-/

namespace AlkanesIndexer

open Runs Sequences

/-! ## The pointer and the notified heights -/

/-- The height that is notified of at the end of a call. -/
def Loops.announced (loops : Loops) : LoopAction → Option ℕ
  | .pollerProcessed true => loops.poller.current
  | _ => none

/-- What holds between the tips the poller has observed and its pointer when the
tips do not decrease. -/
structure Loops.Climbs (loops : Loops) (tips : List ℕ) : Prop where
  pointer : ∀ prev, loops.poller.lastHeight = some prev →
    ∃ tip, tips.getLast? = some tip ∧ prev ≤ tip
  refreshing : ∀ tip, loops.poller.phase = .refreshing tip →
    tips.getLast? = some tip ∧ ∀ prev, loops.poller.lastHeight = some prev → prev < tip
  processing : ∀ height tip, loops.poller.phase = .processing height tip →
    tips.getLast? = some tip ∧ height ≤ tip

/-- The notified heights are those up to the pointer, from the first tip on if it
was processed with success and else from the one behind it. -/
structure Loops.Announces
    (startHeight : Option ℕ)
    (loops : Loops)
    (published : List ℕ) : Prop where
  fresh : loops.poller.lastHeight = none → published = []
  quiet : startHeight ≠ none → loops.poller.lastHeight = none → loops.poller.current = none
  upTo : ∀ first prev, loops.firstTip = some first → loops.poller.lastHeight = some prev →
    ∃ start, (start = first + 1 ∨ start = first ∧ startHeight = none) ∧ start ≤ prev + 1 ∧
      published = List.range' start (prev + 1 - start)

section LoopSteps

variable {startHeight : Option ℕ} {loops loops' : Loops} {tips published : List ℕ}

theorem climbs_start
    (progress : Option ℕ) :
    Loops.Climbs { Loops.start with progress := progress } [] := by
  constructor <;> simp [Loops.start, Poller.start]

theorem announces_start
    (progress : Option ℕ) :
    Loops.Announces startHeight { Loops.start with progress := progress } [] := by
  constructor <;> simp [Loops.start, Poller.start, Poller.current]

theorem climbs_step
    {action : LoopAction}
    (hclimbs : loops.Climbs tips)
    (htips : (tips ++ action.seenTip.toList).Pairwise (· ≤ ·))
    (hstep : loops.step startHeight action = some loops') :
    loops'.Climbs (tips ++ action.seenTip.toList) := by
  obtain ⟨hpointer, hrefreshing, hprocessing⟩ := hclimbs
  cases steps_of_step hstep
  all_goals simp only [LoopAction.seenTip, Option.toList_none, List.append_nil] at htips ⊢
  case pollerTip answer poller' htip =>
    obtain ⟨hwaiting, ⟨rfl, rfl⟩ | ⟨height, rfl, hcases⟩⟩ := tip_cases htip
    · rw [Option.toList_none, List.append_nil]
      exact ⟨hpointer, hrefreshing, hprocessing⟩
    · have hbelow : ∀ prev, loops.poller.lastHeight = some prev → prev ≤ height := by
        intro prev hprev
        obtain ⟨tip, hlast, hle⟩ := hpointer prev hprev
        have hmem : tip ∈ tips := List.mem_of_getLast? hlast
        have hordered := (List.pairwise_append.mp htips).2.2 tip hmem height List.mem_cons_self
        exact hle.trans hordered
      have hlast : (tips ++ (some height).toList).getLast? = some height :=
        List.getLast?_concat
      have hreaches : ∀ prev, loops.poller.lastHeight = some prev →
          ∃ tip, (tips ++ (some height).toList).getLast? = some tip ∧ prev ≤ tip :=
        fun prev hprev => ⟨height, hlast, hbelow prev hprev⟩
      rcases hcases with ⟨hnone, rfl⟩ | ⟨prev, hprev, ⟨hlt, rfl⟩ | ⟨hlt, rfl⟩ | ⟨_, rfl⟩⟩
      · refine ⟨hreaches, ?_, nofun⟩
        intro tip hphase
        cases hphase
        refine ⟨hlast, fun prev hprev => ?_⟩
        dsimp only at hprev
        rw [hnone] at hprev
        cases hprev
      · refine ⟨hreaches, ?_, nofun⟩
        intro tip hphase
        cases hphase
        refine ⟨hlast, fun prev' hprev' => ?_⟩
        dsimp only at hprev'
        rw [hprev, Option.some.injEq] at hprev'
        rw [← hprev']
        exact hlt
      · exact absurd (hbelow prev hprev) (by omega)
      · refine ⟨hreaches, ?_, ?_⟩
        · intro tip hphase
          rw [hwaiting] at hphase
          cases hphase
        · intro _ tip hphase
          rw [hwaiting] at hphase
          cases hphase
  case pollerRefreshed poller' hrefreshed =>
    obtain ⟨tip, hphase, hcases⟩ := refreshed_cases hrefreshed
    obtain ⟨hlast, hahead⟩ := hrefreshing tip hphase
    rcases hcases with ⟨hnone, _, rfl⟩ | ⟨hnone, _, rfl⟩ | ⟨prev, hprev, rfl⟩
    · refine ⟨hpointer, nofun, ?_⟩
      intro height tip' hphase
      cases hphase
      exact ⟨hlast, le_refl tip⟩
    · refine ⟨?_, nofun, nofun⟩
      intro prev hprev
      cases hprev
      exact ⟨tip, hlast, le_refl tip⟩
    · refine ⟨hpointer, nofun, ?_⟩
      intro height tip' hphase
      cases hphase
      exact ⟨hlast, hahead prev hprev⟩
  case pollerProcessed ok _ poller' _ hprocessed =>
    obtain ⟨height, tip, hphase, _, hcases⟩ := processed_cases hprocessed
    obtain ⟨hlast, hle⟩ := hprocessing height tip hphase
    rcases hcases with ⟨hnone, rfl⟩ | ⟨prev, hprev, ⟨_, rfl⟩ | ⟨_, rfl⟩⟩
    · refine ⟨?_, nofun, nofun⟩
      intro prev hprev
      cases hprev
      exact ⟨tip, hlast, le_refl tip⟩
    · constructor
      · intro prev' hprev'
        cases hprev'
        exact ⟨tip, hlast, hle⟩
      · intro next hnext
        dsimp only at hnext
        split at hnext <;> cases hnext
      · intro next tip' hnext
        dsimp only at hnext
        split at hnext
        · cases hnext
          exact ⟨hlast, by omega⟩
        · cases hnext
    · exact ⟨hpointer, nofun, nofun⟩
  case coordinatorTip => exact ⟨hpointer, hrefreshing, hprocessing⟩
  case coordinatorRead => exact ⟨hpointer, hrefreshing, hprocessing⟩
  case coordinatorProcessed => exact ⟨hpointer, hrefreshing, hprocessing⟩
  case coordinatorSaved => exact ⟨hpointer, hrefreshing, hprocessing⟩

/-- A step which announces nothing and leaves the pointer where it is. -/
theorem announces_of_unannounced
    {action : LoopAction}
    (hannounces : loops.Announces startHeight published)
    (hnone : loops.announced action = none)
    (hpointer : loops'.poller.lastHeight = loops.poller.lastHeight)
    (hfirst : ∀ prev, loops.poller.lastHeight = some prev → loops'.firstTip = loops.firstTip)
    (hquiet : startHeight ≠ none → loops'.poller.lastHeight = none →
      loops'.poller.current = none) :
    loops'.Announces startHeight (published ++ (loops.announced action).toList) := by
  rw [hnone, Option.toList_none, List.append_nil]
  constructor
  · rw [hpointer]
    exact hannounces.fresh
  · exact hquiet
  · intro first prev hfirstTip hprev
    rw [hpointer] at hprev
    rw [hfirst prev hprev] at hfirstTip
    exact hannounces.upTo first prev hfirstTip hprev

theorem announces_step
    {action : LoopAction}
    (hsound : loops.PollerSound)
    (hclimbs : loops.Climbs tips)
    (htips : (tips ++ action.seenTip.toList).Pairwise (· ≤ ·))
    (hannounces : loops.Announces startHeight published)
    (hstep : loops.step startHeight action = some loops') :
    loops'.Announces startHeight (published ++ (loops.announced action).toList) := by
  have hfresh := hannounces.fresh
  have hquiet := hannounces.quiet
  cases steps_of_step hstep
  case pollerTip answer poller' htip =>
    obtain ⟨hwaiting, ⟨rfl, rfl⟩ | ⟨height, rfl, hcases⟩⟩ := tip_cases htip
    · exact announces_of_unannounced hannounces rfl rfl (fun _ _ => Option.or_none) hquiet
    · have hseen : ∀ prev, loops.poller.lastHeight = some prev →
          loops.firstTip.or (some height) = loops.firstTip := by
        intro prev hprev
        obtain ⟨tip, htip⟩ := hsound.seen prev hprev
        rw [htip]
        rfl
      rcases hcases with ⟨hnone, rfl⟩ | ⟨prev, hprev, ⟨_, rfl⟩ | ⟨hlt, rfl⟩ | ⟨_, rfl⟩⟩
      · exact announces_of_unannounced hannounces rfl rfl hseen fun _ _ => rfl
      · exact announces_of_unannounced hannounces rfl rfl hseen fun _ _ => rfl
      · -- the tips do not decrease, and the pointer is not above the last of them
        obtain ⟨tip, hlast, hle⟩ := hclimbs.pointer prev hprev
        have hmem : tip ∈ tips := List.mem_of_getLast? hlast
        have hordered : tip ≤ height :=
          (List.pairwise_append.mp htips).2.2 tip hmem height (by simp [LoopAction.seenTip])
        omega
      · exact announces_of_unannounced hannounces rfl rfl hseen hquiet
  case pollerRefreshed poller' hrefreshed =>
    obtain ⟨tip, hphase, hcases⟩ := refreshed_cases hrefreshed
    rcases hcases with ⟨hnone, hstart, rfl⟩ | ⟨hnone, _, rfl⟩ | ⟨prev, hprev, rfl⟩
    · exact announces_of_unannounced hannounces rfl rfl (fun _ _ => rfl)
        fun hsome => absurd hstart hsome
    · have hfirst := hsound.observed tip hnone hphase
      constructor
      · intro hlast
        cases hlast
      · intro _ hlast
        cases hlast
      · intro first prev hfirstTip hprev
        cases hprev
        dsimp only at hfirstTip
        rw [hfirst, Option.some.injEq] at hfirstTip
        subst hfirstTip
        exact ⟨tip + 1, .inl rfl, le_refl _, by simp [hfresh hnone, Loops.announced]⟩
    · refine announces_of_unannounced hannounces rfl rfl (fun _ _ => rfl) fun _ hlast => ?_
      dsimp only at hlast
      rw [hprev] at hlast
      cases hlast
  case pollerProcessed ok current poller' hcurrent hprocessed =>
    obtain ⟨height, tip, hphase, hheight, hcases⟩ := processed_cases hprocessed
    have hsame : height = current := Option.some.inj (hheight.symm.trans hcurrent)
    subst hsame
    rcases hcases with ⟨hnone, rfl⟩ | ⟨prev, hprev, ⟨rfl, rfl⟩ | ⟨rfl, rfl⟩⟩
    · -- the first tip, which is processed only without a start height
      obtain ⟨rfl, hfirst⟩ := hsound.first height tip hnone hphase
      have hstart : startHeight = none := by
        by_contra hne
        rw [hquiet hne hnone] at hcurrent
        cases hcurrent
      constructor
      · intro hlast
        cases hlast
      · intro _ hlast
        cases hlast
      · intro first prev hfirstTip hprev
        cases hprev
        dsimp only at hfirstTip
        rw [hfirst, Option.some.injEq] at hfirstTip
        subst hfirstTip
        cases ok with
        | true =>
            refine ⟨height, .inr ⟨rfl, hstart⟩, by omega, ?_⟩
            simp [hfresh hnone, Loops.announced, hcurrent]
        | false => exact ⟨height + 1, .inl rfl, le_refl _, by simp [hfresh hnone, Loops.announced]⟩
    · have hnext := hsound.next prev height tip hprev hphase
      subst hnext
      constructor
      · intro hlast
        cases hlast
      · intro _ hlast
        cases hlast
      · intro first next hfirstTip hnext
        cases hnext
        obtain ⟨start, hstart, hle, hpublished⟩ := hannounces.upTo first prev hfirstTip hprev
        refine ⟨start, hstart, by omega, ?_⟩
        have hcount : prev + 1 + 1 - start = prev + 1 - start + 1 := by omega
        have hlast : start + (prev + 1 - start) = prev + 1 := by omega
        rw [hcount, List.range'_1_concat, ← hpublished, hlast]
        simp [Loops.announced, hcurrent]
    · exact announces_of_unannounced hannounces rfl rfl (fun _ _ => rfl) fun _ _ => rfl
  case coordinatorTip =>
    exact announces_of_unannounced hannounces rfl rfl (fun _ _ => rfl) hquiet
  case coordinatorRead =>
    exact announces_of_unannounced hannounces rfl rfl (fun _ _ => rfl) hquiet
  case coordinatorProcessed =>
    exact announces_of_unannounced hannounces rfl rfl (fun _ _ => rfl) hquiet
  case coordinatorSaved =>
    exact announces_of_unannounced hannounces rfl rfl (fun _ _ => rfl) hquiet

end LoopSteps

/-! ## No notification without a marker -/

/-- How far a processing has come, by the stages it has left and by the entries of
its loop. -/
inductive Processing.Stands
    (session : Session)
    (own : List LogEntry)
    (processing : Processing) : Prop where
  | unrecorded
      (rows : List Stage)
      (front : List LogEntry)
      (hrows : .processedBlock ∉ rows)
      (hremaining : processing.remaining = rows ++ [.processedBlock])
      (hcommitted : .processedBlock ∉ processing.execution.committed)
      (hown : own = front ++ [⟨session, processing.data.height, .began⟩])
  | recorded
      (front : List LogEntry)
      (hremaining : processing.remaining = [])
      (hown : own = front ++ [⟨session, processing.data.height, .began⟩,
        ⟨session, processing.data.height, .recorded⟩])

/-- A notification is one of the poller, whose call has done no more before it than
begin and record the same height. -/
def FollowsMarker (earlier : List LogEntry) (entry : LogEntry) : Prop :=
  entry.milestone = .published → entry.session = .poller ∧
    ∃ front, Service.entriesOf .poller earlier =
      front ++ [⟨.poller, entry.height, .began⟩, ⟨.poller, entry.height, .recorded⟩]

namespace Service

structure Sound (service : Service) : Prop where
  poller : service.loops.PollerSound
  current : ∀ session processing, service.running session = some processing →
    service.loops.current session = some processing.data.height
  stands : ∀ session processing, service.running session = some processing →
    processing.Stands session (entriesOf session service.log)
  announced : EachAfter FollowsMarker service.log

variable {startHeight : Option ℕ} {service service' : Service} {session : Session}

theorem entriesOf_append
    (log entries : List LogEntry) :
    entriesOf session (log ++ entries) = entriesOf session log ++ entriesOf session entries :=
  List.filter_append _ _

@[simp]
theorem entriesOf_self
    (height : ℕ)
    (milestone : Milestone) :
    entriesOf session [⟨session, height, milestone⟩] = [⟨session, height, milestone⟩] := by
  simp [entriesOf]

theorem entriesOf_of_ne
    {other : Session}
    {entries : List LogEntry}
    (hentries : ∀ entry ∈ entries, entry.session = session)
    (hne : other ≠ session) :
    entriesOf other entries = [] := by
  apply List.filter_eq_nil_iff.mpr
  intro entry hentry
  simp [hentries entry hentry, hne.symm]

theorem sound_start
    (progress : Option ℕ)
    (db : Db) :
    (start progress db).Sound where
  poller := by constructor <;> simp [start, Loops.start, Poller.start]
  current := by simp [start]
  stands := by simp [start]
  announced := eachAfter_nil

structure StepOf (session : Session) (service service' : Service) : Prop where
  poller : service'.loops.PollerSound
  others : ∀ other ≠ session, service'.running other = service.running other ∧
    ∀ height, service.loops.current other = some height →
      service'.loops.current other = some height
  entry : service'.log = service.log ∨ ∃ entry, service'.log = service.log ++ [entry] ∧
    entry.session = session ∧ FollowsMarker service.log entry

variable (session) in
theorem sound_of_stepOf
    (hsound : service.Sound)
    (hstep : StepOf session service service')
    (hown : ∀ processing, service'.running session = some processing →
      service'.loops.current session = some processing.data.height ∧
        processing.Stands session (entriesOf session service'.log)) :
    service'.Sound := by
  obtain ⟨hpoller, hothers, hentry⟩ := hstep
  have hlog : ∀ other ≠ session,
      entriesOf other service'.log = entriesOf other service.log := by
    intro other hne
    rcases hentry with hsame | ⟨entry, hlog, hentry, _⟩
    · rw [hsame]
    · have hnone : entriesOf other [entry] = [] := entriesOf_of_ne (by simpa using hentry) hne
      rw [hlog, entriesOf_append, hnone, List.append_nil]
  constructor
  · exact hpoller
  · intro other processing hrunning
    by_cases hsame : other = session
    · subst hsame
      exact (hown processing hrunning).1
    · rw [(hothers other hsame).1] at hrunning
      exact (hothers other hsame).2 _ (hsound.current other processing hrunning)
  · intro other processing hrunning
    by_cases hsame : other = session
    · subst hsame
      exact (hown processing hrunning).2
    · rw [(hothers other hsame).1] at hrunning
      rw [hlog other hsame]
      exact hsound.stands other processing hrunning
  · rcases hentry with hsame | ⟨entry, hlog, _, hfollows⟩
    · rw [hsame]
      exact hsound.announced
    · rw [hlog]
      exact eachAfter_concat hsound.announced hfollows

theorem sound_returns
    {ok : Bool}
    (hsound : (service.runs session none).Sound)
    (hreturns : service.returns startHeight session ok = some service') :
    service'.Sound := by
  obtain ⟨loops, hstep, rfl⟩ := returns_cases hreturns
  apply sound_of_stepOf session hsound
  · constructor
    · exact pollerSound_step hsound.poller hstep
    · intro other hne
      refine ⟨rfl, fun height hcurrent => ?_⟩
      apply current_of_step hstep _ hcurrent
      intro ok'
      cases session <;> cases other <;> simp_all [Session.processed]
    · exact .inl rfl
  · intro processing hrunning
    simp [runs] at hrunning

theorem sound_runs
    {processing : Option Processing}
    (hsound : service.Sound)
    (hprocessing : ∀ running, processing = some running →
      service.loops.current session = some running.data.height ∧
        running.Stands session (entriesOf session service.log)) :
    (service.runs session processing).Sound := by
  apply sound_of_stepOf _ hsound
  · constructor
    · exact hsound.poller
    · intro other hne
      exact ⟨Function.update_of_ne hne _ _, fun _ h => h⟩
    · exact .inl rfl
  · intro running hrunning
    simp only [runs, Function.update_self] at hrunning
    exact hprocessing running hrunning

theorem sound_logs
    {height : ℕ}
    {milestone : Milestone}
    {processing : Option Processing}
    (hsound : service.Sound)
    (hmilestone : milestone ≠ .published)
    (hcurrent : service.loops.current session = some height)
    (hprocessing : ∀ running, processing = some running → running.data.height = height ∧
      running.Stands session
        (entriesOf session service.log ++ [⟨session, height, milestone⟩])) :
    ((service.logs ⟨session, height, milestone⟩).runs session processing).Sound := by
  apply sound_of_stepOf _ hsound
  · constructor
    · exact hsound.poller
    · intro other hne
      exact ⟨Function.update_of_ne hne _ _, fun _ h => h⟩
    · exact .inr ⟨_, rfl, rfl, fun hpublished => absurd hpublished hmilestone⟩
  · intro running hrunning
    simp only [runs, Function.update_self] at hrunning
    obtain ⟨hheight, hstands⟩ := hprocessing running hrunning
    rw [hheight, runs_log, logs_log, entriesOf_append, entriesOf_self]
    exact ⟨hcurrent, hstands⟩

theorem sound_fetches
    {attempt : Attempt}
    (hsound : service.Sound)
    (hfetches : service.fetches startHeight session attempt = some service') :
    service'.Sound := by
  obtain ⟨height, hcurrent, _, hreturns | ⟨data, hfetch, rfl⟩⟩ := fetches_cases hfetches
  · apply sound_returns _ hreturns
    exact sound_logs hsound (by simp) hcurrent (by simp)
  · apply sound_logs hsound (by simp) hcurrent
    intro running hrunning
    cases hrunning
    obtain ⟨hheight, _⟩ := height_of_fetchBlock hfetch
    refine ⟨hheight, .unrecorded data.rowStages (entriesOf session service.log) ?_
      stages_eq_rowStages (by simp [Execution.start]) (by rw [hheight])⟩
    unfold BlockData.rowStages
    split <;> decide

theorem sound_db
    (hsound : service.Sound)
    (db : Db) :
    Sound { service with db := db } :=
  ⟨hsound.poller, hsound.current, hsound.stands, hsound.announced⟩

theorem sound_writes
    (hsound : service.Sound)
    (hwrites : service.writes startHeight session = some service') :
    service'.Sound := by
  obtain ⟨attempt, data, stage, rest, execution, hrunning, result, hresult, hcases⟩ :=
    writes_cases hwrites
  have hcurrent : service.loops.current session = some data.height :=
    hsound.current session _ hrunning
  have hwritten := sound_db hsound result.1.db
  cases hsound.stands session _ hrunning with
  | recorded front hremaining hown => cases hremaining
  | unrecorded rows front hrows hremaining hcommitted hown =>
      cases rows with
      | cons first rows =>
          -- a stage of rows
          obtain ⟨rfl, rfl⟩ := List.cons.inj hremaining
          obtain ⟨hstage, hrows⟩ := not_or.mp (List.mem_cons.not.mp hrows)
          have hnot : .processedBlock ∉ result.1.committed := by
            intro hmem
            rw [hresult] at hmem
            exact hstage (marker_of_runStage { execution with db := service.db } hcommitted
              hmem).1.symm
          simp only [wrote, if_neg hnot] at hcases
          rcases hcases with ⟨hok, rfl⟩ | hreturns
          · apply sound_runs hwritten
            intro running hsame
            cases hsame
            exact ⟨hcurrent, .unrecorded rows front hrows rfl hnot hown⟩
          · apply sound_returns _ hreturns
            exact sound_runs hwritten (by simp)
      | nil =>
          -- the marker
          obtain ⟨rfl, rfl⟩ := List.cons.inj hremaining
          rcases hcases with ⟨hok, rfl⟩ | hreturns
          · have hmem : .processedBlock ∈ result.1.committed := by
              rw [hresult] at hok ⊢
              exact processedBlock_mem_of_runStage hok
            simp only [wrote, if_pos hmem]
            apply sound_logs hwritten _ hcurrent
            · intro running hsame
              cases hsame
              refine ⟨rfl, .recorded front rfl ?_⟩
              change entriesOf session service.log ++ _ = _
              rw [hown, List.append_assoc]
              rfl
            · simp
          · apply sound_returns _ hreturns
            unfold wrote
            split
            · exact sound_logs hwritten (by simp) hcurrent (by simp)
            · exact sound_runs hwritten (by simp)

/-- An entry for a marker is made with the row in the table. -/
theorem exists_row_of_recorded
    {height : ℕ}
    (hsound : service.Sound)
    (hwrites : service.writes startHeight session = some service')
    (hlog : service'.log = service.log ++ [⟨session, height, .recorded⟩]) :
    ∃ row ∈ service'.db.processedBlocks, row.blockHeight = height := by
  obtain ⟨attempt, data, stage, rest, execution, hrunning, result, hresult, hcases⟩ :=
    writes_cases hwrites
  have hwrote : service'.log = (service.wrote session data.height result.1).log ∧
      service'.db = (service.wrote session data.height result.1).db := by
    rcases hcases with ⟨_, rfl⟩ | hreturns
    · exact ⟨rfl, rfl⟩
    · obtain ⟨loops, _, rfl⟩ := returns_cases hreturns
      exact ⟨rfl, rfl⟩
  rw [hwrote.1, wrote_log, List.append_cancel_left_eq] at hlog
  by_cases hmem : .processedBlock ∈ result.1.committed
  · rw [if_pos hmem] at hlog
    cases hlog
    have hcommitted : .processedBlock ∉ execution.committed := by
      cases hsound.stands session _ hrunning with
      | recorded front hremaining hown => cases hremaining
      | unrecorded rows front hrows hremaining hcommitted hown => exact hcommitted
    rw [hresult] at hmem
    refine ⟨data.processedBlockRow, ?_, rfl⟩
    rw [hwrote.2, wrote, hresult, if_pos hmem]
    exact (marker_of_runStage { execution with db := service.db } hcommitted hmem).2
  · rw [if_neg hmem] at hlog
    cases hlog

theorem sound_ends
    (hsound : service.Sound)
    (hends : service.ends startHeight session = some service') :
    service'.Sound := by
  obtain ⟨attempt, data, execution, hrunning, hreturns⟩ := ends_cases hends
  apply sound_returns _ hreturns
  cases session with
  | coordinator => exact sound_runs hsound (by simp)
  | poller =>
      apply sound_of_stepOf _ hsound
      · constructor
        · exact hsound.poller
        · intro other hne
          exact ⟨Function.update_of_ne hne _ _, fun _ h => h⟩
        · refine .inr ⟨_, rfl, rfl, fun _ => ⟨rfl, ?_⟩⟩
          cases hsound.stands .poller _ hrunning with
          | unrecorded rows front hrows hremaining hcommitted hown => simp at hremaining
          | recorded front hremaining hown => exact ⟨front, hown⟩
      · intro processing hsame
        simp [runs] at hsame

theorem sound_step
    {action : ServiceAction}
    (hsound : service.Sound)
    (hstep : service.step startHeight action = some service') :
    service'.Sound := by
  cases action with
  | fetches session attempt => exact sound_fetches hsound hstep
  | writes session => exact sound_writes hsound hstep
  | ends session => exact sound_ends hsound hstep
  | otherWrites db =>
      cases hstep
      exact sound_db hsound db
  | calls action =>
      simp only [step, Option.ite_none_left_eq_some, Option.map_eq_some_iff] at hstep
      obtain ⟨hends, loops, hloops, rfl⟩ := hstep
      refine ⟨pollerSound_step hsound.poller hloops, ?_, hsound.stands, hsound.announced⟩
      intro session processing hrunning
      apply current_of_step hloops _ (hsound.current session processing hrunning)
      rintro ok rfl
      cases session <;> exact hends rfl

/-! ## The notified heights of a run -/

theorem published_logs
    (entry : LogEntry) :
    (service.logs entry).published =
      service.published ++ if entry.milestone = .published then [entry.height] else [] := by
  unfold published
  rw [logs_log, List.filter_append, List.map_append]
  split <;> simp_all

/-- A step of the service is none of the loops, or one of them with the tip it has
seen and the height it has notified of. -/
def Follows (startHeight : Option ℕ) (service service' : Service) : Prop :=
  (service'.loops = service.loops ∧ service'.tips = service.tips ∧
      service'.published = service.published) ∨
    ∃ action, service.loops.step startHeight action = some service'.loops ∧
      service'.tips = service.tips ++ action.seenTip.toList ∧
      service'.published = service.published ++ (service.loops.announced action).toList

variable (service) in
theorem follows_returns
    {before : Service}
    {ok : Bool}
    (hreturns : before.returns startHeight session ok = some service')
    (hloops : before.loops = service.loops)
    (htips : before.tips = service.tips)
    (hpublished : before.published =
      service.published ++ (service.loops.announced (session.processed ok)).toList) :
    Follows startHeight service service' := by
  obtain ⟨loops, hstep, rfl⟩ := returns_cases hreturns
  refine .inr ⟨session.processed ok, ?_, ?_, hpublished⟩
  · rw [← hloops]
    exact hstep
  · cases session <;> simp [Session.processed, LoopAction.seenTip, runs, htips]

theorem announced_failure :
    service.loops.announced (session.processed false) = none := by
  cases session <;> rfl

theorem follows_step
    {action : ServiceAction}
    (hsound : service.Sound)
    (hstep : service.step startHeight action = some service') :
    Follows startHeight service service' := by
  cases action with
  | otherWrites db =>
      cases hstep
      exact .inl ⟨rfl, rfl, rfl⟩
  | calls action =>
      simp only [step, Option.ite_none_left_eq_some, Option.map_eq_some_iff] at hstep
      obtain ⟨hends, loops, hloops, rfl⟩ := hstep
      refine .inr ⟨action, hloops, rfl, ?_⟩
      have hnone : service.loops.announced action = none := by
        cases action <;> simp_all [Loops.announced, LoopAction.endsProcessing]
      simp [hnone, published]
  | fetches session attempt =>
      obtain ⟨height, _, _, hreturns | ⟨data, _, rfl⟩⟩ := fetches_cases hstep
      · apply follows_returns service hreturns rfl rfl
        simp [published_logs, announced_failure]
      · exact .inl ⟨rfl, rfl, by simp [runs, published]⟩
  | writes session =>
      obtain ⟨_, data, _, _, _, _, result, _, hcases⟩ := writes_cases hstep
      obtain ⟨hloops, _, htips⟩ := wrote_same service session data.height result.1
      have hpublished :
          (service.wrote session data.height result.1).published = service.published := by
        unfold published
        rw [wrote_log]
        split <;> simp
      rcases hcases with ⟨_, rfl⟩ | hreturns
      · exact .inl ⟨hloops, htips, hpublished⟩
      · apply follows_returns service hreturns hloops htips
        simp [hpublished, announced_failure]
  | ends session =>
      obtain ⟨_, data, _, hrunning, hreturns⟩ := ends_cases hstep
      cases session with
      | coordinator =>
          apply follows_returns service hreturns rfl rfl
          simp [Session.emitPublish, Loops.announced, Session.processed]
      | poller =>
          have hcurrent : service.loops.poller.current = some data.height :=
            hsound.current .poller _ hrunning
          apply follows_returns service hreturns rfl rfl
          simp [Session.emitPublish, published_logs, Loops.announced, Session.processed, hcurrent]

/-- What the loops keep as long as the observed tips do not decrease. -/
structure Ordered (startHeight : Option ℕ) (service : Service) : Prop where
  sound : service.Sound
  ordered : service.tips.Pairwise (· ≤ ·) →
    service.loops.Climbs service.tips ∧ service.loops.Announces startHeight service.published

theorem ordered_step
    {action : ServiceAction}
    (hordered : Ordered startHeight service)
    (hstep : service.step startHeight action = some service') :
    Ordered startHeight service' := by
  obtain ⟨hsound, hordered⟩ := hordered
  refine ⟨sound_step hsound hstep, ?_⟩
  rcases follows_step hsound hstep with
    ⟨hloops, htips, hpublished⟩ | ⟨call, hloops, htips, hpublished⟩
  · rw [hloops, htips, hpublished]
    exact hordered
  · rw [htips, hpublished]
    intro hmonotone
    obtain ⟨hclimbs, hannounces⟩ := hordered (List.pairwise_append.mp hmonotone).1
    constructor
    · exact climbs_step hclimbs hmonotone hloops
    · exact announces_step hsound.poller hclimbs hmonotone hannounces hloops

theorem ordered_run
    {progress : Option ℕ}
    {db : Db}
    {actions : List ServiceAction}
    (hrun : run startHeight (start progress db) actions = some service) :
    Ordered startHeight service := by
  apply invariant_of_run (fun _ _ _ => ordered_step) _ hrun
  exact ⟨sound_start progress db, fun _ => ⟨climbs_start progress, announces_start progress⟩⟩

end Service

/-- As long as the tips which the poller observes do not decrease, the notified
heights go up by one.  A notification follows the marker of its height in the same
processing, and with a start height it is one above the first tip. -/
theorem published_in_order
    {startHeight progress : Option ℕ}
    {db : Db}
    {actions : List ServiceAction}
    {service : Service}
    (hrun : Service.run startHeight (.start progress db) actions = some service)
    (htips : service.tips.Pairwise (· ≤ ·)) :
    service.published.IsChain (fun height next => next = height + 1) ∧
      EachAfter FollowsMarker service.log ∧
      (startHeight ≠ none → ∀ height ∈ service.published,
        ∃ first, service.loops.firstTip = some first ∧ first < height) := by
  obtain ⟨hsound, hordered⟩ := Service.ordered_run hrun
  obtain ⟨-, hfresh, -, hupTo⟩ := hordered htips
  cases hlast : service.loops.poller.lastHeight with
  | none =>
      rw [hfresh hlast]
      exact ⟨.nil, hsound.announced, by simp⟩
  | some prev =>
      obtain ⟨first, hfirst⟩ := hsound.poller.seen prev hlast
      obtain ⟨start, hstart, _, hpublished⟩ := hupTo first prev hfirst hlast
      refine ⟨?_, hsound.announced, ?_⟩
      · rw [hpublished]
        exact List.isChain_range' _ _ _
      · intro hcatchUp height hheight
        refine ⟨first, hfirst, ?_⟩
        rw [hpublished, List.mem_range'_1] at hheight
        rcases hstart with rfl | ⟨_, hnone⟩
        · omega
        · exact absurd hnone hcatchUp

def emptyBlock : Attempt := .smooth (.serving "00" []) []

/-- The poller is started at tip 5.  At height 6 it loses the answer to its marker
and tries again. -/
def retriedMarker : List ServiceAction :=
  [.calls (.pollerTip (some 5)), .calls .pollerRefreshed,
    .calls (.pollerTip (some 6)), .calls .pollerRefreshed,
    .fetches .poller { emptyBlock with fails := fun site => site = .acknowledge .processedBlock },
    .writes .poller,
    .calls (.pollerTip (some 6)), .calls .pollerRefreshed,
    .fetches .poller emptyBlock, .writes .poller, .ends .poller]

theorem retriedMarker_published :
    ∃ service, Service.run (some 3) (.start none .empty) retriedMarker = some service ∧
      service.published = [6] ∧
      service.published.IsChain (fun height next => next = height + 1) ∧
      EachAfter FollowsMarker service.log ∧
      ∀ height ∈ service.published,
        ∃ first, service.loops.firstTip = some first ∧ first < height := by
  have hrun : ∃ service,
      Service.run (some 3) (.start none .empty) retriedMarker = some service ∧
        service.published = [6] ∧ service.tips = [5, 6, 6] :=
    ⟨_, rfl, rfl, rfl⟩
  obtain ⟨service, hrun, hpublished, htips⟩ := hrun
  obtain ⟨hchain, hmarkers, hfirst⟩ := published_in_order hrun (by rw [htips]; decide)
  exact ⟨service, hrun, hpublished, hchain, hmarkers, hfirst (by simp)⟩

end AlkanesIndexer
