import AlkanesIndexer.Sequences

/-!
# Histories of a circuit breaker

A breaker admits or rejects calls, is tripped by calls that give up, and hears of the
end of every call it admitted.  This file says of the history of a breaker what it is
to keep calls off for a cooldown and to admit a single trial call after it.  A breaker
that decides by its standing trips does the first; for the second it depends on when
calls ask while a trial is running.  Nothing here depends on the indexer.
-/

namespace BreakerHistory

open Sequences

inductive Kind where
  | admitted
  | rejected
  | tripped
  | ended
  deriving DecidableEq, Repr

structure Event (ι : Type*) where
  time : ℕ
  call : ι
  kind : Kind
  deriving DecidableEq, Repr

variable {ι : Type*}

/-- A trip at this time, with no call admitted since. -/
def StandingTrip (log : List (Event ι)) (time : ℕ) : Prop :=
  ∃ earlier call later, log = earlier ++ ⟨time, call, .tripped⟩ :: later ∧
    ∀ event ∈ later, event.kind ≠ .admitted

/-- The call was the first to be admitted after a trip and has not ended; `since` is
what has happened since then. -/
def InTrial (log : List (Event ι)) (trial : ι) (since : List (Event ι)) : Prop :=
  ∃ earlier time, log = earlier ++ ⟨time, trial, .admitted⟩ :: since ∧
    (∃ tripTime, StandingTrip earlier tripTime) ∧
    ∀ event ∈ since, event.call = trial → event.kind ≠ .ended

/-! ## What a breaker is for -/

/-- A call is admitted only when the cooldown after every earlier trip is over. -/
def Cooled (cooldown : ℕ) (past : List (Event ι)) (event : Event ι) : Prop :=
  event.kind = .admitted → ∀ trip ∈ past, trip.kind = .tripped →
    trip.time + cooldown ≤ event.time

/-- No call is admitted while another one is on trial. -/
def Alone (past : List (Event ι)) (event : Event ι) : Prop :=
  event.kind = .admitted → ∀ trial since, trial ≠ event.call → ¬ InTrial past trial since

def OneTrial (cooldown : ℕ) (log : List (Event ι)) : Prop :=
  EachAfter (fun past event => Cooled cooldown past event ∧ Alone past event) log

/-! ## Deciding by standing trips -/

def Kind.IsCheck (kind : Kind) : Prop := kind = .admitted ∨ kind = .rejected

/-- A check is rejected exactly within the cooldown of a standing trip. -/
def Decided (cooldown : ℕ) (past : List (Event ι)) (event : Event ι) : Prop :=
  event.kind.IsCheck → (event.kind = .rejected ↔
    ∃ tripTime, StandingTrip past tripTime ∧ event.time < tripTime + cooldown)

def NotBefore (past : List (Event ι)) (event : Event ι) : Prop :=
  ∀ other ∈ past, other.time ≤ event.time

/-- A check during a trial comes within the cooldown of a further trip which has been
made during that trial. -/
def Spared (cooldown : ℕ) (past : List (Event ι)) (event : Event ι) : Prop :=
  event.kind.IsCheck → ∀ trial since, trial ≠ event.call → InTrial past trial since →
    ∃ trip ∈ since, trip.kind = .tripped ∧ event.time < trip.time + cooldown

section Log

variable {cooldown time : ℕ} {log past : List (Event ι)} {event : Event ι}

theorem not_standingTrip_nil :
    ¬ StandingTrip ([] : List (Event ι)) time := by
  rintro ⟨earlier, call, later, hsplit, _⟩
  simp at hsplit

theorem standingTrip_concat :
    StandingTrip (log ++ [event]) time ↔
      (event.kind = .tripped ∧ event.time = time) ∨
        (event.kind ≠ .admitted ∧ StandingTrip log time) := by
  constructor
  · rintro ⟨earlier, call, later, hsplit, hlater⟩
    rcases List.eq_nil_or_concat later with rfl | ⟨front, last, rfl⟩
    · obtain ⟨-, hsame⟩ := List.append_inj' hsplit rfl
      cases hsame
      exact .inl ⟨rfl, rfl⟩
    · rw [List.concat_eq_append, ← List.cons_append, ← List.append_assoc] at hsplit
      obtain ⟨hlog, hsame⟩ := List.append_inj' hsplit rfl
      cases hsame
      refine .inr ⟨hlater event (by simp), earlier, call, front, hlog, ?_⟩
      intro other hother
      exact hlater other (by simp [hother])
  · rintro (⟨hkind, rfl⟩ | ⟨hkind, earlier, call, later, rfl, hlater⟩)
    · exact ⟨log, event.call, [], by rw [← hkind], by simp⟩
    · refine ⟨earlier, call, later ++ [event], by simp, ?_⟩
      intro other hother
      cases List.mem_append.mp hother with
      | inl hmem => exact hlater other hmem
      | inr hlast => rwa [List.mem_singleton.mp hlast]

/-- After a call has been admitted only a trip made since then can stand. -/
theorem exists_trip_of_standing
    {earlier since : List (Event ι)}
    (hadmitted : event.kind = .admitted)
    (hstanding : StandingTrip (earlier ++ event :: since) time) :
    ∃ trip ∈ since, trip.kind = .tripped ∧ trip.time = time := by
  obtain ⟨front, call, later, hsplit, hlater⟩ := hstanding
  rcases List.append_eq_append_iff.mp hsplit with ⟨middle, rfl, hmiddle⟩ | ⟨middle, rfl, hmiddle⟩
  · cases middle with
    | nil =>
        cases hmiddle
        cases hadmitted
    | cons first rest =>
        obtain ⟨-, rfl⟩ := List.cons.inj hmiddle
        exact ⟨⟨time, call, .tripped⟩, by simp, rfl, rfl⟩
  · cases middle with
    | nil =>
        cases hmiddle
        cases hadmitted
    | cons first rest =>
        obtain ⟨-, rfl⟩ := List.cons.inj hmiddle
        exact absurd hadmitted (hlater event (by simp))

theorem over_of_standing
    (hdecided : Decided cooldown past event)
    (hadmitted : event.kind = .admitted)
    (hstanding : StandingTrip past time) :
    time + cooldown ≤ event.time := by
  have hrejected := hdecided (.inl hadmitted)
  rw [hadmitted] at hrejected
  by_contra hnot
  cases hrejected.mpr ⟨time, hstanding, Nat.not_le.mp hnot⟩

/-- The first call admitted behind a trip has waited for the cooldown, and no other one
is admitted before it. -/
theorem cooled_of_decided
    (hdecided : EachAfter (Decided cooldown) log)
    (hordered : EachAfter NotBefore log) :
    EachAfter (Cooled cooldown) log := by
  intro past event later hsplit hadmitted trip htrip hkind
  obtain ⟨earlier, since, rfl⟩ := List.append_of_mem htrip
  obtain ⟨tripTime, call, kind⟩ := trip
  cases hkind
  cases hfirst : since.find? fun other => other.kind = .admitted with
  | none =>
      have hstanding : StandingTrip (earlier ++ ⟨tripTime, call, .tripped⟩ :: since) tripTime :=
        ⟨earlier, call, since, rfl, by simpa using List.find?_eq_none.mp hfirst⟩
      exact over_of_standing (hdecided _ event later hsplit) hadmitted hstanding
  | some first =>
      obtain ⟨hfirstAdmitted, front, rest, rfl, hfront⟩ := List.find?_eq_some_iff_append.mp hfirst
      have hstanding : StandingTrip (earlier ++ ⟨tripTime, call, .tripped⟩ :: front) tripTime :=
        ⟨earlier, call, front, rfl, by simpa using hfront⟩
      have hdecidedFirst := hdecided (earlier ++ ⟨tripTime, call, .tripped⟩ :: front) first
        (rest ++ event :: later) (by rw [hsplit]; simp)
      have hover := over_of_standing hdecidedFirst (of_decide_eq_true hfirstAdmitted) hstanding
      have hbefore : first.time ≤ event.time := hordered _ event later hsplit first (by simp)
      exact hover.trans hbefore

theorem oneTrial_iff
    (hdecided : EachAfter (Decided cooldown) log)
    (hordered : EachAfter NotBefore log) :
    OneTrial cooldown log ↔ EachAfter (Spared cooldown) log := by
  have hcooled := cooled_of_decided hdecided hordered
  constructor
  · intro hone past event later hsplit hcheck trial since hother htrial
    have halone := (hone past event later hsplit).2
    have hrejected : event.kind = .rejected := by
      refine hcheck.resolve_left fun hadmitted => ?_
      exact halone hadmitted trial since hother htrial
    obtain ⟨tripTime, hstanding, hwithin⟩ :=
      (hdecided past event later hsplit hcheck).mp hrejected
    obtain ⟨earlier, time, hpast, _, _⟩ := htrial
    rw [hpast] at hstanding
    obtain ⟨trip, htrip, hkind, rfl⟩ := exists_trip_of_standing rfl hstanding
    exact ⟨trip, htrip, hkind, hwithin⟩
  · intro hspared past event later hsplit
    refine ⟨hcooled past event later hsplit, ?_⟩
    intro hadmitted trial since hother htrial
    obtain ⟨trip, htrip, hkind, hwithin⟩ :=
      hspared past event later hsplit (.inl hadmitted) trial since hother htrial
    obtain ⟨earlier, time, hpast, _, _⟩ := htrial
    have hover := hcooled past event later hsplit hadmitted trip (by simp [hpast, htrip]) hkind
    omega

end Log

end BreakerHistory
