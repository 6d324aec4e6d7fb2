import AlkanesIndexer.Runs
import Mathlib.Data.List.Perm.Basic

/-!
# Runs of steps that commute

If two neighbouring steps of a run can change places, up to a congruence of the states, so
can all of them: a run over some actions is a run over them in every order, with the same
end.  Steps need commute only in the states that fit the actions still to come.
-/

namespace Runs

variable {S A : Type*}

/-- Neighbouring actions change places in the states that fit them. -/
structure Commuting
    (step : S → A → Option S)
    (same : S → S → Prop)
    (fits : S → List A → Prop) : Prop where
  refl : ∀ state, same state state
  trans : ∀ {first second third}, same first second → same second third → same first third
  congr : ∀ {state state' next action}, same state state' → step state action = some next →
    ∃ next', step state' action = some next' ∧ same next next'
  fits_perm : ∀ {state actions actions'}, List.Perm actions actions' → fits state actions →
    fits state actions'
  fits_next : ∀ {state action actions next}, fits state (action :: actions) →
    step state action = some next → fits next actions
  swap : ∀ {state first second actions middle last}, fits state (first :: second :: actions) →
    step state first = some middle → step middle second = some last →
    ∃ middle' last', step state second = some middle' ∧ step middle' first = some last' ∧
      same last last'

variable
  {step : S → A → Option S}
  {same : S → S → Prop}
  {fits : S → List A → Prop}
  {state state' last : S}
  {actions actions' : List A}

theorem Commuting.exists_run
    (hcommuting : Commuting step same fits)
    (hsame : same state state')
    (hrun : run step state actions = some last) :
    ∃ last', run step state' actions = some last' ∧ same last last' := by
  induction actions generalizing state state' with
  | nil =>
      cases hrun
      exact ⟨state', rfl, hsame⟩
  | cons action rest ih =>
      obtain ⟨next, hnext, hrest⟩ := run_cons_eq_some_iff.mp hrun
      obtain ⟨next', hnext', hsame'⟩ := hcommuting.congr hsame hnext
      obtain ⟨last', hlast, hend⟩ := ih hsame' hrest
      exact ⟨last', run_cons_eq_some_iff.mpr ⟨next', hnext', hlast⟩, hend⟩

theorem Commuting.exists_run_of_perm
    (hcommuting : Commuting step same fits)
    (hperm : actions.Perm actions')
    (hfits : fits state actions)
    (hrun : run step state actions = some last) :
    ∃ last', run step state actions' = some last' ∧ same last last' := by
  induction hperm generalizing state last with
  | nil => exact ⟨last, hrun, hcommuting.refl last⟩
  | cons action _ ih =>
      obtain ⟨next, hnext, hrest⟩ := run_cons_eq_some_iff.mp hrun
      obtain ⟨last', hlast, hend⟩ := ih (hcommuting.fits_next hfits hnext) hrest
      exact ⟨last', run_cons_eq_some_iff.mpr ⟨next, hnext, hlast⟩, hend⟩
  | swap first second rest =>
      obtain ⟨middle, hfirst, htail⟩ := run_cons_eq_some_iff.mp hrun
      obtain ⟨next, hsecond, hrest⟩ := run_cons_eq_some_iff.mp htail
      obtain ⟨middle', next', hsecond', hfirst', hsame⟩ := hcommuting.swap hfits hfirst hsecond
      obtain ⟨last', hlast, hend⟩ := hcommuting.exists_run hsame hrest
      exact ⟨last', run_cons_eq_some_iff.mpr ⟨middle', hsecond',
        run_cons_eq_some_iff.mpr ⟨next', hfirst', hlast⟩⟩, hend⟩
  | trans hfirst _ ihFirst ihSecond =>
      obtain ⟨middle, hmiddle, hsame⟩ := ihFirst hfits hrun
      obtain ⟨last', hlast, hsame'⟩ := ihSecond (hcommuting.fits_perm hfirst hfits) hmiddle
      exact ⟨last', hlast, hcommuting.trans hsame hsame'⟩

end Runs
