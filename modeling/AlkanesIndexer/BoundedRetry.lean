import Mathlib.Tactic

/-!
# Bounded retries

A call is attempted until it answers, until it fails in a way that is final, or
until the attempts are used up.  The first attempt is always made.
-/

namespace BoundedRetry

inductive Ending (α ε : Type*) where
  | answered (value : α)
  | refused (error : ε)
  | exhausted (error : ε)

variable {α ε : Type*} (final : ε → Bool) (outcomes : ℕ → Except ε α)

/-- The attempts from number `attempt` on, with `left` retries still allowed, and
how many attempts have been made at the end. -/
def attemptsFrom (left attempt : ℕ) : Ending α ε × ℕ :=
  match outcomes attempt with
  | .ok value => (.answered value, attempt + 1)
  | .error error =>
      if final error then (.refused error, attempt + 1)
      else
        match left with
        | 0 => (.exhausted error, attempt + 1)
        | left + 1 => attemptsFrom left (attempt + 1)

/-- At most `max 1 limit` attempts. -/
def attempts (limit : ℕ) : Ending α ε × ℕ := attemptsFrom final outcomes (limit - 1) 0

def Retriable (attempt : ℕ) : Prop :=
  ∃ error, outcomes attempt = .error error ∧ final error = false

variable {final outcomes}

theorem attemptsFrom_succ
    {left attempt : ℕ}
    (hretry : Retriable final outcomes attempt) :
    attemptsFrom final outcomes (left + 1) attempt =
      attemptsFrom final outcomes left (attempt + 1) := by
  obtain ⟨error, houtcome, hfinal⟩ := hretry
  rw [attemptsFrom]
  simp only [houtcome, hfinal, Bool.false_eq_true, if_false]

/-- Attempts which are all retried only move the count on. -/
theorem attemptsFrom_skip
    {made left attempt : ℕ}
    (hle : made ≤ left)
    (hall : ∀ earlier < made, Retriable final outcomes (attempt + earlier)) :
    attemptsFrom final outcomes left attempt =
      attemptsFrom final outcomes (left - made) (attempt + made) := by
  induction made with
  | zero => rfl
  | succ made ih =>
      have hrest := ih (by omega) fun earlier hlt => hall earlier (by omega)
      have hleft : left - made = left - (made + 1) + 1 := by omega
      rw [hrest, hleft, attemptsFrom_succ (hall made (by omega))]
      rfl

variable (final outcomes) in
/-- The three ways in which the attempts end. -/
theorem attemptsFrom_cases
    (left attempt : ℕ) :
    (∃ last value, last ≤ left ∧ outcomes (attempt + last) = .ok value ∧
      (∀ earlier < last, Retriable final outcomes (attempt + earlier)) ∧
      attemptsFrom final outcomes left attempt = (.answered value, attempt + last + 1)) ∨
    (∃ last error, last ≤ left ∧ outcomes (attempt + last) = .error error ∧
      final error = true ∧
      (∀ earlier < last, Retriable final outcomes (attempt + earlier)) ∧
      attemptsFrom final outcomes left attempt = (.refused error, attempt + last + 1)) ∨
    (∃ error, outcomes (attempt + left) = .error error ∧
      (∀ earlier ≤ left, Retriable final outcomes (attempt + earlier)) ∧
      attemptsFrom final outcomes left attempt = (.exhausted error, attempt + left + 1)) := by
  induction left generalizing attempt with
  | zero =>
      rw [attemptsFrom]
      cases houtcome : outcomes attempt with
      | ok value => exact .inl ⟨0, value, le_rfl, houtcome, by simp, by simp⟩
      | error error =>
          by_cases hfinal : final error = true
          · exact .inr (.inl ⟨0, error, le_rfl, houtcome, hfinal, by simp, by simp [hfinal]⟩)
          · rw [Bool.not_eq_true] at hfinal
            have hretry : Retriable final outcomes attempt := ⟨error, houtcome, hfinal⟩
            refine .inr (.inr ⟨error, rfl, fun earlier hle => ?_, by simp [hfinal]⟩)
            obtain rfl : earlier = 0 := by omega
            exact hretry
  | succ left ih =>
      by_cases hretry : Retriable final outcomes attempt
      · rw [attemptsFrom_succ hretry]
        have hearlier : ∀ {bound : ℕ},
            (∀ earlier < bound, Retriable final outcomes (attempt + 1 + earlier)) →
              ∀ earlier < bound + 1, Retriable final outcomes (attempt + earlier) := by
          intro bound hall earlier hlt
          cases earlier with
          | zero => exact hretry
          | succ earlier =>
              have h := hall earlier (by omega)
              rwa [Nat.add_right_comm] at h
        have hshift : ∀ last, attempt + 1 + last = attempt + (last + 1) := fun last => by omega
        cases ih (attempt + 1) with
        | inl h =>
            obtain ⟨last, value, hle, houtcome, hall, heq⟩ := h
            rw [hshift] at houtcome heq
            exact .inl ⟨last + 1, value, by omega, houtcome, hearlier hall, heq⟩
        | inr h =>
            cases h with
            | inl h =>
                obtain ⟨last, error, hle, houtcome, hfinal, hall, heq⟩ := h
                rw [hshift] at houtcome heq
                exact .inr (.inl
                  ⟨last + 1, error, by omega, houtcome, hfinal, hearlier hall, heq⟩)
            | inr h =>
                obtain ⟨error, houtcome, hall, heq⟩ := h
                rw [hshift] at houtcome heq
                refine .inr (.inr ⟨error, houtcome, fun earlier hle => ?_, heq⟩)
                exact hearlier (fun _ hlt => hall _ (Nat.le_of_lt_succ hlt)) earlier
                  (Nat.lt_succ_of_le hle)
      · rw [attemptsFrom]
        cases houtcome : outcomes attempt with
        | ok value => exact .inl ⟨0, value, by omega, houtcome, by simp, by simp⟩
        | error error =>
            have hfinal : final error = true := by
              by_contra hnot
              exact hretry ⟨error, houtcome, by simpa using hnot⟩
            exact .inr (.inl ⟨0, error, by omega, houtcome, hfinal, by simp, by simp [hfinal]⟩)

theorem Retriable.final_eq_false
    {attempt : ℕ}
    {error : ε}
    (hretry : Retriable final outcomes attempt)
    (houtcome : outcomes attempt = .error error) :
    final error = false := by
  obtain ⟨error', houtcome', hfinal⟩ := hretry
  rw [houtcome] at houtcome'
  cases houtcome'
  exact hfinal

theorem attempts_of_answered
    {limit last : ℕ}
    {value : α}
    (hlt : last < max 1 limit)
    (houtcome : outcomes last = .ok value)
    (hall : ∀ earlier < last, Retriable final outcomes earlier) :
    attempts final outcomes limit = (.answered value, last + 1) := by
  have hskip : attemptsFrom final outcomes (limit - 1) 0 =
      attemptsFrom final outcomes (limit - 1 - last) (0 + last) :=
    attemptsFrom_skip (by omega) fun earlier hearlier => by simpa using hall earlier hearlier
  unfold attempts
  rw [hskip, Nat.zero_add, attemptsFrom, houtcome]

theorem attempts_of_refused
    {limit last : ℕ}
    {error : ε}
    (hlt : last < max 1 limit)
    (houtcome : outcomes last = .error error)
    (hfinal : final error = true)
    (hall : ∀ earlier < last, Retriable final outcomes earlier) :
    attempts final outcomes limit = (.refused error, last + 1) := by
  have hskip : attemptsFrom final outcomes (limit - 1) 0 =
      attemptsFrom final outcomes (limit - 1 - last) (0 + last) :=
    attemptsFrom_skip (by omega) fun earlier hearlier => by simpa using hall earlier hearlier
  unfold attempts
  rw [hskip, Nat.zero_add, attemptsFrom, houtcome]
  exact if_pos hfinal

theorem attempts_of_exhausted
    {limit : ℕ}
    (hall : ∀ attempt < max 1 limit, Retriable final outcomes attempt) :
    ∃ error, attempts final outcomes limit = (.exhausted error, max 1 limit) := by
  have hskip : attemptsFrom final outcomes (limit - 1) 0 =
      attemptsFrom final outcomes (limit - 1 - (limit - 1)) (0 + (limit - 1)) :=
    attemptsFrom_skip le_rfl fun earlier hearlier => by simpa using hall earlier (by omega)
  obtain ⟨error, houtcome, hfinal⟩ := hall (limit - 1) (by omega)
  have hmade : limit - 1 + 1 = max 1 limit := by omega
  refine ⟨error, ?_⟩
  unfold attempts
  rw [hskip, Nat.zero_add, Nat.sub_self, attemptsFrom, houtcome, ← hmade]
  simp only [hfinal, Bool.false_eq_true, if_false]

variable (final outcomes) in
theorem attempts_eq_answered_iff
    (limit : ℕ)
    (value : α) :
    (attempts final outcomes limit).1 = .answered value ↔
      ∃ last < max 1 limit, outcomes last = .ok value ∧
        ∀ earlier < last, Retriable final outcomes earlier := by
  have hcases := attemptsFrom_cases final outcomes (limit - 1) 0
  simp only [Nat.zero_add] at hcases
  unfold attempts
  constructor
  · intro hanswered
    rcases hcases with ⟨last, value', hle, houtcome, hall, heq⟩ |
      ⟨last, error, hle, houtcome, hfinal, hall, heq⟩ | ⟨error, houtcome, hall, heq⟩
    · rw [heq] at hanswered
      cases hanswered
      exact ⟨last, by omega, houtcome, hall⟩
    · rw [heq] at hanswered
      cases hanswered
    · rw [heq] at hanswered
      cases hanswered
  · rintro ⟨last, hlt, houtcome, hall⟩
    have hanswered := attempts_of_answered hlt houtcome hall
    unfold attempts at hanswered
    rw [hanswered]

variable (final outcomes) in
theorem attempts_calls_le
    (limit : ℕ) :
    (attempts final outcomes limit).2 ≤ max 1 limit := by
  have hcases := attemptsFrom_cases final outcomes (limit - 1) 0
  unfold attempts
  rcases hcases with ⟨last, value, hle, _, _, heq⟩ | ⟨last, error, hle, _, _, _, heq⟩ |
    ⟨error, _, _, heq⟩
  · rw [heq]
    omega
  · rw [heq]
    omega
  · rw [heq]
    omega

theorem attempts_eq_exhausted_iff
    {limit : ℕ} :
    (∃ error, (attempts final outcomes limit).1 = .exhausted error) ↔
      ∀ attempt < max 1 limit, Retriable final outcomes attempt := by
  constructor
  · rintro ⟨error, hexhausted⟩ attempt hlt
    have hcases := attemptsFrom_cases final outcomes (limit - 1) 0
    simp only [Nat.zero_add] at hcases
    unfold attempts at hexhausted
    rcases hcases with ⟨last, value, _, _, _, heq⟩ | ⟨last, error, _, _, _, _, heq⟩ |
      ⟨error, _, hall, heq⟩
    · rw [heq] at hexhausted
      cases hexhausted
    · rw [heq] at hexhausted
      cases hexhausted
    · exact hall attempt (by omega)
  · intro hall
    obtain ⟨error, heq⟩ := attempts_of_exhausted hall
    exact ⟨error, by rw [heq]⟩

variable (final outcomes) in
/-- A refusal is a final failure within the limit before which nothing answered.
The failure a call is refused for is the first final one. -/
theorem attempts_eq_refused_iff
    (limit : ℕ) :
    (∃ error, (attempts final outcomes limit).1 = .refused error) ↔
      ∃ last < max 1 limit, (∃ error, outcomes last = .error error ∧ final error = true) ∧
        ∀ earlier < last, ∃ error, outcomes earlier = .error error := by
  have hcases := attemptsFrom_cases final outcomes (limit - 1) 0
  simp only [Nat.zero_add] at hcases
  unfold attempts
  constructor
  · rintro ⟨error', hrefused⟩
    rcases hcases with ⟨last, value', hle, houtcome, hall, heq⟩ |
      ⟨last, error, hle, houtcome, hfinal, hall, heq⟩ | ⟨error, houtcome, hall, heq⟩
    · rw [heq] at hrefused
      cases hrefused
    · refine ⟨last, by omega, ⟨error, houtcome, hfinal⟩, fun earlier hlt => ?_⟩
      obtain ⟨error, houtcome, -⟩ := hall earlier hlt
      exact ⟨error, houtcome⟩
    · rw [heq] at hrefused
      cases hrefused
  · rintro ⟨last, hlt, hlast, hall⟩
    -- Before the first final failure every attempt is retried.
    classical
    have hexists : ∃ attempt error, outcomes attempt = .error error ∧ final error = true :=
      ⟨last, hlast⟩
    have hle : Nat.find hexists ≤ last := Nat.find_min' hexists hlast
    obtain ⟨error, houtcome, hfinal⟩ := Nat.find_spec hexists
    have hretried : ∀ earlier < Nat.find hexists, Retriable final outcomes earlier := by
      intro earlier hearlier
      obtain ⟨failure, hfailure⟩ := hall earlier (by omega)
      have hnot := Nat.find_min hexists hearlier
      refine ⟨failure, hfailure, ?_⟩
      rw [← Bool.not_eq_true]
      exact fun hfinal => hnot ⟨failure, hfailure, hfinal⟩
    have hlimit : Nat.find hexists < max 1 limit := by omega
    have hrefused := attempts_of_refused hlimit houtcome hfinal hretried
    unfold attempts at hrefused
    exact ⟨error, by rw [hrefused]⟩

variable (final outcomes) in
theorem final_of_attempts_eq
    (limit : ℕ)
    (error : ε) :
    ((attempts final outcomes limit).1 = .refused error → final error = true) ∧
      ((attempts final outcomes limit).1 = .exhausted error → final error = false) := by
  have hcases := attemptsFrom_cases final outcomes (limit - 1) 0
  simp only [Nat.zero_add] at hcases
  unfold attempts
  rcases hcases with ⟨last, value', hle, houtcome, hall, heq⟩ |
    ⟨last, error', hle, houtcome, hfinal, hall, heq⟩ | ⟨error', houtcome, hall, heq⟩
  · simp [heq]
  · rw [heq]
    simp only [Ending.refused.injEq, reduceCtorEq, IsEmpty.forall_iff, and_true]
    rintro rfl
    exact hfinal
  · rw [heq]
    simp only [Ending.exhausted.injEq, reduceCtorEq, IsEmpty.forall_iff, true_and]
    rintro rfl
    exact (hall _ le_rfl).final_eq_false houtcome

end BoundedRetry
