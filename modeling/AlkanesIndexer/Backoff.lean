import AlkanesIndexer.TokenAmounts

/-!
# The delay before a retry

The retry loops read their settings from the environment, which bounds them by the
widths of their types only.  After a failed attempt the base delay is doubled as
often as attempts have failed before, jitter below the base delay is added, and the
sum is capped.  The arithmetic is that of `u128`: where it overflows, a debug build
panics and a release build wraps.
-/

namespace AlkanesIndexer

/-! ## Machine arithmetic -/

inductive Build where
  | debug
  | release
  deriving DecidableEq, Repr

inductive Panic where
  | emptyRange
  | overflow
  deriving DecidableEq, Repr

def overflowing (build : Build) (wrapped : ℕ) : Except Panic ℕ :=
  match build with
  | .debug => .error .overflow
  | .release => .ok wrapped

def addU128 (build : Build) (left right : ℕ) : Except Panic ℕ :=
  if left + right ≤ u128Max then .ok (left + right)
  else overflowing build ((left + right) % 2 ^ 128)

def mulU128 (build : Build) (left right : ℕ) : Except Panic ℕ :=
  if left * right ≤ u128Max then .ok (left * right)
  else overflowing build (left * right % 2 ^ 128)

/-- A shift by the width or more counts as an overflow; bits that are shifted out do
not. -/
def shlU128 (build : Build) (left shift : ℕ) : Except Panic ℕ :=
  if shift < 128 then .ok ((left <<< shift) % 2 ^ 128)
  else overflowing build ((left <<< (shift % 128)) % 2 ^ 128)

/-- `fastrand::u64(0..bound)`; `draw` is what the generator makes of its state. -/
def randomBelow (bound draw : ℕ) : Except Panic ℕ :=
  if bound = 0 then .error .emptyRange else .ok (draw % bound)

/-! ## Settings -/

structure RetrySettings where
  maxAttempts : ℕ
  baseDelayMs : ℕ
  maxDelayMs : ℕ
  maxAttempts_lt : maxAttempts < 2 ^ 32
  baseDelayMs_lt : baseDelayMs < 2 ^ 64
  maxDelayMs_lt : maxDelayMs < 2 ^ 64

/-- `s.parse::<u32>().ok()` and `s.parse::<u64>().ok()`. -/
def parseUnsigned (bits : ℕ) (text : String) : Option ℕ :=
  (u128FromStrRadix 10 text.toList).filter (· < 2 ^ bits)

def envUnsigned (env : String → Option String) (name : String) (bits default : ℕ) : ℕ :=
  ((env name).bind (parseUnsigned bits)).getD default

theorem envUnsigned_lt
    {env : String → Option String}
    {name : String}
    {bits default : ℕ}
    (hdefault : default < 2 ^ bits) :
    envUnsigned env name bits default < 2 ^ bits := by
  unfold envUnsigned
  cases hparsed : (env name).bind (parseUnsigned bits) with
  | none => exact hdefault
  | some value =>
      obtain ⟨text, _, htext⟩ := Option.bind_eq_some_iff.mp hparsed
      exact of_decide_eq_true (Option.filter_eq_some_iff.mp htext).2

def RetrySettings.ofEnv (env : String → Option String) : RetrySettings where
  maxAttempts := envUnsigned env "RPC_MAX_RETRIES" 32 5
  baseDelayMs := envUnsigned env "RPC_BASE_BACKOFF_MS" 64 200
  maxDelayMs := envUnsigned env "RPC_MAX_BACKOFF_MS" 64 5000
  maxAttempts_lt := envUnsigned_lt (by decide)
  baseDelayMs_lt := envUnsigned_lt (by decide)
  maxDelayMs_lt := envUnsigned_lt (by decide)

/-! ## The delay -/

/-- The delay after the failed attempt number `attempt`, counted from one.  The cast
back to `u64` loses nothing behind the cap. -/
def backoffDelay
    (build : Build)
    (settings : RetrySettings)
    (attempt draw : ℕ) : Except Panic ℕ := do
  let jitter ← randomBelow settings.baseDelayMs draw
  let factor ← shlU128 build 1 (attempt - 1)
  let product ← mulU128 build settings.baseDelayMs factor
  let sum ← addU128 build product jitter
  return min sum settings.maxDelayMs

/-- The loop goes on after this attempt. -/
def RetrySettings.GoesOn (settings : RetrySettings) (attempt : ℕ) : Prop :=
  1 ≤ attempt ∧ attempt < settings.maxAttempts

section Delay

variable
  {build : Build}
  {settings : RetrySettings}
  {attempt draw delay : ℕ}

theorem shlU128_one
    {shift : ℕ}
    (hshift : shift < 128) :
    shlU128 build 1 shift = .ok (2 ^ shift) := by
  have hlt : 2 ^ shift < 2 ^ 128 := Nat.pow_lt_pow_right (by decide) hshift
  unfold shlU128
  rw [if_pos hshift, Nat.one_shiftLeft, Nat.mod_eq_of_lt hlt]

theorem two_pow_le_mul
    {base shift : ℕ}
    (hbase : 0 < base) :
    2 ^ shift ≤ base * 2 ^ shift :=
  Nat.le_mul_of_pos_left _ hbase

theorem shift_lt_of_fits
    {base shift rest : ℕ}
    (hbase : 0 < base)
    (hfits : base * 2 ^ shift + rest ≤ u128Max) :
    shift < 128 := by
  by_contra hnot
  have hpow : 2 ^ 128 ≤ 2 ^ shift := Nat.pow_le_pow_right (by decide) (by omega)
  have hmul : 2 ^ shift ≤ base * 2 ^ shift := two_pow_le_mul hbase
  have hmax : u128Max < 2 ^ 128 := by decide
  omega

/-- Without an overflow the delay is what the formula says, in either build. -/
theorem backoffDelay_of_fits
    (build : Build)
    (hbase : 0 < settings.baseDelayMs)
    (hfits : settings.baseDelayMs * 2 ^ (attempt - 1) + draw % settings.baseDelayMs ≤ u128Max) :
    backoffDelay build settings attempt draw =
      .ok (min (settings.baseDelayMs * 2 ^ (attempt - 1) + draw % settings.baseDelayMs)
        settings.maxDelayMs) := by
  have hshift := shift_lt_of_fits hbase hfits
  have hproduct : settings.baseDelayMs * 2 ^ (attempt - 1) ≤ u128Max := by omega
  unfold backoffDelay
  rw [randomBelow, if_neg (by omega), shlU128_one hshift]
  simp only [bind, Except.bind, mulU128, if_pos hproduct, addU128, if_pos hfits]
  rfl

/-- A delay computed without a panic in a debug build has met no overflow. -/
theorem fits_of_backoffDelay
    (hdelay : backoffDelay .debug settings attempt draw = .ok delay) :
    0 < settings.baseDelayMs ∧
      settings.baseDelayMs * 2 ^ (attempt - 1) + draw % settings.baseDelayMs ≤ u128Max := by
  unfold backoffDelay randomBelow at hdelay
  by_cases hbase : settings.baseDelayMs = 0
  · rw [if_pos hbase] at hdelay
    cases hdelay
  · rw [if_neg hbase] at hdelay
    refine ⟨by omega, ?_⟩
    by_cases hshift : attempt - 1 < 128
    · rw [shlU128_one hshift] at hdelay
      by_contra hnot
      by_cases hproduct : settings.baseDelayMs * 2 ^ (attempt - 1) ≤ u128Max
      · simp [bind, Except.bind, mulU128, hproduct, addU128, hnot, overflowing] at hdelay
      · simp [bind, Except.bind, mulU128, hproduct, overflowing] at hdelay
    · simp [bind, Except.bind, shlU128, hshift, overflowing] at hdelay

/-- In either build a computed delay is capped. -/
theorem backoffDelay_le
    (hdelay : backoffDelay build settings attempt draw = .ok delay) :
    delay ≤ settings.maxDelayMs := by
  have hcases : ∀ sum : Except Panic ℕ,
      (sum.bind fun total => .ok (min total settings.maxDelayMs)) = .ok delay →
        delay ≤ settings.maxDelayMs := by
    intro sum hsum
    cases sum with
    | error panic => cases hsum
    | ok total =>
        rw [← Except.ok.inj hsum]
        exact min_le_right _ _
  unfold backoffDelay at hdelay
  simp only [bind] at hdelay
  cases hjitter : randomBelow settings.baseDelayMs draw with
  | error panic =>
      rw [hjitter] at hdelay
      cases hdelay
  | ok jitter =>
      rw [hjitter] at hdelay
      cases hfactor : shlU128 build 1 (attempt - 1) with
      | error panic =>
          rw [hfactor] at hdelay
          cases hdelay
      | ok factor =>
          rw [hfactor] at hdelay
          cases hproduct : mulU128 build settings.baseDelayMs factor with
          | error panic =>
              simp only [Except.bind, hproduct] at hdelay
              cases hdelay
          | ok product =>
              simp only [Except.bind, hproduct] at hdelay
              exact hcases (addU128 build product jitter) hdelay

end Delay

/-! ## Safe settings -/

/-- At most one attempt is made, or the base delay is positive and the last sum, with
the most jitter there can be, fits. -/
def RetrySettings.Bounded (settings : RetrySettings) : Prop :=
  settings.maxAttempts ≤ 1 ∨
    0 < settings.baseDelayMs ∧
      settings.baseDelayMs * 2 ^ (settings.maxAttempts - 2) + (settings.baseDelayMs - 1) <
        2 ^ 128

theorem RetrySettings.Bounded.fits
    {settings : RetrySettings}
    (hbounded : settings.Bounded)
    {attempt : ℕ}
    (hgoes : settings.GoesOn attempt)
    (draw : ℕ) :
    0 < settings.baseDelayMs ∧
      settings.baseDelayMs * 2 ^ (attempt - 1) + draw % settings.baseDelayMs ≤ u128Max := by
  have hmax : u128Max + 1 = 2 ^ 128 := by decide
  have hle := hgoes.1
  have hlt := hgoes.2
  cases hbounded with
  | inl hone => omega
  | inr hlast =>
      have hpow : 2 ^ (attempt - 1) ≤ 2 ^ (settings.maxAttempts - 2) :=
        Nat.pow_le_pow_right (by decide) (by omega)
      have hmul := Nat.mul_le_mul_left settings.baseDelayMs hpow
      have hjitter := Nat.mod_lt draw hlast.1
      have hfits := hlast.2
      exact ⟨hlast.1, by omega⟩

/-- After every attempt the delay is computed without a panic or an overflow, it is
capped, and without jitter it does not decrease. -/
structure SafeBackoff (settings : RetrySettings) : Prop where
  computes : ∀ attempt draw, settings.GoesOn attempt →
    ∃ delay, backoffDelay .debug settings attempt draw = .ok delay
  capped : ∀ build attempt draw delay, settings.GoesOn attempt →
    backoffDelay build settings attempt draw = .ok delay → delay ≤ settings.maxDelayMs
  grows : ∀ build attempt delay delay', settings.GoesOn attempt →
    settings.GoesOn (attempt + 1) → backoffDelay build settings attempt 0 = .ok delay →
    backoffDelay build settings (attempt + 1) 0 = .ok delay' → delay ≤ delay'

theorem safeBackoff_iff
    (settings : RetrySettings) :
    SafeBackoff settings ↔ settings.Bounded := by
  have hmax : u128Max + 1 = 2 ^ 128 := by decide
  constructor
  · intro hsafe
    by_cases hone : settings.maxAttempts ≤ 1
    · exact Or.inl hone
    · right
      have hlast : settings.GoesOn (settings.maxAttempts - 1) := ⟨by omega, by omega⟩
      obtain ⟨delay, hdelay⟩ := hsafe.computes _ (settings.baseDelayMs - 1) hlast
      obtain ⟨hbase, hfits⟩ := fits_of_backoffDelay hdelay
      have hjitter : (settings.baseDelayMs - 1) % settings.baseDelayMs =
          settings.baseDelayMs - 1 := Nat.mod_eq_of_lt (by omega)
      have hshift : settings.maxAttempts - 1 - 1 = settings.maxAttempts - 2 := by omega
      rw [hjitter, hshift] at hfits
      exact ⟨hbase, by omega⟩
  · intro hbounded
    constructor
    · intro attempt draw hgoes
      obtain ⟨hbase, hfit⟩ := hbounded.fits hgoes draw
      exact ⟨_, backoffDelay_of_fits .debug hbase hfit⟩
    · intro build attempt draw delay _ hdelay
      exact backoffDelay_le hdelay
    · intro build attempt delay delay' hgoes hgoes' hdelay hdelay'
      obtain ⟨hbase, hfit⟩ := hbounded.fits hgoes 0
      obtain ⟨_, hfit'⟩ := hbounded.fits hgoes' 0
      rw [backoffDelay_of_fits build hbase hfit] at hdelay
      rw [backoffDelay_of_fits build hbase hfit'] at hdelay'
      rw [← Except.ok.inj hdelay, ← Except.ok.inj hdelay']
      have hpow : 2 ^ (attempt - 1) ≤ 2 ^ (attempt + 1 - 1) :=
        Nat.pow_le_pow_right (by decide) (by omega)
      have hmul := Nat.mul_le_mul_left settings.baseDelayMs hpow
      omega

/-- No base delay is set, and the other settings are the defaults. -/
def zeroBase : String → Option String := fun name =>
  if name = "RPC_BASE_BACKOFF_MS" then some "0" else none

theorem zeroBase_not_safe :
    ¬ SafeBackoff (.ofEnv zeroBase) := by
  intro hsafe
  obtain ⟨delay, hdelay⟩ := hsafe.computes 1 0 ⟨le_rfl, by decide⟩
  cases hdelay

end AlkanesIndexer
