import AlkanesIndexer.Backoff
import AlkanesIndexer.TraceCalls

/-!
# The retry wrappers

Three wrappers attempt a call again and again, each with a loop of its own: two for
JSON-RPC calls, one of which keeps the last error for its final message, and one for
any operation of the provider.  A loop leaves at an answer, at a failure it does not
retry, at the limit, where it trips the circuit, or in a panic of the delay.
-/

namespace AlkanesIndexer

open BoundedRetry

namespace RetryWrapper

variable {α : Type*}

/-- Whether the circuit is open when the call is made, and what the provider answers
to each attempt. -/
structure WrappedCall (α : Type*) where
  circuitOpen : Bool
  outcomes : ℕ → Except CallFailure α

inductive CallEnd (α : Type*) where
  | returned (value : α)
  | failed (message : String)
  | panicked (panic : Panic)

structure WrapperReport (α : Type*) where
  ending : CallEnd α
  calls : ℕ
  tripped : Bool

/-! ## The loops

`attempt` counts the attempts made before the pass; `draws` are the numbers drawn for
the jitter. -/

def resilientCallLoop
    (build : Build)
    (settings : RetrySettings)
    (draws : ℕ → ℕ)
    (method : String)
    (outcomes : ℕ → Except CallFailure JsonValue)
    (attempt : ℕ) : WrapperReport JsonValue :=
  match outcomes attempt with
  | .ok value => ⟨.returned value, attempt + 1, false⟩
  | .error failure =>
      if isNonRetriable method failure then ⟨.failed failure.message, attempt + 1, false⟩
      else if attempt + 1 ≥ settings.maxAttempts then
        ⟨.failed "rpc_failed_after_retries", attempt + 1, true⟩
      else
        match backoffDelay build settings (attempt + 1) (draws attempt) with
        | .error panic => ⟨.panicked panic, attempt + 1, false⟩
        | .ok _ => resilientCallLoop build settings draws method outcomes (attempt + 1)
termination_by settings.maxAttempts - attempt

/-- The last error is written in every pass that reaches the limit. -/
def resilientCallWithLastErrorLoop
    (build : Build)
    (settings : RetrySettings)
    (draws : ℕ → ℕ)
    (method : String)
    (outcomes : ℕ → Except CallFailure JsonValue)
    (attempt : ℕ) : WrapperReport JsonValue :=
  match outcomes attempt with
  | .ok value => ⟨.returned value, attempt + 1, false⟩
  | .error failure =>
      if isNonRetriable method failure then ⟨.failed failure.message, attempt + 1, false⟩
      else
        let lastError := some failure.message
        if attempt + 1 ≥ settings.maxAttempts then
          ⟨.failed ("rpc_failed_after_retries: last_error=" ++ lastError.getD ""),
            attempt + 1, true⟩
        else
          match backoffDelay build settings (attempt + 1) (draws attempt) with
          | .error panic => ⟨.panicked panic, attempt + 1, false⟩
          | .ok _ =>
              resilientCallWithLastErrorLoop build settings draws method outcomes (attempt + 1)
termination_by settings.maxAttempts - attempt

/-- No failure ends this loop early. -/
def resilientProviderCallLoop
    (build : Build)
    (settings : RetrySettings)
    (draws : ℕ → ℕ)
    (outcomes : ℕ → Except CallFailure α)
    (attempt : ℕ) : WrapperReport α :=
  match outcomes attempt with
  | .ok value => ⟨.returned value, attempt + 1, false⟩
  | .error _ =>
      if attempt + 1 ≥ settings.maxAttempts then
        ⟨.failed "provider_failed_after_retries", attempt + 1, true⟩
      else
        match backoffDelay build settings (attempt + 1) (draws attempt) with
        | .error panic => ⟨.panicked panic, attempt + 1, false⟩
        | .ok _ => resilientProviderCallLoop build settings draws outcomes (attempt + 1)
termination_by settings.maxAttempts - attempt

def circuitReport : WrapperReport α := ⟨.failed "rpc_circuit_open", 0, false⟩

def resilientCall
    (build : Build)
    (settings : RetrySettings)
    (draws : ℕ → ℕ)
    (method : String)
    (call : WrappedCall JsonValue) : WrapperReport JsonValue :=
  if call.circuitOpen then circuitReport
  else resilientCallLoop build settings draws method call.outcomes 0

def resilientCallWithLastError
    (build : Build)
    (settings : RetrySettings)
    (draws : ℕ → ℕ)
    (method : String)
    (call : WrappedCall JsonValue) : WrapperReport JsonValue :=
  if call.circuitOpen then circuitReport
  else resilientCallWithLastErrorLoop build settings draws method call.outcomes 0

def resilientProviderCall
    (build : Build)
    (settings : RetrySettings)
    (draws : ℕ → ℕ)
    (call : WrappedCall α) : WrapperReport α :=
  if call.circuitOpen then circuitReport
  else resilientProviderCallLoop build settings draws call.outcomes 0

/-! ## A loop is a bounded retry -/

/-- No delay the loop computes overflows or panics. -/
def DelaysFit (settings : RetrySettings) : Prop :=
  ∀ attempt draw, settings.GoesOn attempt →
    ∃ delay, backoffDelay .debug settings attempt draw = .ok delay

/-- What a wrapper makes of the end of its attempts. -/
def reportOf
    (giveUp : CallFailure → String) : Ending α CallFailure × ℕ → WrapperReport α
  | (.answered value, calls) => ⟨.returned value, calls, false⟩
  | (.refused failure, calls) => ⟨.failed failure.message, calls, false⟩
  | (.exhausted failure, calls) => ⟨.failed (giveUp failure), calls, true⟩

/-- One pass of a loop, whose further passes come to `rest`. -/
def pass
    (build : Build)
    (settings : RetrySettings)
    (draws : ℕ → ℕ)
    (final : CallFailure → Bool)
    (giveUp : CallFailure → String)
    (attempt : ℕ)
    (rest : WrapperReport α) : Except CallFailure α → WrapperReport α
  | .ok value => ⟨.returned value, attempt + 1, false⟩
  | .error failure =>
      if final failure then ⟨.failed failure.message, attempt + 1, false⟩
      else if attempt + 1 ≥ settings.maxAttempts then
        ⟨.failed (giveUp failure), attempt + 1, true⟩
      else
        match backoffDelay build settings (attempt + 1) (draws attempt) with
        | .error panic => ⟨.panicked panic, attempt + 1, false⟩
        | .ok _ => rest

section Loops

variable
  {build : Build}
  {settings : RetrySettings}
  {draws : ℕ → ℕ}
  {method : String}

theorem DelaysFit.computes
    (hfit : DelaysFit settings)
    (build : Build)
    {attempt : ℕ}
    (hgoes : settings.GoesOn attempt)
    (draw : ℕ) :
    ∃ delay, backoffDelay build settings attempt draw = .ok delay := by
  obtain ⟨delay, hdelay⟩ := hfit attempt draw hgoes
  have hfits := fits_of_backoffDelay hdelay
  exact ⟨_, backoffDelay_of_fits build hfits.1 hfits.2⟩

theorem DelaysFit.of_bounded
    (hbounded : settings.Bounded) :
    DelaysFit settings := by
  intro attempt draw hgoes
  have hfits := hbounded.fits hgoes draw
  exact ⟨_, backoffDelay_of_fits .debug hfits.1 hfits.2⟩

/-- A loop that makes these passes is the bounded retry: the limit of the settings
leaves one retry fewer. -/
theorem loop_eq_reportOf
    (hfit : DelaysFit settings)
    {final : CallFailure → Bool}
    {giveUp : CallFailure → String}
    {outcomes : ℕ → Except CallFailure α}
    {loop : ℕ → WrapperReport α}
    (hpass : ∀ attempt, loop attempt =
      pass build settings draws final giveUp attempt (loop (attempt + 1)) (outcomes attempt))
    (left attempt : ℕ)
    (hleft : left = settings.maxAttempts - 1 - attempt) :
    loop attempt = reportOf giveUp (attemptsFrom final outcomes left attempt) := by
  induction left generalizing attempt with
  | zero =>
      rw [hpass, attemptsFrom]
      cases houtcome : outcomes attempt with
      | ok value => rfl
      | error failure =>
          by_cases hfinal : final failure = true
          · simp only [pass, hfinal, if_true, reportOf]
          · have hlimit : attempt + 1 ≥ settings.maxAttempts := by omega
            simp only [pass, hfinal, hlimit, Bool.false_eq_true, if_false, if_true, reportOf]
  | succ left ih =>
      rw [hpass, attemptsFrom]
      cases houtcome : outcomes attempt with
      | ok value => rfl
      | error failure =>
          by_cases hfinal : final failure = true
          · simp only [pass, hfinal, if_true, reportOf]
          · have hlimit : ¬ attempt + 1 ≥ settings.maxAttempts := by omega
            have hgoes : settings.GoesOn (attempt + 1) := ⟨by omega, by omega⟩
            obtain ⟨delay, hdelay⟩ := hfit.computes build hgoes (draws attempt)
            have hrest := ih (attempt + 1) (by omega)
            simp only [pass, hfinal, hlimit, hdelay, Bool.false_eq_true, if_false]
            exact hrest

theorem resilientCallLoop_eq_pass
    (outcomes : ℕ → Except CallFailure JsonValue)
    (attempt : ℕ) :
    resilientCallLoop build settings draws method outcomes attempt =
      pass build settings draws (isNonRetriable method) (fun _ => "rpc_failed_after_retries")
        attempt (resilientCallLoop build settings draws method outcomes (attempt + 1))
        (outcomes attempt) := by
  rw [resilientCallLoop]
  cases outcomes attempt <;> rfl

theorem resilientCallWithLastErrorLoop_eq_pass
    (outcomes : ℕ → Except CallFailure JsonValue)
    (attempt : ℕ) :
    resilientCallWithLastErrorLoop build settings draws method outcomes attempt =
      pass build settings draws (isNonRetriable method)
        (fun failure => "rpc_failed_after_retries: last_error=" ++ failure.message) attempt
        (resilientCallWithLastErrorLoop build settings draws method outcomes (attempt + 1))
        (outcomes attempt) := by
  rw [resilientCallWithLastErrorLoop]
  cases outcomes attempt <;> rfl

theorem resilientProviderCallLoop_eq_pass
    (outcomes : ℕ → Except CallFailure α)
    (attempt : ℕ) :
    resilientProviderCallLoop build settings draws outcomes attempt =
      pass build settings draws (fun _ => false) (fun _ => "provider_failed_after_retries")
        attempt (resilientProviderCallLoop build settings draws outcomes (attempt + 1))
        (outcomes attempt) := by
  rw [resilientProviderCallLoop]
  cases outcomes attempt <;> rfl

theorem resilientCall_eq
    (hfit : DelaysFit settings)
    {call : WrappedCall JsonValue}
    (hadmitted : call.circuitOpen = false) :
    resilientCall build settings draws method call =
      reportOf (fun _ => "rpc_failed_after_retries")
        (attempts (isNonRetriable method) call.outcomes settings.maxAttempts) := by
  unfold resilientCall
  rw [hadmitted]
  exact loop_eq_reportOf hfit (resilientCallLoop_eq_pass call.outcomes) _ 0 rfl

theorem resilientCallWithLastError_eq
    (hfit : DelaysFit settings)
    {call : WrappedCall JsonValue}
    (hadmitted : call.circuitOpen = false) :
    resilientCallWithLastError build settings draws method call =
      reportOf (fun failure => "rpc_failed_after_retries: last_error=" ++ failure.message)
        (attempts (isNonRetriable method) call.outcomes settings.maxAttempts) := by
  unfold resilientCallWithLastError
  rw [hadmitted]
  exact loop_eq_reportOf hfit (resilientCallWithLastErrorLoop_eq_pass call.outcomes) _ 0 rfl

theorem resilientProviderCall_eq
    (hfit : DelaysFit settings)
    {call : WrappedCall α}
    (hadmitted : call.circuitOpen = false) :
    resilientProviderCall build settings draws call =
      reportOf (fun _ => "provider_failed_after_retries")
        (attempts (fun _ => false) call.outcomes settings.maxAttempts) := by
  unfold resilientProviderCall
  rw [hadmitted]
  exact loop_eq_reportOf hfit (resilientProviderCallLoop_eq_pass call.outcomes) _ 0 rfl

/-- The calls of the trace decoder are those of the loop with its delays. -/
theorem resilientCallWithLastError_refines
    (hfit : DelaysFit settings)
    (call : RpcCall) :
    let report := resilientCallWithLastError build settings draws method
      ⟨call.circuitOpen, call.outcomes⟩
    let decoded := AlkanesIndexer.resilientCallWithLastError settings.maxAttempts method call
    (∀ value, report.ending = .returned value ↔ decoded.result = .ok value) ∧
      (∀ message, report.ending = .failed message ↔ decoded.result = .error message) ∧
      report.calls = decoded.calls ∧
      report.tripped = decoded.tripped := by
  intro report decoded
  cases hcircuit : call.circuitOpen with
  | true =>
      have hreport : report = circuitReport := by
        simp only [report, resilientCallWithLastError, hcircuit, if_true]
      have hdecoded : decoded = ⟨.error "rpc_circuit_open", 0, false⟩ := by
        simp only [decoded, AlkanesIndexer.resilientCallWithLastError, hcircuit, if_true]
      rw [hreport, hdecoded]
      simp [circuitReport]
  | false =>
      have hreport : report = _ := resilientCallWithLastError_eq hfit hcircuit
      rw [hreport]
      simp only [decoded, AlkanesIndexer.resilientCallWithLastError, hcircuit,
        Bool.false_eq_true, if_false]
      obtain ⟨ending, calls⟩ :=
        attempts (isNonRetriable method) call.outcomes settings.maxAttempts
      cases ending <;> simp [reportOf]

end Loops

/-! ## The law -/

/-- Both phrases of the known client error, in whatever case. -/
def HasMarkers (message : String) : Prop :=
  "non-standard error object received".toList <:+: message.toList.map Char.toLower ∧
    "cannot read properties of undefined".toList <:+: message.toList.map Char.toLower

/-- The failures which a JSON-RPC call is not made again after. -/
def MarkedTraceError (method : String) (failure : CallFailure) : Prop :=
  method = "alkanes_trace" ∧ ∃ message, failure = .error message ∧ HasMarkers message

theorem isNonRetriable_iff
    (method : String)
    (failure : CallFailure) :
    isNonRetriable method failure = true ↔ MarkedTraceError method failure := by
  cases failure with
  | error message =>
      simp [isNonRetriable, isKnownUpstreamTypeError, containsText, toAsciiLowercase,
        MarkedTraceError, HasMarkers]
  | timeout => simp [isNonRetriable, MarkedTraceError]

/-- The attempt fails in a way that another one may follow. -/
def FailsRetriably
    (refuses : CallFailure → Prop)
    (outcomes : ℕ → Except CallFailure α)
    (attempt : ℕ) : Prop :=
  ∃ failure, outcomes attempt = .error failure ∧ ¬ refuses failure

/-- What a bounded retry does with the outcomes of its attempts. -/
structure RetryLaw
    (settings : RetrySettings)
    (refuses : CallFailure → Prop)
    (outcomes : ℕ → Except CallFailure α)
    (report : WrapperReport α) : Prop where
  calls_le : report.calls ≤ max 1 settings.maxAttempts
  returned_iff : ∀ value, report.ending = .returned value ↔
    ∃ last < max 1 settings.maxAttempts, outcomes last = .ok value ∧
      ∀ earlier < last, FailsRetriably refuses outcomes earlier
  returned_calls : ∀ last < max 1 settings.maxAttempts, ∀ value, outcomes last = .ok value →
    (∀ earlier < last, FailsRetriably refuses outcomes earlier) → report.calls = last + 1
  tripped_iff : report.tripped = true ↔
    ∀ attempt < max 1 settings.maxAttempts, FailsRetriably refuses outcomes attempt
  refused : ∀ last < max 1 settings.maxAttempts, ∀ failure, outcomes last = .error failure →
    refuses failure → (∀ earlier < last, FailsRetriably refuses outcomes earlier) →
      report = ⟨.failed failure.message, last + 1, false⟩

/-- The two differ at most in the message of a call that gives up. -/
structure SameRetries (report report' : WrapperReport α) : Prop where
  calls : report.calls = report'.calls
  returned : ∀ value, report.ending = .returned value ↔ report'.ending = .returned value
  tripped : report.tripped = report'.tripped

theorem reportOf_calls
    {giveUp : CallFailure → String}
    {made : Ending α CallFailure × ℕ} :
    (reportOf giveUp made).calls = made.2 := by
  obtain ⟨ending, calls⟩ := made
  cases ending <;> rfl

theorem reportOf_returned_iff
    {giveUp : CallFailure → String}
    {made : Ending α CallFailure × ℕ}
    {value : α} :
    (reportOf giveUp made).ending = .returned value ↔ made.1 = .answered value := by
  obtain ⟨ending, calls⟩ := made
  cases ending <;> simp [reportOf]

theorem reportOf_tripped_iff
    {giveUp : CallFailure → String}
    {made : Ending α CallFailure × ℕ} :
    (reportOf giveUp made).tripped = true ↔ ∃ failure, made.1 = .exhausted failure := by
  obtain ⟨ending, calls⟩ := made
  cases ending <;> simp [reportOf]

theorem retryLaw_reportOf
    {final : CallFailure → Bool}
    {refuses : CallFailure → Prop}
    (hfinal : ∀ failure, final failure = true ↔ refuses failure)
    (settings : RetrySettings)
    (giveUp : CallFailure → String)
    (outcomes : ℕ → Except CallFailure α) :
    RetryLaw settings refuses outcomes
      (reportOf giveUp (attempts final outcomes settings.maxAttempts)) := by
  have hretriable : ∀ attempt,
      FailsRetriably refuses outcomes attempt ↔ Retriable final outcomes attempt := by
    intro attempt
    simp only [FailsRetriably, Retriable, ← hfinal, Bool.not_eq_true]
  constructor
  · rw [reportOf_calls]
    exact attempts_calls_le _ _ _
  · intro value
    simp only [hretriable]
    rw [reportOf_returned_iff]
    exact attempts_eq_answered_iff _ _ _ _
  · intro last hlt value houtcome hall
    simp only [hretriable] at hall
    rw [reportOf_calls, attempts_of_answered hlt houtcome hall]
  · simp only [hretriable]
    rw [reportOf_tripped_iff]
    exact attempts_eq_exhausted_iff
  · intro last hlt failure houtcome hrefuses hall
    simp only [hretriable] at hall
    rw [attempts_of_refused hlt houtcome ((hfinal failure).mpr hrefuses) hall]
    rfl

theorem sameRetries_reportOf
    (giveUp giveUp' : CallFailure → String)
    (made : Ending α CallFailure × ℕ) :
    SameRetries (reportOf giveUp made) (reportOf giveUp' made) := by
  obtain ⟨ending, calls⟩ := made
  cases ending <;> exact ⟨rfl, by simp [reportOf], rfl⟩

/-- Each of the three loops is the bounded retry, in either build and whatever numbers
are drawn for the jitter.  A marked error of `alkanes_trace` is the one failure that
the JSON-RPC loops do not retry; the loop for the provider retries every failure. -/
theorem wrappers_follow_retryLaw
    (build : Build)
    {settings : RetrySettings}
    (hfit : DelaysFit settings)
    (draws draws' : ℕ → ℕ)
    (method : String)
    (call : WrappedCall JsonValue)
    (hcall : call.circuitOpen = false)
    (operation : WrappedCall α)
    (hoperation : operation.circuitOpen = false) :
    RetryLaw settings (MarkedTraceError method) call.outcomes
        (resilientCall build settings draws method call) ∧
      RetryLaw settings (MarkedTraceError method) call.outcomes
        (resilientCallWithLastError build settings draws' method call) ∧
      RetryLaw settings (fun _ => False) operation.outcomes
        (resilientProviderCall build settings draws operation) ∧
      SameRetries (resilientCall build settings draws method call)
        (resilientCallWithLastError build settings draws' method call) := by
  rw [resilientCall_eq hfit hcall, resilientCallWithLastError_eq hfit hcall,
    resilientProviderCall_eq hfit hoperation]
  have hmarked := isNonRetriable_iff method
  exact ⟨retryLaw_reportOf hmarked _ _ _, retryLaw_reportOf hmarked _ _ _,
    retryLaw_reportOf (by simp) _ _ _, sameRetries_reportOf _ _ _⟩

/-- A timeout, then an answer. -/
def answeredSecond : WrappedCall JsonValue where
  circuitOpen := false
  outcomes attempt := if attempt = 0 then .error .timeout else .ok (.string "0x0")

def clientError : String :=
  "Non-standard error object received: Cannot read properties of undefined (reading 'substr')"

/-- A timeout, then the known client error, then answers. -/
def refusedSecond : WrappedCall JsonValue where
  circuitOpen := false
  outcomes attempt :=
    if attempt = 0 then .error .timeout
    else if attempt = 1 then .error (.error clientError) else .ok (.string "0x0")

set_option maxRecDepth 8000 in
theorem hasMarkers_clientError :
    HasMarkers clientError := by
  unfold HasMarkers
  decide

theorem not_markedTraceError_timeout
    (method : String) :
    ¬ MarkedTraceError method .timeout := by
  rintro ⟨-, message, heq, -⟩
  cases heq

theorem answeredSecond_follows :
    (resilientCall .debug (.ofEnv fun _ => none) id "alkanes_trace" answeredSecond).calls = 2 ∧
      (resilientProviderCall .debug (.ofEnv fun _ => none) id answeredSecond).tripped = false ∧
      resilientCall .debug (.ofEnv fun _ => none) id "alkanes_trace" refusedSecond =
        ⟨.failed clientError, 2, false⟩ ∧
      resilientCallWithLastError .debug (.ofEnv fun _ => none) id "alkanes_trace" refusedSecond =
        ⟨.failed clientError, 2, false⟩ := by
  have hfit : DelaysFit (.ofEnv fun _ => none) := .of_bounded (.inr (by decide))
  obtain ⟨hlaw, -, hprovider, -⟩ := wrappers_follow_retryLaw .debug hfit id id "alkanes_trace"
    answeredSecond rfl answeredSecond rfl
  obtain ⟨hrefused, hrefused', -, -⟩ := wrappers_follow_retryLaw .debug hfit id id
    "alkanes_trace" refusedSecond rfl answeredSecond rfl
  have hfirst : ∀ call : WrappedCall JsonValue, call.outcomes 0 = .error .timeout →
      ∀ earlier < 1, FailsRetriably (MarkedTraceError "alkanes_trace") call.outcomes earlier := by
    intro call htimeout earlier hlt
    obtain rfl : earlier = 0 := by omega
    exact ⟨.timeout, htimeout, not_markedTraceError_timeout _⟩
  have hmarked : MarkedTraceError "alkanes_trace" (.error clientError) :=
    ⟨rfl, clientError, rfl, hasMarkers_clientError⟩
  refine ⟨?_, ?_, ?_, ?_⟩
  · exact hlaw.returned_calls 1 (by decide) (.string "0x0") rfl (hfirst answeredSecond rfl)
  · by_contra hnot
    obtain ⟨failure, hfailure, -⟩ :=
      hprovider.tripped_iff.mp (Bool.not_eq_false _ ▸ hnot) 1 (by decide)
    cases hfailure
  · exact hrefused.refused 1 (by decide) _ rfl hmarked (hfirst refusedSecond rfl)
  · exact hrefused'.refused 1 (by decide) _ rfl hmarked (hfirst refusedSecond rfl)

end RetryWrapper

end AlkanesIndexer
