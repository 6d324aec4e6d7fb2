import AlkanesIndexer.BoundedRetry
import AlkanesIndexer.Protostone

/-!
# Trace calls and their retries

`resilient_call_with_last_error` attempts a call until it answers.  A message
with both marker phrases ends an `alkanes_trace` call at once; any other failure
is retried, and the last one is named in the error of a call that gives up.  The
decoder looks for the same two phrases in the joined chain of the final error.
-/

namespace AlkanesIndexer

open BoundedRetry Sequences

inductive CallFailure where
  | error (message : String)
  | timeout
  deriving DecidableEq, Repr

def CallFailure.message : CallFailure → String
  | .error message => message
  | .timeout => "timeout"

/-- One call through the wrapper: whether the circuit is open when it is made,
and what the provider answers to each attempt. -/
structure RpcCall where
  circuitOpen : Bool
  outcomes : ℕ → Except CallFailure JsonValue

structure CallReport where
  result : Except String JsonValue
  calls : ℕ
  tripped : Bool

def isNonRetriable (method : String) : CallFailure → Bool
  | .error message => decide (method = "alkanes_trace") && isKnownUpstreamTypeError message
  | .timeout => false

def resilientCallWithLastError
    (maxAttempts : ℕ)
    (method : String)
    (call : RpcCall) : CallReport :=
  if call.circuitOpen then ⟨.error "rpc_circuit_open", 0, false⟩
  else
    match attempts (isNonRetriable method) call.outcomes maxAttempts with
    | (.answered value, calls) => ⟨.ok value, calls, false⟩
    | (.refused failure, calls) => ⟨.error failure.message, calls, false⟩
    | (.exhausted failure, calls) =>
        ⟨.error ("rpc_failed_after_retries: last_error=" ++ failure.message), calls, true⟩

/-- The chain of a failed trace call has the context in front of the message. -/
def traceCall (maxAttempts : ℕ) (call : RpcCall) : Except (List String) JsonValue :=
  match (resilientCallWithLastError maxAttempts "alkanes_trace" call).result with
  | .ok trace => .ok trace
  | .error message => .error ["alkanes_trace call failed", message]

/-! ## What a call comes to -/

/-- Some attempt answers the trace, after failures which are all retried. -/
def RpcCall.Succeeds (call : RpcCall) (maxAttempts : ℕ) (trace : JsonValue) : Prop :=
  call.circuitOpen = false ∧
    ∃ last < max 1 maxAttempts, call.outcomes last = .ok trace ∧
      ∀ earlier < last, ∃ failure, call.outcomes earlier = .error failure ∧
        isNonRetriable "alkanes_trace" failure = false

/-- Some attempt that is made fails with a message with both marker phrases. -/
def RpcCall.FailsKnown (call : RpcCall) (maxAttempts : ℕ) : Prop :=
  call.circuitOpen = false ∧
    ∃ last < max 1 maxAttempts,
      (∃ message, call.outcomes last = .error (.error message) ∧
        isKnownUpstreamTypeError message = true) ∧
      ∀ earlier < last, ∃ failure, call.outcomes earlier = .error failure

theorem traceCall_eq_ok_iff
    {call : RpcCall}
    {maxAttempts : ℕ}
    {trace : JsonValue} :
    traceCall maxAttempts call = .ok trace ↔ call.Succeeds maxAttempts trace := by
  unfold RpcCall.Succeeds traceCall resilientCallWithLastError
  cases hcircuit : call.circuitOpen with
  | true => simp
  | false =>
      have hiff := attempts_eq_answered_iff (isNonRetriable "alkanes_trace")
        call.outcomes maxAttempts trace
      unfold Retriable at hiff
      rw [← hiff]
      obtain ⟨ending, calls⟩ := attempts (isNonRetriable "alkanes_trace") call.outcomes maxAttempts
      cases ending <;> simp

/-! ## The two marker phrases -/

/-- Neither phrase begins in `front`. -/
def NoMarkerIn (front : String) : Prop :=
  ∀ phrase ∈ ["non-standard error object received", "cannot read properties of undefined"],
    ¬ phrase.toList <:+: (toAsciiLowercase front).toList ∧
      ∀ size < phrase.toList.length, 0 < size →
        ¬ phrase.toList.take size <:+ (toAsciiLowercase front).toList

theorem containsText_lowercase_append
    {front phrase : String}
    (hmarker : NoMarkerIn front)
    (hphrase : phrase ∈
      ["non-standard error object received", "cannot read properties of undefined"])
    (message : String) :
    containsText (toAsciiLowercase (front ++ message)) phrase =
      containsText (toAsciiLowercase message) phrase := by
  obtain ⟨hnot, hoverlap⟩ := hmarker phrase hphrase
  unfold containsText
  apply decide_eq_decide.mpr
  have happend : (toAsciiLowercase (front ++ message)).toList =
      (toAsciiLowercase front).toList ++ (toAsciiLowercase message).toList := by
    simp [toAsciiLowercase]
  rw [happend]
  exact infix_append_iff_of_no_overlap hnot hoverlap

theorem isKnownUpstreamTypeError_append
    {front : String}
    (hmarker : NoMarkerIn front)
    (message : String) :
    isKnownUpstreamTypeError (front ++ message) = isKnownUpstreamTypeError message := by
  unfold isKnownUpstreamTypeError
  rw [containsText_lowercase_append hmarker (by simp) message,
    containsText_lowercase_append hmarker (by simp) message]

instance (front : String) : Decidable (NoMarkerIn front) :=
  inferInstanceAs (Decidable (∀ phrase ∈ _, _))

set_option maxRecDepth 4000 in
theorem noMarkerIn_context :
    NoMarkerIn ("alkanes_trace call failed" ++ " | ") := by
  decide

set_option maxRecDepth 4000 in
theorem noMarkerIn_exhausted :
    NoMarkerIn "rpc_failed_after_retries: last_error=" := by
  decide

theorem isKnownUpstreamTypeError_chain
    (message : String) :
    isKnownUpstreamTypeError (" | ".intercalate ["alkanes_trace call failed", message]) =
      isKnownUpstreamTypeError message := by
  have hjoin : " | ".intercalate ["alkanes_trace call failed", message] =
      "alkanes_trace call failed" ++ " | " ++ message :=
    rfl
  rw [hjoin]
  exact isKnownUpstreamTypeError_append noMarkerIn_context message

set_option maxRecDepth 4000 in
theorem isNonRetriable_trace
    (failure : CallFailure) :
    isNonRetriable "alkanes_trace" failure = isKnownUpstreamTypeError failure.message := by
  cases failure with
  | error message => simp [isNonRetriable, CallFailure.message]
  | timeout => decide

/-- The decoder recognises the final error of a trace call exactly when some
attempt failed with the known error. -/
theorem traceCall_known_iff
    {call : RpcCall}
    {maxAttempts : ℕ} :
    (∃ chain, traceCall maxAttempts call = .error chain ∧
        isKnownUpstreamTypeError (" | ".intercalate chain) = true) ↔
      call.FailsKnown maxAttempts := by
  unfold RpcCall.FailsKnown
  cases hcircuit : call.circuitOpen with
  | true =>
      have hunknown : isKnownUpstreamTypeError "rpc_circuit_open" = false := by decide
      have hchain : traceCall maxAttempts call =
          .error ["alkanes_trace call failed", "rpc_circuit_open"] := by
        unfold traceCall resilientCallWithLastError
        rw [hcircuit]
        rfl
      rw [hchain]
      simp only [Except.error.injEq, exists_eq_left', isKnownUpstreamTypeError_chain, hunknown]
      simp
  | false =>
      have hiff := attempts_eq_refused_iff (isNonRetriable "alkanes_trace")
        call.outcomes maxAttempts
      have hfinal := final_of_attempts_eq (isNonRetriable "alkanes_trace")
        call.outcomes maxAttempts
      have hmessage : ∀ last,
          (∃ message, call.outcomes last = .error (.error message) ∧
            isKnownUpstreamTypeError message = true) ↔
          ∃ failure, call.outcomes last = .error failure ∧
            isNonRetriable "alkanes_trace" failure = true := by
        intro last
        constructor
        · rintro ⟨message, houtcome, hknown⟩
          exact ⟨.error message, houtcome, by rw [isNonRetriable_trace]; exact hknown⟩
        · rintro ⟨failure, houtcome, hknown⟩
          cases failure with
          | error message =>
              rw [isNonRetriable_trace] at hknown
              exact ⟨message, houtcome, hknown⟩
          | timeout => cases hknown
      simp only [hmessage, true_and]
      rw [← hiff]
      unfold traceCall resilientCallWithLastError
      simp only [hcircuit, Bool.false_eq_true, if_false]
      generalize attempts (isNonRetriable "alkanes_trace") call.outcomes maxAttempts = made
        at hfinal ⊢
      obtain ⟨ending, calls⟩ := made
      cases ending with
      | answered value => simp
      | refused failure =>
          have hknown := (hfinal failure).1 rfl
          rw [isNonRetriable_trace] at hknown
          simp only [Except.error.injEq, exists_eq_left', isKnownUpstreamTypeError_chain, hknown]
          simp
      | exhausted failure =>
          have hknown := (hfinal failure).2 rfl
          rw [isNonRetriable_trace] at hknown
          simp only [Except.error.injEq, exists_eq_left', isKnownUpstreamTypeError_chain,
            isKnownUpstreamTypeError_append noMarkerIn_exhausted, hknown]
          simp

end AlkanesIndexer
