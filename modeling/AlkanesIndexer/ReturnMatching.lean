import AlkanesIndexer.Pipeline

/-!
# Which return is credited to a call

Sorting puts all invokes of a vout before all its returns, so a decoder that
searches behind an invoke sees every return of the vout, also those executed
before the invoke and those of other calls.  What pairs a call with a return is
then the preference of the decoder among the returns it admits, and not the
nesting of the calls.
-/

namespace AlkanesIndexer

open Sequences

/-! ## Nesting -/

/-- The calls of an execution are balanced, `depth` of them being open before its
first event. -/
def balancedFrom : ℕ → List JsonValue → Bool
  | depth, [] => depth = 0
  | depth, event :: rest =>
      if eventType event = some "invoke" then balancedFrom (depth + 1) rest
      else if eventType event = some "return" then
        match depth with
        | 0 => false
        | depth + 1 => balancedFrom depth rest
      else balancedFrom depth rest

/-- The invokes and returns of each vout are properly nested. -/
def ProperlyNested (events : List JsonValue) : Prop :=
  ∀ vout : Option ℤ, balancedFrom 0 (events.filter fun event => eventVout event = vout) = true

/-- Events of one vout are nested if they are balanced. -/
theorem properlyNested_of_vout
    {events : List JsonValue}
    (vout : Option ℤ)
    (hvout : ∀ event ∈ events, eventVout event = vout)
    (hbalanced : balancedFrom 0 events = true) :
    ProperlyNested events := by
  intro other
  by_cases hother : other = vout
  · have hall : events.filter (fun event => eventVout event = other) = events :=
      List.filter_eq_self.mpr fun event hevent =>
        decide_eq_true ((hvout event hevent).trans hother.symm)
    rw [hall]
    exact hbalanced
  · have hnone : events.filter (fun event => eventVout event = other) = [] := by
      rw [List.filter_eq_nil_iff]
      intro event hevent heq
      rw [decide_eq_true_eq, hvout event hevent] at heq
      exact hother heq.symm
    rw [hnone]
    rfl

/-! ## The five sorting decoders -/

inductive SortingDecoder where
  | poolMint
  | poolBurn
  | poolCreation
  | subfrostWrap
  | subfrostUnwrap
  deriving DecidableEq, Repr

namespace SortingDecoder

/-- The tokens by which a decoder looks at a call: those of the pool, or those
brought to a new one.  The Subfrost decoders look at one fixed token. -/
def tokensOf (decoder : SortingDecoder) (tokenMap : TokenMap) (invoke : JsonValue) :
    Option (AlkaneId × AlkaneId) :=
  match decoder with
  | poolMint | poolBurn => tokenMap (poolIdOf invoke)
  | poolCreation => PoolCreation.creationTokens invoke
  | subfrostWrap | subfrostUnwrap => some (("32", "0"), ("32", "0"))

def isInvoke : SortingDecoder → JsonValue → Bool
  | poolMint, event => isDelegateInvokeMint event && namesPool (poolIdOf event)
  | poolBurn, event => isDelegateInvokeBurn event && namesPool (poolIdOf event)
  | poolCreation, event => isDelegateInvokeCreate event && namesPool (poolIdOf event)
  | subfrostWrap, event => Subfrost.isSubfrostWrapInvoke event
  | subfrostUnwrap, event => Subfrost.isSubfrostUnwrapInvoke event

def search
    (decoder : SortingDecoder)
    (tokens : AlkaneId × AlkaneId)
    (ordered : List PlacedEvent)
    (i : ℕ)
    (invoke : JsonValue) : Option Candidate :=
  match decoder with
  | poolMint => mintDecoder.chosenReturn tokens ordered i invoke
  | poolBurn => burnDecoder.chosenReturn tokens ordered i invoke
  | poolCreation => PoolCreation.chosenReturn tokens ordered i invoke
  | subfrostWrap => Subfrost.wrapReturn ordered i invoke
  | subfrostUnwrap => Subfrost.unwrapReturn ordered i invoke

def admits
    (decoder : SortingDecoder)
    (tokens : AlkaneId × AlkaneId)
    (invoke ret : JsonValue) : Bool :=
  match decoder with
  | poolMint => mintDecoder.admits (LiquidityDecoder.returnTotals tokens invoke ret)
  | poolBurn => burnDecoder.admits (LiquidityDecoder.returnTotals tokens invoke ret)
  | poolCreation => PoolCreation.mintsLp invoke ret
  | subfrostWrap => Subfrost.statusOk ret && Subfrost.carriesSubfrost ret
  | subfrostUnwrap => Subfrost.statusOk ret

/-- The rank of a return, less being better.  Mints and creations want few tokens
out, burns few LP tokens out, and all three the latest return on a tie; wraps and
unwraps want the earliest. -/
def rank
    (decoder : SortingDecoder)
    (tokens : AlkaneId × AlkaneId)
    (invoke : JsonValue)
    (ret : PlacedEvent) : (ℕ ×ₗ ℕ) ×ₗ ℤ :=
  let totals := LiquidityDecoder.returnTotals tokens invoke ret.1
  match decoder with
  | poolMint | poolCreation => toLex (toLex (totals.t0Out, totals.t1Out), -(ret.2 : ℤ))
  | poolBurn => toLex (toLex (totals.lpOut, 0), -(ret.2 : ℤ))
  | subfrostWrap | subfrostUnwrap => toLex (toLex (0, 0), (ret.2 : ℤ))

theorem eventType_of_isInvoke
    {decoder : SortingDecoder}
    {event : JsonValue}
    (hinvoke : decoder.isInvoke event = true) :
    eventType event = some "invoke" := by
  cases decoder with
  | poolMint => exact eventType_of_isDelegateInvoke (Bool.and_eq_true_iff.mp hinvoke).1
  | poolBurn => exact eventType_of_isDelegateInvoke (Bool.and_eq_true_iff.mp hinvoke).1
  | poolCreation => exact eventType_of_isDelegateInvoke (Bool.and_eq_true_iff.mp hinvoke).1
  | subfrostWrap => exact Subfrost.eventType_of_isSubfrostInvoke hinvoke
  | subfrostUnwrap => exact Subfrost.eventType_of_isSubfrostInvoke hinvoke

theorem rank_snd_injective
    {decoder : SortingDecoder}
    {tokens : AlkaneId × AlkaneId}
    {invoke : JsonValue}
    {left right : PlacedEvent}
    (hrank : decoder.rank tokens invoke left = decoder.rank tokens invoke right) :
    left.2 = right.2 := by
  cases decoder <;> simp [rank] at hrank <;> omega

end SortingDecoder

theorem mintDecoder_better_iff
    (candidate best : LiquidityTotals × ℕ) :
    mintDecoder.better candidate best = true ↔
      toLex (candidate.1.t0Out, candidate.1.t1Out) < toLex (best.1.t0Out, best.1.t1Out) ∨
        toLex (candidate.1.t0Out, candidate.1.t1Out) =
            toLex (best.1.t0Out, best.1.t1Out) ∧ best.2 < candidate.2 := by
  simp only [mintDecoder, Bool.or_eq_true, Bool.and_eq_true, decide_eq_true_eq,
    Prod.Lex.toLex_lt_toLex, toLex_inj, Prod.mk.injEq]
  omega

theorem burnDecoder_better_iff
    (candidate best : LiquidityTotals × ℕ) :
    burnDecoder.better candidate best = true ↔
      candidate.1.lpOut < best.1.lpOut ∨
        candidate.1.lpOut = best.1.lpOut ∧ best.2 < candidate.2 := by
  simp [burnDecoder]

/-- Every search finds the admitted return of the vout of least rank. -/
theorem search_map_fst
    (decoder : SortingDecoder)
    (tokens : AlkaneId × AlkaneId)
    {events : List JsonValue}
    {i : ℕ}
    {invoke : PlacedEvent}
    (hplace : (orderedEvents events)[i]? = some invoke)
    (hinvoke : eventType invoke.1 = some "invoke") :
    (decoder.search tokens (orderedEvents events) i invoke.1).map Prod.fst =
      (returnsOn events (invokeVout invoke.1) (decoder.admits tokens invoke.1)).argmin
        (decoder.rank tokens invoke.1) := by
  cases decoder with
  | poolMint =>
      refine (LiquidityDecoder.chosenReturn_map_fst
        (fun totals => toLex (totals.t0Out, totals.t1Out)) mintDecoder_better_iff
        hplace hinvoke).trans (argmin_congr fun left _ right _ => ?_)
      simp only [SortingDecoder.rank, Prod.Lex.toLex_lt_toLex, OrderDual.toDual_lt_toDual,
        neg_lt_neg_iff, Nat.cast_lt]
  | poolBurn =>
      refine (LiquidityDecoder.chosenReturn_map_fst LiquidityTotals.lpOut
        burnDecoder_better_iff hplace hinvoke).trans (argmin_congr fun left _ right _ => ?_)
      simp only [SortingDecoder.rank, Prod.Lex.toLex_lt_toLex, OrderDual.toDual_lt_toDual,
        neg_lt_neg_iff, Nat.cast_lt, toLex_inj, Prod.mk.injEq, lt_irrefl, and_false, or_false,
        and_true]
  | poolCreation =>
      refine (PoolCreation.chosenReturn_map_fst hplace hinvoke).trans
        (argmin_congr fun left _ right _ => ?_)
      simp only [SortingDecoder.rank, Prod.Lex.toLex_lt_toLex, OrderDual.toDual_lt_toDual,
        neg_lt_neg_iff, Nat.cast_lt]
      rfl
  | subfrostWrap =>
      refine (firstReturn_map_fst hplace hinvoke fun ret =>
        Subfrost.statusOk ret && Subfrost.carriesSubfrost ret).trans
        (argmin_congr fun left _ right _ => ?_)
      simp [SortingDecoder.rank, Prod.Lex.toLex_lt_toLex]
  | subfrostUnwrap =>
      refine (firstReturn_map_fst hplace hinvoke Subfrost.statusOk).trans
        (argmin_congr fun left _ right _ => ?_)
      simp [SortingDecoder.rank, Prod.Lex.toLex_lt_toLex]

/-! ## Credited returns -/

/-- The decoder credits a candidate invoke with a return; both are events of the
list with their positions in it. -/
def Credited
    (decoder : SortingDecoder)
    (tokenMap : TokenMap)
    (events : List JsonValue)
    (invoke ret : PlacedEvent) : Prop :=
  ∃ i tokens,
    (orderedEvents events)[i]? = some invoke ∧
      decoder.isInvoke invoke.1 = true ∧
      decoder.tokensOf tokenMap invoke.1 = some tokens ∧
      (decoder.search tokens (orderedEvents events) i invoke.1).map Prod.fst = some ret

/-- The return credited to a candidate comes after it, and no return is credited
twice. -/
def CausalAndInjective
    (decoder : SortingDecoder)
    (tokenMap : TokenMap)
    (events : List JsonValue) : Prop :=
  (∀ invoke ret, Credited decoder tokenMap events invoke ret → invoke.2 < ret.2) ∧
    ∀ invoke invoke' ret, Credited decoder tokenMap events invoke ret →
      Credited decoder tokenMap events invoke' ret → invoke = invoke'

def admittedReturns
    (decoder : SortingDecoder)
    (tokens : AlkaneId × AlkaneId)
    (events : List JsonValue)
    (invoke : JsonValue) : List PlacedEvent :=
  returnsOn events (invokeVout invoke) (decoder.admits tokens invoke)

theorem rank_injOn_admittedReturns
    {decoder : SortingDecoder}
    {tokens : AlkaneId × AlkaneId}
    {events : List JsonValue}
    {invoke : JsonValue}
    {left right : PlacedEvent}
    (hleft : left ∈ admittedReturns decoder tokens events invoke)
    (hright : right ∈ admittedReturns decoder tokens events invoke)
    (hrank : decoder.rank tokens invoke left = decoder.rank tokens invoke right) :
    left = right := by
  exact eq_of_mem_returnsOn hleft hright (SortingDecoder.rank_snd_injective hrank)

theorem credited_iff
    {decoder : SortingDecoder}
    {tokenMap : TokenMap}
    {events : List JsonValue}
    {invoke ret : PlacedEvent} :
    Credited decoder tokenMap events invoke ret ↔
      events[invoke.2]? = some invoke.1 ∧ decoder.isInvoke invoke.1 = true ∧
        ∃ tokens, decoder.tokensOf tokenMap invoke.1 = some tokens ∧
          ret ∈ admittedReturns decoder tokens events invoke.1 ∧
          ∀ other ∈ admittedReturns decoder tokens events invoke.1,
            decoder.rank tokens invoke.1 ret ≤ decoder.rank tokens invoke.1 other := by
  have hfound : ∀ i tokens, (orderedEvents events)[i]? = some invoke →
      decoder.isInvoke invoke.1 = true →
      ((decoder.search tokens (orderedEvents events) i invoke.1).map Prod.fst = some ret ↔
        ret ∈ admittedReturns decoder tokens events invoke.1 ∧
          ∀ other ∈ admittedReturns decoder tokens events invoke.1,
            decoder.rank tokens invoke.1 ret ≤ decoder.rank tokens invoke.1 other) := by
    intro i tokens hplace hinvoke
    rw [search_map_fst _ _ hplace (SortingDecoder.eventType_of_isInvoke hinvoke)]
    exact argmin_eq_some_iff_of_injOn fun left hleft right hright =>
      rank_injOn_admittedReturns hleft hright
  constructor
  · rintro ⟨i, tokens, hplace, hinvoke, htokens, hsearch⟩
    have hmem : invoke ∈ events.zipIdx :=
      mem_orderedEvents.mp (List.mem_of_getElem? hplace)
    exact ⟨List.mem_zipIdx_iff_getElem?.mp hmem, hinvoke, tokens, htokens,
      (hfound i tokens hplace hinvoke).mp hsearch⟩
  · rintro ⟨hat, hinvoke, tokens, htokens, hbest⟩
    have hmem : invoke ∈ orderedEvents events :=
      mem_orderedEvents.mpr (List.mem_zipIdx_iff_getElem?.mpr hat)
    obtain ⟨i, hplace⟩ := List.mem_iff_getElem?.mp hmem
    exact ⟨i, tokens, hplace, hinvoke, htokens, (hfound i tokens hplace hinvoke).mpr hbest⟩

/-- What a decoder credits, on every list of events.  The credited return is the
admitted return of least rank on the vout of the invoke, wherever it was executed,
and there is one as soon as any return is admitted.  It comes after the invoke
exactly when some admitted return after the invoke beats all those before it, and
two candidates share a return only on one vout. -/
theorem credited_return_is_preferred
    (decoder : SortingDecoder)
    (tokenMap : TokenMap)
    (events : List JsonValue) :
    (∀ invoke ret, Credited decoder tokenMap events invoke ret ↔
      events[invoke.2]? = some invoke.1 ∧ decoder.isInvoke invoke.1 = true ∧
        ∃ tokens, decoder.tokensOf tokenMap invoke.1 = some tokens ∧
          ret ∈ admittedReturns decoder tokens events invoke.1 ∧
          ∀ other ∈ admittedReturns decoder tokens events invoke.1,
            decoder.rank tokens invoke.1 ret ≤ decoder.rank tokens invoke.1 other) ∧
    (∀ invoke tokens, events[invoke.2]? = some invoke.1 → decoder.isInvoke invoke.1 = true →
      decoder.tokensOf tokenMap invoke.1 = some tokens →
      ((∃ ret, Credited decoder tokenMap events invoke ret) ↔
        admittedReturns decoder tokens events invoke.1 ≠ [])) ∧
    (∀ invoke ret tokens, Credited decoder tokenMap events invoke ret →
      decoder.tokensOf tokenMap invoke.1 = some tokens →
      (invoke.2 < ret.2 ↔
        ∃ later ∈ admittedReturns decoder tokens events invoke.1, invoke.2 < later.2 ∧
          ∀ earlier ∈ admittedReturns decoder tokens events invoke.1,
            earlier.2 < invoke.2 →
              decoder.rank tokens invoke.1 later < decoder.rank tokens invoke.1 earlier)) ∧
    ∀ invoke invoke' ret, Credited decoder tokenMap events invoke ret →
      Credited decoder tokenMap events invoke' ret →
      invokeVout invoke.1 = invokeVout invoke'.1 := by
  refine ⟨fun invoke ret => credited_iff, fun invoke tokens hat hinvoke htokens => ?_,
    fun invoke ret tokens hcredited htokens => ?_,
    fun invoke invoke' ret hcredited hcredited' => ?_⟩
  · constructor
    · rintro ⟨ret, hcredited⟩ hnone
      obtain ⟨_, _, tokens', htokens', hmem, _⟩ := credited_iff.mp hcredited
      rw [htokens, Option.some.injEq] at htokens'
      subst htokens'
      simp [hnone] at hmem
    · intro hsome
      cases hmin : (admittedReturns decoder tokens events invoke.1).argmin
          (decoder.rank tokens invoke.1) with
      | none => exact absurd (List.argmin_eq_none.mp hmin) hsome
      | some ret =>
          exact ⟨ret, credited_iff.mpr ⟨hat, hinvoke, tokens, htokens,
            List.argmin_mem hmin, fun other hother => List.le_of_mem_argmin hother hmin⟩⟩
  · obtain ⟨hat, hinvoke, tokens', htokens', hmem, hbest⟩ := credited_iff.mp hcredited
    rw [htokens, Option.some.injEq] at htokens'
    subst htokens'
    constructor
    · intro hlt
      refine ⟨ret, hmem, hlt, fun earlier hearlier hbefore => ?_⟩
      refine lt_of_le_of_ne (hbest earlier hearlier) fun hrank => ?_
      have hsame := rank_injOn_admittedReturns hmem hearlier hrank
      rw [hsame] at hlt
      omega
    · rintro ⟨later, hlater, hafter, hbeats⟩
      by_contra hnot
      have hne : ret.2 ≠ invoke.2 := by
        -- a return is no invoke, so it cannot stand at the same position
        intro heq
        obtain ⟨hretAt, hreturn, _⟩ := mem_returnsOn.mp hmem
        rw [heq, hat, Option.some.injEq] at hretAt
        have htype := (isReturnOn_iff.mp hreturn).1
        rw [← hretAt, SortingDecoder.eventType_of_isInvoke hinvoke] at htype
        simp at htype
      have hbefore : ret.2 < invoke.2 := by omega
      exact absurd (hbest later hlater) (not_le_of_gt (hbeats ret hmem hbefore))
  · obtain ⟨_, _, _, _, hmem, _⟩ := credited_iff.mp hcredited
    obtain ⟨_, _, _, _, hmem', _⟩ := credited_iff.mp hcredited'
    have hvout := (isReturnOn_iff.mp (mem_returnsOn.mp hmem).2.1).2
    have hvout' := (isReturnOn_iff.mp (mem_returnsOn.mp hmem').2.1).2
    rw [hvout, Option.some.injEq] at hvout'
    exact hvout'

/-! ## Two calls in a row -/

def siblingWraps : List JsonValue :=
  let invoke := JsonValue.object [
    ("vout", .ofInt 3), ("eventType", .string "invoke"),
    ("data", .object [("context", .object [("inputs", .array [.string "0x4d"])])]),
    ("alkaneAddressBlock", .string "32"), ("alkaneAddressTx", .string "0")]
  let ret := JsonValue.object [
    ("vout", .ofInt 3), ("eventType", .string "return"),
    ("data", .object [
      ("status", .string "success"),
      ("response", .object [("alkanes", .array [alkaneEntry ("0x20", "0x0") 5])])])]
  [invoke, ret, invoke, ret]

theorem siblingWraps_properlyNested :
    ProperlyNested siblingWraps :=
  properlyNested_of_vout (some 3) (by decide) (by decide)

/-- The wrap decoder credits both calls with the return of the first, which ends
before the second call begins. -/
theorem siblingWraps_share_return :
    (∃ first second ret : PlacedEvent,
      Credited .subfrostWrap (fun _ => none) siblingWraps first ret ∧
        Credited .subfrostWrap (fun _ => none) siblingWraps second ret ∧
        first ≠ second ∧ ret.2 < second.2) ∧
    ¬ ∀ decoder tokenMap events, ProperlyNested events →
      CausalAndInjective decoder tokenMap events := by
  have hshared : ∃ first second ret : PlacedEvent,
      Credited .subfrostWrap (fun _ => none) siblingWraps first ret ∧
        Credited .subfrostWrap (fun _ => none) siblingWraps second ret ∧
        first ≠ second ∧ ret.2 < second.2 := by
    refine ⟨(siblingWraps[0], 0), (siblingWraps[2], 2), (siblingWraps[1], 1), ?_, ?_, ?_, ?_⟩
    · exact ⟨0, (("32", "0"), ("32", "0")), by decide⟩
    · exact ⟨1, (("32", "0"), ("32", "0")), by decide⟩
    · simp
    · decide
  refine ⟨hshared, fun hall => ?_⟩
  obtain ⟨first, second, ret, hfirst, hsecond, hne, _⟩ := hshared
  exact hne ((hall _ _ _ siblingWraps_properlyNested).2 first second ret hfirst hsecond)

end AlkanesIndexer
