import AlkanesIndexer.DecoderInputs

/-!
# Pool creations

`detect_pool_creations_for_tx` recognises a creation by the shape of the trace
alone: a delegatecall with opcode zero which brings two tokens to a contract and
gets more of the contract's own token back than it brought.  `Pool` is not
consulted.
-/

namespace AlkanesIndexer

def isDelegateInvokeCreate (event : JsonValue) : Bool :=
  isDelegateInvoke (fun opcode => hexToU128 opcode = some 0) event

structure DecodedPoolCreation where
  pool : AlkaneId
  token0 : AlkaneId
  token1 : AlkaneId
  token0Amount : String
  token1Amount : String
  tokenSupply : String
  creatorAddress : Option String
  deriving DecidableEq, Repr

namespace PoolCreation

/-- The distinct ids among the incoming alkanes other than the pool's own, in
the order of their first entries. -/
def nonLpIds (pool : AlkaneId) (incoming : List JsonValue) : List AlkaneId :=
  incoming.foldl (fun ids entry =>
    match entry.get "id" with
    | none => ids
    | some id =>
        let pair := (idComponent id "block", idComponent id "tx")
        if pair = pool ∨ pair ∈ ids then ids else ids ++ [pair]) []

def creationTokens (invoke : JsonValue) : Option (AlkaneId × AlkaneId) :=
  match nonLpIds (poolIdOf invoke) (incomingAlkanes invoke) with
  | token0 :: token1 :: _ => some (token0, token1)
  | _ => none

def tokenTotal (alkanes : List JsonValue) (token : AlkaneId) : ℕ :=
  calculateTokenTotal alkanes token.1 token.2

/-- Net LP minted: the return pays more of the pool's token than came in. -/
def mintsLp (invoke ret : JsonValue) : Bool :=
  !(tokenTotal (responseAlkanes ret) (poolIdOf invoke) ≤
    tokenTotal (incomingAlkanes invoke) (poolIdOf invoke))

/-- Minimal token outs, latest on tie. -/
def better
    (tokens : AlkaneId × AlkaneId)
    (candidate best : JsonValue × ℕ) : Bool :=
  let t0Out (ret : JsonValue) := tokenTotal (responseAlkanes ret) tokens.1
  let t1Out (ret : JsonValue) := tokenTotal (responseAlkanes ret) tokens.2
  t0Out candidate.1 < t0Out best.1 ||
    (t0Out candidate.1 = t0Out best.1 &&
      (t1Out candidate.1 < t1Out best.1 ||
        (t1Out candidate.1 = t1Out best.1 && candidate.2 > best.2)))

def chosenReturn
    (tokens : AlkaneId × AlkaneId)
    (ordered : List PlacedEvent)
    (i : ℕ)
    (invoke : JsonValue) : Option Candidate :=
  bestReturn ordered i (invokeVout invoke) (mintsLp invoke) (better tokens)

/-- The creation read off an invoke and its chosen return; none if one of the
three net amounts is zero. -/
def creationOf
    (tokens : AlkaneId × AlkaneId)
    (invoke ret : JsonValue) : Option DecodedPoolCreation :=
  let incoming := incomingAlkanes invoke
  let outgoing := responseAlkanes ret
  let token0Amount := tokenTotal incoming tokens.1 - tokenTotal outgoing tokens.1
  let token1Amount := tokenTotal incoming tokens.2 - tokenTotal outgoing tokens.2
  let tokenSupply :=
    tokenTotal outgoing (poolIdOf invoke) - tokenTotal incoming (poolIdOf invoke)
  if token0Amount = 0 || token1Amount = 0 || tokenSupply = 0 then none
  else some {
    pool := poolIdOf invoke
    token0 := tokens.1
    token1 := tokens.2
    token0Amount := toString token0Amount
    token1Amount := toString token1Amount
    tokenSupply := toString tokenSupply
    creatorAddress := none }

def creationAt
    (ordered : List PlacedEvent)
    (event : JsonValue)
    (i : ℕ) : Option (DecodedPoolCreation × ℤ) :=
  if isDelegateInvokeCreate event && namesPool (poolIdOf event) then
    (creationTokens event).bind fun tokens =>
      (chosenReturn tokens ordered i event).bind fun chosen =>
        (creationOf tokens event chosen.1.1).map fun creation =>
          (creation, invokeVout event)
  else none

def detectPoolCreationsForTx (events : List JsonValue) : List (DecodedPoolCreation × ℤ) :=
  let ordered := orderedEvents events
  ordered.zipIdx.filterMap fun placed => creationAt ordered placed.1.1 placed.2

def creationRow
    (decoded : DecodedByTxVout)
    (height : ℕ)
    (input : TxInput)
    (creation : DecodedPoolCreation)
    (vout : ℤ) : PoolCreationRow where
  transactionId := input.transactionId
  blockHeight := height
  transactionIndex := input.transactionIndex
  pool := creation.pool
  token0 := creation.token0
  token1 := creation.token1
  token0Amount := creation.token0Amount
  token1Amount := creation.token1Amount
  tokenSupply := creation.tokenSupply
  creatorAddress :=
    (pointerAddress decoded input.transactionId vout).or creation.creatorAddress
  timestamp := input.timestamp

end PoolCreation

def creationRows
    (decoded : DecodedByTxVout)
    (height : ℕ)
    (inputs : List TxInput) : List PoolCreationRow :=
  inputs.flatMap fun input =>
    (PoolCreation.detectPoolCreationsForTx input.events).map fun found =>
      PoolCreation.creationRow decoded height input found.1 found.2

namespace PoolCreation

/-! ## What is detected -/

/-- The return credited to an invoke: the one of least token outs among all
returns on its vout that mint LP tokens, the latest executed on a tie. -/
def creditedReturn
    (events : List JsonValue)
    (tokens : AlkaneId × AlkaneId)
    (invoke : JsonValue) : Option PlacedEvent :=
  (returnsOn events (invokeVout invoke) (mintsLp invoke)).argmin fun placed =>
    toLex (toLex (tokenTotal (responseAlkanes placed.1) tokens.1,
      tokenTotal (responseAlkanes placed.1) tokens.2), OrderDual.toDual placed.2)

theorem chosenReturn_map_fst
    {events : List JsonValue}
    {tokens : AlkaneId × AlkaneId}
    {i : ℕ}
    {invoke : PlacedEvent}
    (hplace : (orderedEvents events)[i]? = some invoke)
    (hinvoke : eventType invoke.1 = some "invoke") :
    (chosenReturn tokens (orderedEvents events) i invoke.1).map Prod.fst =
      creditedReturn events tokens invoke.1 := by
  refine bestReturn_map_fst hplace hinvoke (mintsLp invoke.1) (better tokens)
    (fun ret => toLex (tokenTotal (responseAlkanes ret) tokens.1,
      tokenTotal (responseAlkanes ret) tokens.2)) fun candidate best => ?_
  simp only [better, Bool.or_eq_true, Bool.and_eq_true, decide_eq_true_eq,
    Prod.Lex.toLex_lt_toLex, toLex_inj, Prod.mk.injEq]
  omega

def creationOfEvent (events : List JsonValue) (event : JsonValue) : Option DecodedPoolCreation :=
  if isDelegateInvokeCreate event && namesPool (poolIdOf event) then
    (creationTokens event).bind fun tokens =>
      (creditedReturn events tokens event).bind fun ret => creationOf tokens event ret.1
  else none

theorem creationAt_eq
    {events : List JsonValue}
    {placed : PlacedEvent}
    {i : ℕ}
    (hplace : (orderedEvents events)[i]? = some placed) :
    creationAt (orderedEvents events) placed.1 i =
      (creationOfEvent events placed.1).map fun creation =>
        (creation, invokeVout placed.1) := by
  unfold creationAt creationOfEvent
  split
  · next hcandidate =>
    have hinvoke : eventType placed.1 = some "invoke" :=
      eventType_of_isDelegateInvoke (Bool.and_eq_true_iff.mp hcandidate).1
    cases htokens : creationTokens placed.1 with
    | none => rfl
    | some tokens =>
        rw [Option.bind_some, Option.bind_some, ← chosenReturn_map_fst hplace hinvoke,
          Option.bind_map, Option.map_bind]
        rfl
  · rfl

theorem detectPoolCreationsForTx_perm
    (events : List JsonValue) :
    (detectPoolCreationsForTx events).Perm
      (events.filterMap fun event =>
        (creationOfEvent events event).map fun creation => (creation, invokeVout event)) :=
  ordered_filterMap_perm fun _ _ hplace => creationAt_eq hplace

theorem pool_of_creationOfEvent
    {events : List JsonValue}
    {event : JsonValue}
    {creation : DecodedPoolCreation}
    (hcreation : creationOfEvent events event = some creation) :
    creation.pool = poolIdOf event := by
  simp only [creationOfEvent, Option.ite_none_right_eq_some, Option.bind_eq_some_iff,
    creationOf, Option.ite_none_left_eq_some, Option.some.injEq] at hcreation
  obtain ⟨_, tokens, _, ret, _, _, rfl⟩ := hcreation
  rfl

end PoolCreation

theorem input_of_mem_creationRows
    {decoded : DecodedByTxVout}
    {height : ℕ}
    {inputs : List TxInput}
    {row : PoolCreationRow}
    (hrow : row ∈ creationRows decoded height inputs) :
    ∃ input ∈ inputs, row.transactionId = input.transactionId ∧
      row.transactionIndex = input.transactionIndex ∧ row.blockHeight = height := by
  simp only [creationRows, List.mem_flatMap, List.mem_map] at hrow
  obtain ⟨input, hinput, found, _, hcreation⟩ := hrow
  subst hcreation
  exact ⟨input, hinput, rfl, rfl, rfl⟩

end AlkanesIndexer
