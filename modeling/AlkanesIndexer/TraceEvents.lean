import AlkanesIndexer.Sequences
import AlkanesIndexer.TokenAmounts

/-!
# Trace events and the search for a return

The decoders read the flattened trace events of one transaction: objects with
the fields `vout`, `eventType`, `data`, `alkaneAddressBlock` and
`alkaneAddressTx`.  Five of the decoders first sort the events by vout, invokes
before returns, and then look for the return of each invoke among the events
sorted behind it.  The last section says what such a search finds in terms of
the events as they were executed.
-/

namespace AlkanesIndexer

open Sequences

/-! ## Reading an event -/

def i64Min : ℤ := -2 ^ 63

def eventType (event : JsonValue) : Option String := event.strAt ["eventType"]

def eventVout (event : JsonValue) : Option ℤ := (event.get "vout").bind JsonValue.asI64

/-- `ev.get("vout").and_then(|v| v.as_i64()).unwrap_or(-1)`. -/
def invokeVout (event : JsonValue) : ℤ := (eventVout event).getD (-1)

/-- The flattened address of an event, an empty string for a missing part. -/
def poolIdOf (event : JsonValue) : AlkaneId :=
  ((event.strAt ["alkaneAddressBlock"]).getD "", (event.strAt ["alkaneAddressTx"]).getD "")

/-- `!pool_block.is_empty() && !pool_tx.is_empty()`. -/
def namesPool (pool : AlkaneId) : Bool := pool.1 ≠ "" && pool.2 ≠ ""

def incomingAlkanes (event : JsonValue) : List JsonValue :=
  event.arrayAt ["data", "context", "incomingAlkanes"]

def responseAlkanes (event : JsonValue) : List JsonValue :=
  event.arrayAt ["data", "response", "alkanes"]

/-- A delegatecall invoke whose first input passes the opcode test. -/
def isDelegateInvoke (isOpcode : String → Bool) (event : JsonValue) : Bool :=
  eventType event = some "invoke" &&
    match (event.get "data").bind JsonValue.asObject with
    | none => false
    | some fields =>
        let data := JsonValue.object fields
        data.strAt ["type"] = some "delegatecall" &&
          match data.arrayAt ["context", "inputs"] with
          | [] => false
          | opcode :: _ => opcode.asStr.any isOpcode

theorem eventType_of_isDelegateInvoke
    {isOpcode : String → Bool}
    {event : JsonValue}
    (hinvoke : isDelegateInvoke isOpcode event = true) :
    eventType event = some "invoke" := by
  simp only [isDelegateInvoke, Bool.and_eq_true, decide_eq_true_eq] at hinvoke
  exact hinvoke.1

def isReturnOn (vout : ℤ) (event : JsonValue) : Bool :=
  eventType event = some "return" && eventVout event = some vout

theorem isReturnOn_iff
    {vout : ℤ}
    {event : JsonValue} :
    isReturnOn vout event = true ↔
      eventType event = some "return" ∧ eventVout event = some vout := by
  simp [isReturnOn]

/-! ## Sorting by vout, invokes before returns -/

abbrev PlacedEvent := JsonValue × ℕ

def eventWeight (event : JsonValue) : ℕ :=
  let kind := (eventType event).getD ""
  if kind = "invoke" then 0 else if kind = "return" then 1 else 2

def sortVout (event : JsonValue) : ℤ := (eventVout event).getD i64Min

/-- The comparator of `ordered.sort_by`, which looks at the events alone. -/
def eventLe (left right : PlacedEvent) : Prop :=
  if sortVout left.1 ≠ sortVout right.1 then sortVout left.1 ≤ sortVout right.1
  else eventWeight left.1 ≤ eventWeight right.1

instance : DecidableRel eventLe := fun left right => by
  unfold eventLe
  infer_instance

/-- The `ordered` list of the decoders: `sort_by` is stable. -/
def orderedEvents (events : List JsonValue) : List PlacedEvent :=
  events.zipIdx.insertionSort eventLe

theorem eventLe_iff
    {left right : PlacedEvent} :
    eventLe left right ↔
      sortVout left.1 < sortVout right.1 ∨
        sortVout left.1 = sortVout right.1 ∧ eventWeight left.1 ≤ eventWeight right.1 := by
  unfold eventLe
  split <;> omega

instance : IsTrans PlacedEvent eventLe where
  trans first second third hfirst hsecond := by
    rw [eventLe_iff] at *
    omega

instance : Std.Total eventLe where
  total left right := by
    rw [eventLe_iff, eventLe_iff]
    omega

theorem pairwise_orderedEvents
    (events : List JsonValue) :
    (orderedEvents events).Pairwise eventLe :=
  List.pairwise_insertionSort eventLe _

theorem perm_orderedEvents
    (events : List JsonValue) :
    (orderedEvents events).Perm events.zipIdx :=
  List.perm_insertionSort eventLe _

theorem mem_orderedEvents
    {events : List JsonValue}
    {placed : PlacedEvent} :
    placed ∈ orderedEvents events ↔ placed ∈ events.zipIdx :=
  List.mem_insertionSort eventLe

theorem exists_ordered_of_mem
    {events : List JsonValue}
    {event : JsonValue}
    (hevent : event ∈ events) :
    ∃ k i, ((event, k), i) ∈ (orderedEvents events).zipIdx := by
  obtain ⟨k, hk⟩ := List.mem_iff_getElem?.mp hevent
  have hplaced : (event, k) ∈ orderedEvents events :=
    mem_orderedEvents.mpr (List.mk_mem_zipIdx_iff_getElem?.mpr hk)
  obtain ⟨i, hi⟩ := List.mem_iff_getElem?.mp hplaced
  exact ⟨k, i, List.mk_mem_zipIdx_iff_getElem?.mpr hi⟩

theorem mem_of_mem_ordered
    {events : List JsonValue}
    {placed : PlacedEvent × ℕ}
    (hplaced : placed ∈ (orderedEvents events).zipIdx) :
    placed.1.1 ∈ events := by
  have hordered : placed.1 ∈ orderedEvents events :=
    List.mem_of_getElem? (List.mem_zipIdx_iff_getElem?.mp hplaced)
  exact List.mem_of_getElem? (List.mem_zipIdx_iff_getElem?.mp (mem_orderedEvents.mp hordered))

/-- A loop over the sorted events whose outcome at an event does not depend on
where the event stands yields what a loop over the events themselves does, up to
order. -/
theorem ordered_filterMap_perm
    {α : Type*}
    {events : List JsonValue}
    {atPlace : PlacedEvent × ℕ → Option α}
    {ofEvent : JsonValue → Option α}
    (hplace : ∀ (placed : PlacedEvent) (i : ℕ), (orderedEvents events)[i]? = some placed →
      atPlace (placed, i) = ofEvent placed.1) :
    ((orderedEvents events).zipIdx.filterMap atPlace).Perm (events.filterMap ofEvent) := by
  have hcongr : (orderedEvents events).zipIdx.filterMap atPlace =
      (orderedEvents events).zipIdx.filterMap (ofEvent ∘ Prod.fst ∘ Prod.fst) := by
    refine List.filterMap_congr fun placed hplaced => ?_
    exact hplace placed.1 placed.2 (List.mem_zipIdx_iff_getElem?.mp hplaced)
  have hperm := ((perm_orderedEvents events).map Prod.fst).filterMap ofEvent
  rw [List.zipIdx_map_fst] at hperm
  rw [hcongr, ← Function.comp_assoc, ← List.filterMap_map, List.zipIdx_map_fst,
    ← List.filterMap_map]
  exact hperm

/-- Every return on the vout of an invoke is sorted strictly behind it. -/
theorem not_eventLe_invoke
    {invoke return_ : PlacedEvent}
    (hinvoke : eventType invoke.1 = some "invoke")
    (hreturn : isReturnOn (invokeVout invoke.1) return_.1 = true) :
    ¬ eventLe return_ invoke := by
  obtain ⟨htype, hvout⟩ := isReturnOn_iff.mp hreturn
  have hweight : eventWeight invoke.1 = 0 := by simp [eventWeight, hinvoke]
  have hweight' : eventWeight return_.1 = 1 := by simp [eventWeight, htype]
  have hsort : sortVout return_.1 = invokeVout invoke.1 := by simp [sortVout, hvout]
  have hle : sortVout invoke.1 ≤ invokeVout invoke.1 := by
    unfold sortVout invokeVout
    cases eventVout invoke.1 with
    | some vout => exact le_refl vout
    | none => simp [i64Min]
  rw [eventLe_iff]
  omega

/-! ## Searching the return of an invoke -/

abbrev Candidate := PlacedEvent × ℕ

def laterEvents (ordered : List PlacedEvent) (i : ℕ) : List Candidate :=
  ordered.zipIdx.drop (i + 1)

/-- The loop over `j in (i+1)..ordered_events.len()` which keeps the return of
the best score; `better` compares an event and its `j` with the best so far. -/
def bestReturn
    (ordered : List PlacedEvent)
    (i : ℕ)
    (vout : ℤ)
    (admissible : JsonValue → Bool)
    (better : JsonValue × ℕ → JsonValue × ℕ → Bool) : Option Candidate :=
  choose
    (fun candidate => isReturnOn vout candidate.1.1 && admissible candidate.1.1)
    (fun candidate best =>
      better (candidate.1.1, candidate.2) (best.1.1, best.2))
    (laterEvents ordered i)

def firstReturn
    (ordered : List PlacedEvent)
    (i : ℕ)
    (vout : ℤ)
    (admissible : JsonValue → Bool) : Option Candidate :=
  (laterEvents ordered i).find? fun candidate =>
    isReturnOn vout candidate.1.1 && admissible candidate.1.1

def returnsOn
    (events : List JsonValue)
    (vout : ℤ)
    (admissible : JsonValue → Bool) : List PlacedEvent :=
  events.zipIdx.filter fun placed => isReturnOn vout placed.1 && admissible placed.1

theorem mem_returnsOn
    {events : List JsonValue}
    {vout : ℤ}
    {admissible : JsonValue → Bool}
    {placed : PlacedEvent} :
    placed ∈ returnsOn events vout admissible ↔
      events[placed.2]? = some placed.1 ∧ isReturnOn vout placed.1 = true ∧
        admissible placed.1 = true := by
  simp only [returnsOn, List.mem_filter, Bool.and_eq_true]
  refine and_congr_left fun _ => ?_
  rw [List.mem_zipIdx_iff_getElem?]

theorem eq_of_mem_returnsOn
    {events : List JsonValue}
    {vout : ℤ}
    {admissible admissible' : JsonValue → Bool}
    {left right : PlacedEvent}
    (hleft : left ∈ returnsOn events vout admissible)
    (hright : right ∈ returnsOn events vout admissible')
    (hposition : left.2 = right.2) :
    left = right := by
  have hleftAt := (mem_returnsOn.mp hleft).1
  rw [hposition, (mem_returnsOn.mp hright).1] at hleftAt
  exact Prod.ext (Option.some.inj hleftAt).symm hposition

theorem pairwise_snd_zipIdx
    {α : Type*}
    (items : List α)
    (start : ℕ) :
    (items.zipIdx start).Pairwise fun left right => left.2 < right.2 := by
  induction items generalizing start with
  | nil => exact List.Pairwise.nil
  | cons x xs ih =>
      rw [List.zipIdx_cons, List.pairwise_cons]
      refine ⟨fun y hy => ?_, ih (start + 1)⟩
      have hle := List.le_snd_of_mem_zipIdx hy
      change start < y.2
      omega

/-- Every event once, with its index, by vout and invokes before returns; events which are
alike in this stay in their order. -/
structure SortedEvents (events : List JsonValue) (ordered : List PlacedEvent) : Prop where
  perm : ordered.Perm events.zipIdx
  sorted : ordered.Pairwise eventLe
  stable : ordered.Pairwise fun left right => eventLe right left → left.2 < right.2

theorem sortedEvents_orderedEvents
    (events : List JsonValue) :
    SortedEvents events (orderedEvents events) where
  perm := perm_orderedEvents events
  sorted := pairwise_orderedEvents events
  stable := stable_insertionSort eventLe (pairwise_snd_zipIdx events 0)

theorem filter_orderedEvents
    (events : List JsonValue)
    (vout : ℤ)
    (admissible : JsonValue → Bool) :
    ((orderedEvents events).filter fun placed =>
        isReturnOn vout placed.1 && admissible placed.1) =
      returnsOn events vout admissible := by
  refine filter_insertionSort_eq eventLe _ ?_
  have hall : ∀ left ∈ returnsOn events vout admissible,
      ∀ right ∈ returnsOn events vout admissible, eventLe left right := by
    intro left hleft right hright
    obtain ⟨_, hleft, _⟩ := mem_returnsOn.mp hleft
    obtain ⟨_, hright, _⟩ := mem_returnsOn.mp hright
    rw [isReturnOn_iff] at hleft hright
    rw [eventLe_iff]
    right
    simp [sortVout, eventWeight, hleft, hright]
  exact List.pairwise_of_forall_mem_list hall

section Search

variable {events : List JsonValue} {i : ℕ} {invoke : PlacedEvent}

/-- The returns which the search of an invoke can reach behind it in the sorted
list are all returns of its vout, wherever they were executed. -/
theorem filter_drop_orderedEvents
    (hplace : (orderedEvents events)[i]? = some invoke)
    (hinvoke : eventType invoke.1 = some "invoke")
    (admissible : JsonValue → Bool) :
    (((orderedEvents events).drop (i + 1)).filter fun placed =>
        isReturnOn (invokeVout invoke.1) placed.1 && admissible placed.1) =
      returnsOn events (invokeVout invoke.1) admissible := by
  let selected : PlacedEvent → Bool := fun placed =>
    isReturnOn (invokeVout invoke.1) placed.1 && admissible placed.1
  have hnot : selected invoke = false := by
    simp [selected, isReturnOn, hinvoke]
  have habove : ∀ placed ∈ orderedEvents events,
      selected placed = true → ¬ eventLe placed invoke := by
    intro placed _ hselected
    simp only [selected, Bool.and_eq_true] at hselected
    exact not_eventLe_invoke hinvoke hselected.1
  calc
    ((orderedEvents events).drop (i + 1)).filter selected
        = (orderedEvents events).filter selected :=
          filter_drop_eq_of_pairwise eventLe (pairwise_orderedEvents events) selected
            hplace hnot habove
    _ = returnsOn events (invokeVout invoke.1) admissible :=
          filter_orderedEvents events _ admissible

theorem laterEvents_filter_map_fst
    (hplace : (orderedEvents events)[i]? = some invoke)
    (hinvoke : eventType invoke.1 = some "invoke")
    (admissible : JsonValue → Bool) :
    ((laterEvents (orderedEvents events) i).filter fun candidate =>
        isReturnOn (invokeVout invoke.1) candidate.1.1 && admissible candidate.1.1).map
      Prod.fst =
      returnsOn events (invokeVout invoke.1) admissible := by
  have hdrop : (laterEvents (orderedEvents events) i).map Prod.fst =
      (orderedEvents events).drop (i + 1) := by
    rw [laterEvents, List.map_drop, List.zipIdx_map_fst]
  rw [← filter_drop_orderedEvents hplace hinvoke admissible, ← hdrop, List.filter_map]
  rfl

theorem laterEvents_pairwise
    (ordered : List PlacedEvent)
    (i : ℕ) :
    (laterEvents ordered i).Pairwise fun left right => left.2 < right.2 :=
  (pairwise_snd_zipIdx ordered 0).drop

/-- The best return found is the admissible return on the vout of the least
score, the latest one executed where scores tie. -/
theorem bestReturn_map_fst
    {β : Type*}
    [LinearOrder β]
    (hplace : (orderedEvents events)[i]? = some invoke)
    (hinvoke : eventType invoke.1 = some "invoke")
    (admissible : JsonValue → Bool)
    (better : JsonValue × ℕ → JsonValue × ℕ → Bool)
    (score : JsonValue → β)
    (hbetter : ∀ candidate best, better candidate best = true ↔
      score candidate.1 < score best.1 ∨
        score candidate.1 = score best.1 ∧ best.2 < candidate.2) :
    (bestReturn (orderedEvents events) i (invokeVout invoke.1) admissible better).map
        Prod.fst =
      (returnsOn events (invokeVout invoke.1) admissible).argmin
        fun placed => toLex (score placed.1, OrderDual.toDual placed.2) := by
  have hmap := laterEvents_filter_map_fst hplace hinvoke admissible
  have hpositions := pairwise_snd_zipIdx events 0
  rw [bestReturn, choose_eq_argmin _ _
    (fun candidate : Candidate =>
      toLex (score candidate.1.1, OrderDual.toDual candidate.2))]
  · rw [← hmap, argmin_map]
    congr 1
    refine argmin_congr fun left hleft right hright => ?_
    -- sorted positions and execution positions increase together on one vout
    have hsorted := (laterEvents_pairwise (orderedEvents events) i).filter
      fun candidate => isReturnOn (invokeVout invoke.1) candidate.1.1 &&
        admissible candidate.1.1
    have hexecuted : (returnsOn events (invokeVout invoke.1) admissible).Pairwise
        fun left right => left.2 < right.2 := hpositions.filter _
    rw [← hmap, List.pairwise_map] at hexecuted
    have hsame := lt_iff_lt_of_pairwise hsorted hexecuted hright hleft
    simp only [Function.comp_apply, Prod.Lex.toLex_lt_toLex, OrderDual.toDual_lt_toDual,
      hsame]
  · intro candidate best
    simp [hbetter, Prod.Lex.toLex_lt_toLex]

/-- The first return found is the admissible return on the vout that was
executed first. -/
theorem firstReturn_map_fst
    (hplace : (orderedEvents events)[i]? = some invoke)
    (hinvoke : eventType invoke.1 = some "invoke")
    (admissible : JsonValue → Bool) :
    (firstReturn (orderedEvents events) i (invokeVout invoke.1) admissible).map Prod.fst =
      (returnsOn events (invokeVout invoke.1) admissible).argmin Prod.snd := by
  have hmap := laterEvents_filter_map_fst hplace hinvoke admissible
  have hpositions := pairwise_snd_zipIdx events 0
  rw [firstReturn, find?_eq_argmin _ Prod.snd _ (laterEvents_pairwise _ i),
    ← hmap, argmin_map]
  congr 1
  refine argmin_congr fun left hleft right hright => ?_
  have hsorted := (laterEvents_pairwise (orderedEvents events) i).filter
    fun candidate => isReturnOn (invokeVout invoke.1) candidate.1.1 &&
      admissible candidate.1.1
  have hexecuted : (returnsOn events (invokeVout invoke.1) admissible).Pairwise
      fun left right => left.2 < right.2 := hpositions.filter _
  rw [← hmap, List.pairwise_map] at hexecuted
  exact lt_iff_lt_of_pairwise hsorted hexecuted hleft hright

end Search

end AlkanesIndexer
