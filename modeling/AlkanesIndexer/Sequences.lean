import Mathlib.Data.List.MinMax
import Mathlib.Data.List.Sort
import Mathlib.Tactic

/-!
# Sequences

Facts about lists which the decoders and the writers rest on: cutting a
sequence into chunks loses nothing, a loop that keeps the best candidate seen so
far computes an `argmin`, and a stable sort does not reorder the elements of a
class whose members it does not tell apart.  Nothing here depends on the indexer.
-/

namespace Sequences

/-! ## Chunks -/

/-- Consecutive chunks of at most `size` elements (of at most one element when
`size` is zero). -/
def chunks {α : Type*} (size : ℕ) (items : List α) : List (List α) :=
  (List.toChunksAux (size - 1) items 0).2

theorem toChunksAux_flatten
    {α : Type*}
    (n : ℕ)
    (items : List α)
    (i : ℕ) :
    (List.toChunksAux n items i).1 ++ (List.toChunksAux n items i).2.flatten = items := by
  induction items generalizing i with
  | nil => rfl
  | cons x xs ih =>
      cases i with
      | zero => simpa [List.toChunksAux] using ih n
      | succ i => simpa [List.toChunksAux] using ih i

theorem toChunksAux_zero_fst
    {α : Type*}
    (n : ℕ)
    (items : List α) :
    (List.toChunksAux n items 0).1 = [] := by
  cases items <;> rfl

@[simp]
theorem flatten_chunks
    {α : Type*}
    (size : ℕ)
    (items : List α) :
    (chunks size items).flatten = items := by
  have hjoined := toChunksAux_flatten (size - 1) items 0
  rw [toChunksAux_zero_fst] at hjoined
  simpa [chunks] using hjoined

@[simp]
theorem chunks_nil
    {α : Type*}
    (size : ℕ) :
    chunks size ([] : List α) = [] :=
  rfl

theorem toChunksAux_length
    {α : Type*}
    (n : ℕ)
    (items : List α)
    (i : ℕ) :
    (List.toChunksAux n items i).1.length ≤ i ∧
      ∀ chunk ∈ (List.toChunksAux n items i).2, chunk ≠ [] ∧ chunk.length ≤ n + 1 := by
  induction items generalizing i with
  | nil => simp [List.toChunksAux]
  | cons x xs ih =>
      cases i with
      | zero =>
          obtain ⟨hfirst, hrest⟩ := ih n
          refine ⟨Nat.zero_le _, fun chunk hchunk => ?_⟩
          rcases List.mem_cons.mp hchunk with rfl | hmem
          · exact ⟨List.cons_ne_nil _ _, by simpa using hfirst⟩
          · exact hrest chunk hmem
      | succ i =>
          obtain ⟨hfirst, hrest⟩ := ih i
          exact ⟨by simpa [List.toChunksAux] using hfirst, hrest⟩

theorem ne_nil_of_mem_chunks
    {α : Type*}
    {size : ℕ}
    {items chunk : List α}
    (hchunk : chunk ∈ chunks size items) :
    chunk ≠ [] :=
  ((toChunksAux_length (size - 1) items 0).2 chunk hchunk).1

theorem length_le_of_mem_chunks
    {α : Type*}
    {size : ℕ}
    {items chunk : List α}
    (hsize : 0 < size)
    (hchunk : chunk ∈ chunks size items) :
    chunk.length ≤ size := by
  have hlength := ((toChunksAux_length (size - 1) items 0).2 chunk hchunk).2
  omega

theorem toChunksAux_map
    {α β : Type*}
    (f : α → β)
    (n : ℕ)
    (items : List α)
    (i : ℕ) :
    List.toChunksAux n (items.map f) i =
      ((List.toChunksAux n items i).1.map f, (List.toChunksAux n items i).2.map (List.map f)) := by
  induction items generalizing i with
  | nil => rfl
  | cons x xs ih =>
      cases i with
      | zero => simp [List.toChunksAux, ih]
      | succ i => simp [List.toChunksAux, ih]

theorem chunks_map
    {α β : Type*}
    (f : α → β)
    (size : ℕ)
    (items : List α) :
    chunks size (items.map f) = (chunks size items).map (List.map f) := by
  rw [chunks, toChunksAux_map]
  rfl

/-! ## Places -/

theorem getElem?_filterMap_of_isSome
    {α β : Type*}
    {f : α → Option β}
    {items : List α}
    (hall : ∀ x ∈ items, (f x).isSome = true)
    (k : ℕ) :
    (items.filterMap f)[k]? = items[k]?.bind f := by
  induction items generalizing k with
  | nil => rfl
  | cons x xs ih =>
      obtain ⟨y, hy⟩ := Option.isSome_iff_exists.mp (hall x List.mem_cons_self)
      rw [List.filterMap_cons_some hy]
      cases k with
      | zero => simp [hy]
      | succ k => exact ih (fun z hz => hall z (List.mem_cons_of_mem x hz)) k

theorem mem_drop_zipIdx
    {α : Type*}
    {items : List α}
    {i : ℕ}
    {placed : α × ℕ} :
    placed ∈ items.zipIdx.drop i ↔ i ≤ placed.2 ∧ items[placed.2]? = some placed.1 := by
  rw [List.mem_drop_iff_getElem]
  constructor
  · intro hmem
    obtain ⟨k, hk, hget⟩ := hmem
    rw [← hget]
    simp only [List.getElem_zipIdx, Nat.zero_add]
    exact ⟨by omega, List.getElem?_eq_getElem _⟩
  · intro hat
    obtain ⟨hle, hplaced⟩ := hat
    obtain ⟨hlt, hget⟩ := List.getElem?_eq_some_iff.mp hplaced
    have hposition : i + (placed.2 - i) = placed.2 := by omega
    have hbound : placed.2 - i + i < items.zipIdx.length := by
      rw [List.length_zipIdx]
      omega
    refine ⟨placed.2 - i, hbound, ?_⟩
    simp only [hposition, List.getElem_zipIdx, Nat.zero_add]
    exact Prod.ext hget rfl

/-! ## Keeping the best candidate -/

/-- A scan which keeps the first admissible candidate and replaces it whenever a
later admissible one is better. -/
def choose
    {α : Type*}
    (admissible : α → Bool)
    (better : α → α → Bool)
    (candidates : List α) : Option α :=
  candidates.foldl (fun chosen candidate =>
    if admissible candidate then
      match chosen with
      | none => some candidate
      | some best => if better candidate best then some candidate else some best
    else chosen) none

theorem choose_map
    {α β : Type*}
    (place : α → β)
    (admissible : β → Bool)
    (better : β → β → Bool)
    (candidates : List α) :
    choose admissible better (candidates.map place) =
      (choose (admissible ∘ place) (fun candidate best => better (place candidate) (place best))
        candidates).map place := by
  unfold choose
  rw [List.foldl_map]
  have hstart : (none : Option β) = (none : Option α).map place := rfl
  rw [hstart]
  generalize (none : Option α) = chosen
  induction candidates generalizing chosen with
  | nil => rfl
  | cons candidate rest ih =>
      rw [List.foldl_cons, List.foldl_cons, ← ih]
      congr 1
      cases chosen with
      | none => by_cases hplace : admissible (place candidate) = true <;> simp [hplace]
      | some best =>
          by_cases hplace : admissible (place candidate) = true
          · by_cases hbetter : better (place candidate) (place best) = true <;>
              simp [hplace, hbetter]
          · simp [hplace]

/-- When the comparison is by a key, the scan is `List.argmin` over the
admissible candidates. -/
theorem choose_eq_argmin
    {α β : Type*}
    [LinearOrder β]
    (admissible : α → Bool)
    (better : α → α → Bool)
    (key : α → β)
    (hkey : ∀ candidate best, better candidate best = true ↔ key candidate < key best)
    (candidates : List α) :
    choose admissible better candidates =
      (candidates.filter admissible).argmin key := by
  unfold choose List.argmin
  rw [List.foldl_filter]
  congr 1
  funext chosen candidate
  split
  · cases chosen with
    | none => rfl
    | some best => simp [List.argAux, hkey]
  · rfl

/-- The first match of a search is the admissible candidate with the least
position, wherever positions increase along the list. -/
theorem find?_eq_argmin
    {α : Type*}
    (admissible : α → Bool)
    (position : α → ℕ)
    (candidates : List α)
    (hincreasing : candidates.Pairwise fun left right => position left < position right) :
    candidates.find? admissible = (candidates.filter admissible).argmin position := by
  induction candidates with
  | nil => rfl
  | cons x xs ih =>
      rw [List.pairwise_cons] at hincreasing
      cases hx : admissible x with
      | false => simp [hx, ih hincreasing.2]
      | true =>
          simp only [List.find?_cons, hx, List.filter_cons, if_true, List.argmin_cons]
          cases hrest : (xs.filter admissible).argmin position with
          | none => rfl
          | some y =>
              have hy : y ∈ xs :=
                (List.mem_filter.mp (List.argmin_mem hrest)).1
              have hlt := hincreasing.1 y hy
              simp [Nat.lt_asymm hlt]

theorem foldl_last_map
    {α β : Type*}
    (f : α → β)
    (admissible : β → Bool)
    (candidates : List α) :
    (candidates.map f).foldl (fun last candidate =>
        if admissible candidate then some candidate else last) none =
      (candidates.foldl (fun last candidate =>
        if admissible (f candidate) then some candidate else last) none).map f := by
  induction candidates using List.reverseRecOn with
  | nil => rfl
  | append_singleton xs x ih =>
      rw [List.map_append, List.foldl_append, List.foldl_append, ih]
      by_cases hx : admissible (f x) = true
      · simp [hx]
      · simp [hx]

/-- A loop that keeps its last match finds the admissible candidate with the
greatest position. -/
theorem foldl_last_eq_argmin
    {α : Type*}
    (admissible : α → Bool)
    (position : α → ℕ)
    (candidates : List α)
    (hincreasing : candidates.Pairwise fun left right => position left < position right) :
    candidates.foldl (fun last candidate =>
        if admissible candidate then some candidate else last) none =
      (candidates.filter admissible).argmin fun x => OrderDual.toDual (position x) := by
  induction candidates using List.reverseRecOn with
  | nil => rfl
  | append_singleton xs x ih =>
      rw [List.pairwise_append] at hincreasing
      have hrest := ih hincreasing.1
      rw [List.foldl_append, List.filter_append, List.foldl_cons, List.foldl_nil]
      by_cases hx : admissible x = true
      · rw [if_pos hx, List.filter_cons_of_pos hx, List.filter_nil, List.argmin_concat]
        cases hlast : (xs.filter admissible).argmin fun x => OrderDual.toDual (position x) with
        | none => rfl
        | some y =>
            have hy : y ∈ xs := (List.mem_filter.mp (List.argmin_mem hlast)).1
            have hlt : position y < position x :=
              hincreasing.2.2 y hy x List.mem_cons_self
            exact (if_pos (OrderDual.toDual_lt_toDual.mpr hlt)).symm
      · rw [if_neg hx, List.filter_cons_of_neg hx, List.filter_nil, List.append_nil, hrest]

theorem filterMap_tagged_eq_iff
    {α β : Type*}
    (items : List α)
    (f g : α → ℕ → Option β) :
    (items.zipIdx.filterMap fun placed => (f placed.1 placed.2).map fun b => (placed.2, b)) =
        (items.zipIdx.filterMap fun placed =>
          (g placed.1 placed.2).map fun b => (placed.2, b)) ↔
      ∀ item i, items[i]? = some item → f item i = g item i := by
  constructor
  · intro heq item i hitem
    have hmem : ∀ (h : α → ℕ → Option β) (b : β),
        (i, b) ∈ items.zipIdx.filterMap (fun placed =>
          (h placed.1 placed.2).map fun b => (placed.2, b)) ↔ h item i = some b := by
      intro h b
      simp only [List.mem_filterMap, Option.map_eq_some_iff, Prod.mk.injEq, Prod.exists,
        List.mk_mem_zipIdx_iff_getElem?]
      constructor
      · intro hin
        obtain ⟨item', i', hitem', b', hb', hi, hb⟩ := hin
        rw [hi, hitem, Option.some.injEq] at hitem'
        rw [hitem', ← hi, hb', hb]
      · intro hb
        exact ⟨item, i, hitem, b, hb, rfl, rfl⟩
    apply Option.ext
    intro b
    rw [← hmem f b, heq, hmem g b]
  · intro hsame
    apply List.filterMap_congr
    intro placed hplaced
    rw [hsame placed.1 placed.2 (List.mem_zipIdx_iff_getElem?.mp hplaced)]

/-- A search for a favoured match which falls back on any match finds the match
of least rank: the favoured ones come first, and then the position decides. -/
theorem find?_or_find?_eq_argmin
    {α : Type*}
    (admissible favoured : α → Bool)
    (position : α → ℕ)
    {candidates : List α}
    (hincreasing : candidates.Pairwise fun left right => position left < position right) :
    (candidates.find? fun x => admissible x && favoured x).or (candidates.find? admissible) =
      (candidates.filter admissible).argmin fun x =>
        toLex (if favoured x then 0 else 1, position x) := by
  induction candidates with
  | nil => rfl
  | cons x xs ih =>
      rw [List.pairwise_cons] at hincreasing
      have hrest := ih hincreasing.2
      have hbehind : ∀ y, (xs.filter admissible).argmin (fun x =>
          toLex (if favoured x then 0 else 1, position x)) = some y →
          position x < position y := fun y hy =>
        hincreasing.1 y (List.mem_filter.mp (List.argmin_mem hy)).1
      by_cases hx : admissible x = true
      · by_cases hfavoured : favoured x = true
        · simp only [List.find?_cons, hx, hfavoured, Bool.and_self, List.filter_cons, if_true,
            List.argmin_cons, Option.some_or]
          cases hmin : (xs.filter admissible).argmin fun x =>
              toLex ((if favoured x then 0 else 1 : ℕ), position x) with
          | none => rfl
          | some y =>
              have hlt := hbehind y hmin
              have hnot : ¬ toLex ((if favoured y then 0 else 1 : ℕ), position y) <
                  toLex ((0 : ℕ), position x) := by
                rw [Prod.Lex.toLex_lt_toLex]
                simp only [not_or, not_and, not_lt]
                exact ⟨Nat.zero_le _, fun _ => by omega⟩
              exact (if_neg hnot).symm
        · simp only [List.find?_cons, hx, hfavoured, Bool.and_false, List.filter_cons, if_true,
            List.argmin_cons]
          cases hstrict : xs.find? (fun x => admissible x && favoured x) with
          | some y =>
              have hy := List.find?_some hstrict
              rw [Bool.and_eq_true] at hy
              rw [hstrict, Option.some_or] at hrest
              rw [← hrest]
              simp [hy.2, Prod.Lex.toLex_lt_toLex]
          | none =>
              rw [hstrict, Option.none_or] at hrest
              rw [← hrest, Option.none_or]
              cases hloose : xs.find? admissible with
              | none => rfl
              | some y =>
                  rw [hloose] at hrest
                  have hlt := hbehind y hrest.symm
                  have hnot : ¬ toLex ((if favoured y then 0 else 1 : ℕ), position y) <
                      toLex ((1 : ℕ), position x) := by
                    have hy : favoured y = false := by
                      have hmem := List.mem_of_find?_eq_some hloose
                      have hnone := List.find?_eq_none.mp hstrict y hmem
                      simpa [List.find?_some hloose] using hnone
                    rw [Prod.Lex.toLex_lt_toLex]
                    simp only [hy, Bool.false_eq_true, if_false]
                    omega
                  simp [hnot]
      · simp only [List.find?_cons, hx, Bool.false_and, List.filter_cons]
        exact hrest

/-- With a key that tells the elements apart, the least element of a list is the
one below all others. -/
theorem argmin_eq_some_iff_of_injOn
    {α β : Type*}
    [LinearOrder β]
    {key : α → β}
    {items : List α}
    (hinj : ∀ x ∈ items, ∀ y ∈ items, key x = key y → x = y)
    {best : α} :
    items.argmin key = some best ↔
      best ∈ items ∧ ∀ other ∈ items, key best ≤ key other := by
  constructor
  · intro hbest
    exact ⟨List.argmin_mem hbest, fun other hother => List.le_of_mem_argmin hother hbest⟩
  · rintro ⟨hmem, hle⟩
    cases hmin : items.argmin key with
    | none =>
        rw [List.argmin_eq_none] at hmin
        simp [hmin] at hmem
    | some other =>
        have hother := List.argmin_mem hmin
        have hkey : key other = key best :=
          le_antisymm (List.le_of_mem_argmin hmem hmin) (hle other hother)
        rw [hinj other hother best hmem hkey]

/-- Only the comparisons of the keys matter to an `argmin`. -/
theorem argmin_congr
    {α β γ : Type*}
    [LinearOrder β]
    [LinearOrder γ]
    {first : α → β}
    {second : α → γ}
    {items : List α}
    (hagree : ∀ x ∈ items, ∀ y ∈ items, first x < first y ↔ second x < second y) :
    items.argmin first = items.argmin second := by
  induction items with
  | nil => rfl
  | cons x xs ih =>
      have hrest : xs.argmin first = xs.argmin second :=
        ih fun a ha b hb =>
          hagree a (List.mem_cons_of_mem x ha) b (List.mem_cons_of_mem x hb)
      rw [List.argmin_cons, List.argmin_cons, hrest]
      cases hbest : xs.argmin second with
      | none => rfl
      | some y =>
          have hy : y ∈ xs := List.argmin_mem hbest
          simp only [hagree y (List.mem_cons_of_mem x hy) x List.mem_cons_self]

theorem argmin_map
    {α β γ : Type*}
    [LinearOrder γ]
    (f : α → β)
    (key : β → γ)
    (items : List α) :
    (items.map f).argmin key = (items.argmin (key ∘ f)).map f := by
  induction items with
  | nil => rfl
  | cons x xs ih =>
      rw [List.map_cons, List.argmin_cons, List.argmin_cons, ih]
      cases xs.argmin (key ∘ f) with
      | none => rfl
      | some y =>
          simp only [Option.map_some, Function.comp_apply]
          split <;> rfl

theorem lt_iff_lt_of_pairwise
    {α : Type*}
    {first second : α → ℕ}
    {items : List α}
    (hfirst : items.Pairwise fun x y => first x < first y)
    (hsecond : items.Pairwise fun x y => second x < second y)
    {x y : α}
    (hx : x ∈ items)
    (hy : y ∈ items) :
    first x < first y ↔ second x < second y := by
  have hboth : items.Pairwise fun x y =>
      (first x < first y ↔ second x < second y) ∧
        (first y < first x ↔ second y < second x) := by
    refine (hfirst.and hsecond).imp ?_
    rintro a b ⟨hab, hab'⟩
    omega
  have : Std.Symm fun x y : α =>
      (first x < first y ↔ second x < second y) ∧
        (first y < first x ↔ second y < second x) :=
    ⟨fun _ _ hxy => ⟨hxy.2, hxy.1⟩⟩
  have hsame : ∀ x ∈ items,
      (first x < first x ↔ second x < second x) ∧
        (first x < first x ↔ second x < second x) := by simp
  exact (hboth.forall_of_forall hsame hx hy).1

/-- Where a key looks only at the order of the positions, the least element does
not depend on what the positions are. -/
theorem argmin_map_fst_congr
    {α β : Type*}
    [LinearOrder β]
    {key : α × ℕ → β}
    (hkey : ∀ left right i j i' j', (i < j ↔ i' < j') → (j < i ↔ j' < i') →
      (key (left, i) < key (right, j) ↔ key (left, i') < key (right, j')))
    {first second : List (α × ℕ)}
    (hfirst : first.Pairwise fun left right => left.2 < right.2)
    (hsecond : second.Pairwise fun left right => left.2 < right.2)
    (hsame : first.map Prod.fst = second.map Prod.fst) :
    (first.argmin key).map Prod.fst = (second.argmin key).map Prod.fst := by
  have hlength : first.length = second.length := by
    have h := congrArg List.length hsame
    simpa using h
  have hleft : (first.zip second).map Prod.fst = first :=
    List.map_fst_zip (le_of_eq hlength)
  have hright : (first.zip second).map Prod.snd = second :=
    List.map_snd_zip (le_of_eq hlength.symm)
  have hevents : ∀ pair ∈ first.zip second, pair.1.1 = pair.2.1 := by
    intro pair hpair
    obtain ⟨k, hk⟩ := List.mem_iff_getElem?.mp hpair
    obtain ⟨hx, hy⟩ := List.getElem?_zip_eq_some.mp hk
    have h := congrArg (fun events => events[k]?) hsame
    simpa [hx, hy] using h
  have hfirst' : (first.zip second).Pairwise fun left right => left.1.2 < right.1.2 := by
    rw [← hleft, List.pairwise_map] at hfirst
    exact hfirst
  have hsecond' : (first.zip second).Pairwise fun left right => left.2.2 < right.2.2 := by
    rw [← hright, List.pairwise_map] at hsecond
    exact hsecond
  have hargmin : (first.zip second).argmin (key ∘ Prod.fst) =
      (first.zip second).argmin (key ∘ Prod.snd) := by
    apply argmin_congr
    rintro ⟨⟨event, i⟩, ⟨event', i'⟩⟩ hx ⟨⟨other, j⟩, ⟨other', j'⟩⟩ hy
    obtain rfl : event = event' := hevents _ hx
    obtain rfl : other = other' := hevents _ hy
    exact hkey event other i j i' j' (lt_iff_lt_of_pairwise hfirst' hsecond' hx hy)
      (lt_iff_lt_of_pairwise hfirst' hsecond' hy hx)
  calc
    (first.argmin key).map Prod.fst
        = (((first.zip second).map Prod.fst).argmin key).map Prod.fst := by rw [hleft]
    _ = ((first.zip second).argmin (key ∘ Prod.fst)).map (Prod.fst ∘ Prod.fst) := by
          rw [argmin_map, Option.map_map]
    _ = ((first.zip second).argmin (key ∘ Prod.snd)).map (Prod.fst ∘ Prod.snd) := by
          rw [hargmin]
          cases hmin : (first.zip second).argmin (key ∘ Prod.snd) with
          | none => rfl
          | some pair => exact congrArg some (hevents pair (List.argmin_mem hmin))
    _ = (((first.zip second).map Prod.snd).argmin key).map Prod.fst := by
          rw [argmin_map, Option.map_map]
    _ = (second.argmin key).map Prod.fst := by rw [hright]

/-! ## Stable sorting -/

section StableSorting

variable {α : Type*} (r : α → α → Prop) [DecidableRel r]

/-- Insertion sort keeps the order of the elements selected by `p` if their
original order is already sorted. -/
theorem filter_insertionSort_eq
    (p : α → Bool)
    {items : List α}
    (hsorted : (items.filter p).Pairwise r) :
    (items.insertionSort r).filter p = items.filter p := by
  have hsub : (items.filter p).Sublist (items.insertionSort r) :=
    List.sublist_insertionSort hsorted (List.filter_sublist)
  have hsub' : (items.filter p).Sublist ((items.insertionSort r).filter p) := by
    simpa using hsub.filter p
  have hperm : ((items.insertionSort r).filter p).Perm (items.filter p) :=
    (List.perm_insertionSort r items).filter p
  exact (hsub'.eq_of_length hperm.length_eq.symm).symm

theorem stable_orderedInsert
    {s : α → α → Prop}
    {x : α}
    {sorted : List α}
    (hbehind : ∀ y ∈ sorted, s x y)
    (hsorted : sorted.Pairwise fun y z => r z y → s y z) :
    (sorted.orderedInsert r x).Pairwise fun y z => r z y → s y z := by
  induction sorted with
  | nil => exact List.pairwise_singleton _ _
  | cons y ys ih =>
      by_cases hxy : r x y
      · rw [List.orderedInsert_cons_of_le _ _ hxy]
        exact .cons (fun z hz _ => hbehind z hz) hsorted
      · rw [List.orderedInsert_of_not_le _ _ hxy]
        obtain ⟨hy, hys⟩ := List.pairwise_cons.mp hsorted
        refine .cons (fun z hz hzy => ?_)
          (ih (fun z hz => hbehind z (List.mem_cons_of_mem y hz)) hys)
        rcases (List.mem_orderedInsert r).mp hz with rfl | hmem
        · exact absurd hzy hxy
        · exact hy z hmem hzy

/-- Insertion sort keeps the order `s` of items which `r` does not tell apart. -/
theorem stable_insertionSort
    {s : α → α → Prop}
    {items : List α}
    (hitems : items.Pairwise s) :
    (items.insertionSort r).Pairwise fun x y => r y x → s x y := by
  induction items with
  | nil => exact List.Pairwise.nil
  | cons x items ih =>
      obtain ⟨hfirst, hrest⟩ := List.pairwise_cons.mp hitems
      rw [List.insertionSort_cons]
      refine stable_orderedInsert r (fun y hy => ?_) (ih hrest)
      exact hfirst y ((List.mem_insertionSort r).mp hy)

theorem filter_orderedInsert
    [IsTrans α r]
    (p : α → Bool)
    (x : α)
    {sorted : List α}
    (hsorted : sorted.Pairwise r) :
    (sorted.orderedInsert r x).filter p =
      if p x then (sorted.filter p).orderedInsert r x else sorted.filter p := by
  induction sorted with
  | nil => cases hx : p x <;> simp [hx]
  | cons y ys ih =>
      rw [List.pairwise_cons] at hsorted
      have hys := ih hsorted.2
      by_cases hxy : r x y
      · rw [List.orderedInsert_cons_of_le _ _ hxy, List.filter_cons]
        -- whatever is left of the sorted list stands above the new element
        have hfront : ∀ z ∈ (y :: ys).filter p, r x z := by
          intro z hz
          cases List.mem_cons.mp (List.mem_of_mem_filter hz) with
          | inl heq => exact heq ▸ hxy
          | inr hmem => exact IsTrans.trans x y z hxy (hsorted.1 z hmem)
        have hinsert : ((y :: ys).filter p).orderedInsert r x = x :: (y :: ys).filter p := by
          cases hfiltered : (y :: ys).filter p with
          | nil => rfl
          | cons z zs =>
              apply List.orderedInsert_cons_of_le
              apply hfront
              rw [hfiltered]
              exact List.mem_cons_self
        rw [hinsert]
      · rw [List.orderedInsert_of_not_le _ _ hxy]
        cases hy : p y with
        | true =>
            cases hx : p x with
            | true => simp [hy, hx, hys, hxy]
            | false => simp [hy, hx, hys]
        | false => simp [hy, hys]

/-- Sorting the selected elements is selecting from the sorted ones: insertion
sort is stable. -/
theorem filter_insertionSort
    [IsTrans α r]
    [Std.Total r]
    (p : α → Bool)
    (items : List α) :
    (items.insertionSort r).filter p = (items.filter p).insertionSort r := by
  induction items with
  | nil => rfl
  | cons x xs ih =>
      rw [List.insertionSort_cons, filter_orderedInsert r p x (List.pairwise_insertionSort r xs),
        ih, List.filter_cons]
      split <;> rfl

end StableSorting

/-- In a sorted list nothing at or before a position is selected by `p`, if no
selected element may stand at or below the element found there. -/
theorem filter_drop_eq_of_pairwise
    {α : Type*}
    (r : α → α → Prop)
    {sorted : List α}
    (hsorted : sorted.Pairwise r)
    (p : α → Bool)
    {i : ℕ}
    {x : α}
    (hx : sorted[i]? = some x)
    (hxp : p x = false)
    (habove : ∀ y ∈ sorted, p y = true → ¬ r y x) :
    (sorted.drop (i + 1)).filter p = sorted.filter p := by
  obtain ⟨hi, hget⟩ := List.getElem?_eq_some_iff.mp hx
  have htake : (sorted.take (i + 1)).filter p = [] := by
    rw [List.filter_eq_nil_iff]
    intro y hy hp
    obtain ⟨k, hk, hyk⟩ := List.mem_take_iff_getElem.mp hy
    have hk' : k < i ∨ k = i := by omega
    cases hk' with
    | inl hlt =>
        have hrel := List.pairwise_iff_getElem.mp hsorted k i (by omega) hi hlt
        rw [hyk, hget] at hrel
        exact habove y (List.mem_of_mem_take hy) hp hrel
    | inr heq =>
        subst heq
        rw [hget] at hyk
        rw [← hyk, hxp] at hp
        exact Bool.false_ne_true hp
  calc
    (sorted.drop (i + 1)).filter p
        = (sorted.take (i + 1)).filter p ++ (sorted.drop (i + 1)).filter p := by
          rw [htake, List.nil_append]
    _ = sorted.filter p := by
          rw [← List.filter_append, List.take_append_drop]

/-! ## Loops over a list -/

section Loops

variable {α β γ : Type*}

/-- A table of values by key. -/
theorem lookup_map
    [BEq β]
    [LawfulBEq β]
    [DecidableEq β]
    (key : α → β)
    (value : α → γ)
    (items : List α)
    (target : β) :
    (items.map fun item => (key item, value item)).lookup target =
      (items.find? fun item => key item = target).map value := by
  induction items with
  | nil => rfl
  | cons item items ih =>
      rw [List.map_cons, List.lookup_cons, List.find?_cons, ih]
      by_cases htarget : key item = target
      · have hbeq : (target == key item) = true := beq_iff_eq.mpr htarget.symm
        rw [hbeq, decide_eq_true htarget]
        rfl
      · have hbeq : (target == key item) = false := beq_false_of_ne (Ne.symm htarget)
        rw [hbeq, decide_eq_false htarget]

/-- A loop which yields one result for each selected element and none for the
others. -/
theorem forall₂_filterMap
    {R : α → β → Prop}
    {p : α → Bool}
    {f : α → Option β}
    {items : List α}
    (hnone : ∀ x ∈ items, p x = false → f x = none)
    (hsome : ∀ x ∈ items, p x = true → ∃ y, f x = some y ∧ R x y) :
    List.Forall₂ R (items.filter p) (items.filterMap f) := by
  induction items with
  | nil => exact .nil
  | cons x xs ih =>
      have hrest := ih (fun y hy => hnone y (List.mem_cons_of_mem x hy))
        (fun y hy => hsome y (List.mem_cons_of_mem x hy))
      cases hx : p x with
      | true =>
          obtain ⟨y, hy, hrel⟩ := hsome x List.mem_cons_self hx
          rw [List.filter_cons_of_pos hx, List.filterMap_cons_some hy]
          exact .cons hrel hrest
      | false =>
          rw [List.filter_cons_of_neg (by simp [hx]),
            List.filterMap_cons_none (hnone x List.mem_cons_self hx)]
          exact hrest

/-- Two loops over the same elements at other places yield the same if the
outcomes at an element agree wherever it stands. -/
theorem filterMap_congr_of_map_fst
    {f g : α × ℕ → Option β}
    {first second : List (α × ℕ)}
    (hsame : first.map Prod.fst = second.map Prod.fst)
    (hagree : ∀ x i j, (x, i) ∈ first → (x, j) ∈ second → f (x, i) = g (x, j)) :
    first.filterMap f = second.filterMap g := by
  induction first generalizing second with
  | nil =>
      rw [List.map_nil, eq_comm, List.map_eq_nil_iff] at hsame
      rw [hsame]
      rfl
  | cons head rest ih =>
      cases second with
      | nil => cases hsame
      | cons head' rest' =>
          obtain ⟨x, i⟩ := head
          obtain ⟨y, j⟩ := head'
          rw [List.map_cons, List.map_cons, List.cons.injEq] at hsame
          obtain ⟨hxy, hrest⟩ := hsame
          obtain rfl : x = y := hxy
          have hhead := hagree x i j List.mem_cons_self List.mem_cons_self
          have htail := ih hrest fun z k l hk hl =>
            hagree z k l (List.mem_cons_of_mem _ hk) (List.mem_cons_of_mem _ hl)
          rw [List.filterMap_cons, List.filterMap_cons, hhead, htail]

/-- A loop that looks at each element together with the elements behind it. -/
def suffixMap (f : α → List α → Option β) : List α → List β
  | [] => []
  | x :: xs => (f x xs).toList ++ suffixMap f xs

theorem filterMap_zipIdx_eq_suffixMap
    (f : α → List α → Option β)
    {items rest : List α}
    {start : ℕ}
    (hrest : items.drop start = rest) :
    (rest.zipIdx start).filterMap (fun placed => f placed.1 (items.drop (placed.2 + 1))) =
      suffixMap f rest := by
  induction rest generalizing start with
  | nil => rfl
  | cons x xs ih =>
      have hnext : items.drop (start + 1) = xs := by
        rw [← List.drop_drop, hrest]
        rfl
      rw [List.zipIdx_cons, List.filterMap_cons, ih hnext, suffixMap, hnext]
      cases f x xs <;> rfl

/-- Elements which yield nothing and are not looked at may be left out. -/
theorem suffixMap_filter
    {f : α → List α → Option β}
    {p : α → Bool}
    (hnone : ∀ x xs, p x = false → f x xs = none)
    (hfilter : ∀ x xs, f x (xs.filter p) = f x xs)
    (items : List α) :
    suffixMap f (items.filter p) = suffixMap f items := by
  induction items with
  | nil => rfl
  | cons x xs ih =>
      cases hx : p x with
      | true => rw [List.filter_cons_of_pos hx, suffixMap, suffixMap, hfilter, ih]
      | false =>
          rw [List.filter_cons_of_neg (by simp [hx]), suffixMap, hnone x xs hx, ih]
          rfl

variable [DecidableEq γ]

/-- A list is made up of the classes of its elements. -/
theorem flatMap_filter_perm
    (key : α → γ)
    {classes : List γ}
    (hnodup : classes.Nodup)
    {items : List α}
    (hmem : ∀ x ∈ items, key x ∈ classes) :
    (classes.flatMap fun c => items.filter fun x => key x = c).Perm items := by
  induction classes generalizing items with
  | nil =>
      rw [List.eq_nil_iff_forall_not_mem.mpr fun x hx => List.not_mem_nil (hmem x hx)]
      exact .nil
  | cons c classes ih =>
      rw [List.nodup_cons] at hnodup
      have hothers : ∀ x ∈ items.filter (fun x => !decide (key x = c)), key x ∈ classes := by
        intro x hx
        simp only [List.mem_filter, Bool.not_eq_true', decide_eq_false_iff_not] at hx
        exact (List.mem_cons.mp (hmem x hx.1)).resolve_left hx.2
      have hclasses : (classes.flatMap fun c' => items.filter fun x => key x = c') =
          classes.flatMap fun c' =>
            (items.filter fun x => !decide (key x = c)).filter fun x => key x = c' := by
        apply List.flatMap_congr
        intro c' hc'
        rw [List.filter_filter]
        apply List.filter_congr
        intro x _
        by_cases hx : key x = c'
        · have hne : c' ≠ c := fun heq => hnodup.1 (heq ▸ hc')
          simp [hx, hne]
        · simp [hx]
      rw [List.flatMap_cons, hclasses]
      exact ((ih hnodup.2 hothers).append_left _).trans (List.filter_append_perm _ items)

/-- Loops that yield the same on every class yield the same up to order. -/
theorem filterMap_perm_of_classes
    {δ : Type*}
    (key : α → γ)
    (key' : δ → γ)
    {f : α → Option β}
    {g : δ → Option β}
    {first : List α}
    {second : List δ}
    (hclasses : ∀ c, (first.filter fun x => key x = c).filterMap f =
      (second.filter fun x => key' x = c).filterMap g) :
    (first.filterMap f).Perm (second.filterMap g) := by
  have hnodup : (first.map key ++ second.map key').dedup.Nodup := List.nodup_dedup _
  have hfirst := flatMap_filter_perm key hnodup fun x (hx : x ∈ first) => by
    rw [List.mem_dedup]
    exact List.mem_append_left _ (List.mem_map_of_mem hx)
  have hsecond := flatMap_filter_perm key' hnodup fun x (hx : x ∈ second) => by
    rw [List.mem_dedup]
    exact List.mem_append_right _ (List.mem_map_of_mem hx)
  have hsame := (hfirst.filterMap f).symm
  rw [List.filterMap_flatMap] at hsame
  simp only [hclasses] at hsame
  rw [← List.filterMap_flatMap] at hsame
  exact hsame.trans (hsecond.filterMap g)

end Loops

/-! ## Infixes -/

/-- A text of which no start is an end of `front` does not begin there. -/
theorem infix_append_iff_of_no_overlap
    {α : Type*}
    {part front back : List α}
    (hfront : ¬ part <:+: front)
    (hoverlap : ∀ size < part.length, 0 < size → ¬ part.take size <:+ front) :
    part <:+: front ++ back ↔ part <:+: back := by
  rw [List.infix_append_iff_ne_nil]
  constructor
  · intro h
    rcases h with h | h | ⟨start, rest, hstart, hrest, hpart, hsuffix, -⟩
    · exact absurd h hfront
    · exact h
    · refine absurd ?_ (hoverlap start.length ?_ (List.length_pos_iff.mpr hstart))
      · rwa [hpart, List.take_left]
      · have hpos := List.length_pos_iff.mpr hrest
        rw [hpart, List.length_append]
        omega
  · exact fun h => .inr (.inl h)

/-! ## Items that read alike -/

theorem map_eq_of_forall₂
    {α α' β : Type*}
    {related : α → α' → Prop}
    {read : α → β}
    {read' : α' → β}
    {items : List α}
    {items' : List α'}
    (hread : ∀ item item', related item item' → read item = read' item')
    (hitems : List.Forall₂ related items items') :
    items.map read = items'.map read' := by
  induction hitems with
  | nil => rfl
  | cons hitem _ ih => rw [List.map_cons, List.map_cons, hread _ _ hitem, ih]

theorem exists_pairs_of_map_eq
    {α ρ : Type*}
    {read : α → ρ}
    {items items' : List α}
    (hread : items.map read = items'.map read) :
    ∃ pairs : List { pair : α × α // read pair.1 = read pair.2 },
      items = pairs.map (fun pair => pair.1.1) ∧ items' = pairs.map fun pair => pair.1.2 := by
  induction items generalizing items' with
  | nil =>
      have hnil := List.map_eq_nil_iff.mp hread.symm
      subst hnil
      exact ⟨[], rfl, rfl⟩
  | cons item rest ih =>
      obtain ⟨item', rest', rfl, hitem, hrest⟩ := List.map_eq_cons_iff.mp hread.symm
      obtain ⟨pairs, hpairs, hpairs'⟩ := ih hrest.symm
      refine ⟨⟨(item, item'), hitem.symm⟩ :: pairs, ?_, ?_⟩
      · rw [List.map_cons, ← hpairs]
      · rw [List.map_cons, ← hpairs']

/-! ## Entries and what is in front of them -/

/-- Every entry is related to the entries in front of it. -/
def EachAfter {α : Type*} (related : List α → α → Prop) (entries : List α) : Prop :=
  ∀ earlier entry later, entries = earlier ++ entry :: later → related earlier entry

theorem eachAfter_nil
    {α : Type*}
    {related : List α → α → Prop} :
    EachAfter related [] := by
  intro earlier entry later hsplit
  simp at hsplit

theorem eachAfter_concat
    {α : Type*}
    {related : List α → α → Prop}
    {entries : List α}
    {last : α}
    (hentries : EachAfter related entries)
    (hlast : related entries last) :
    EachAfter related (entries ++ [last]) := by
  intro earlier entry later hsplit
  rcases List.eq_nil_or_concat later with rfl | ⟨front, final, rfl⟩
  · obtain ⟨rfl, hsame⟩ := List.append_inj' hsplit rfl
    cases hsame
    exact hlast
  · rw [List.concat_eq_append, ← List.cons_append, ← List.append_assoc] at hsplit
    obtain ⟨hfront, -⟩ := List.append_inj' hsplit rfl
    exact hentries earlier entry front hfront

end Sequences
