import AlkanesIndexer.PoolSnapshots

/-!
# Runs of refreshes

What the snapshots of a pool say after any sequence of refreshes: when the latest one is
what a refresh has fetched, and that a run at heights which do not decrease records
changes only.
-/

namespace AlkanesIndexer

open SnapshotHistory

namespace PoolSnapshots

/-! ## The latest snapshot after a refresh -/

/-- After a committed refresh every fetched pool has the fetched values as its latest. -/
def LatestFresh (ids : IdSource) (refresh : Refresh) (tables : PoolTables) : Prop :=
  ∀ fetched, fetchAllPoolsWithDetails refresh = .ok fetched →
    (fetchAndUpsertPoolsForTip ids refresh tables).committed = true →
    ∀ item ∈ fetched,
      latestValues (fetchAndUpsertPoolsForTip ids refresh tables).tables item.1 =
        some item.2.values

section Latest

variable
  {ids : IdSource}
  {refresh : Refresh}
  {tables : PoolTables}
  {fetched : List (AlkaneId × PoolDetailsResult)}

theorem tables_of_committed
    (hfetch : fetchAllPoolsWithDetails refresh = .ok fetched)
    (hcommitted : (fetchAndUpsertPoolsForTip ids refresh tables).committed = true) :
    (fetchAndUpsertPoolsForTip ids refresh tables).tables =
      tablesAfter ids refresh tables fetched := by
  cases report_cases ids refresh tables with
  | inl hkept =>
      rw [hkept.1] at hcommitted
      cases hcommitted
  | inr hdone =>
      obtain ⟨_, fetched', hfetch', hafter⟩ := hdone
      rw [hfetch] at hfetch'
      rw [hafter, Except.ok.inj hfetch']

/-- A pool all of whose listings agree takes their values, unless it is another
factory's or has a snapshot at the tip or above. -/
theorem expectedValues_eq_iff
    {item : AlkaneId × PoolDetailsResult}
    (hitem : item ∈ fetched)
    (hagree : ∀ other ∈ fetched, other.1 = item.1 → other.2.values = item.2.values) :
    expectedValues refresh tables fetched item.1 = some item.2.values ↔
      latestValues tables item.1 = some item.2.values ∨
        ¬ Foreign refresh tables item.1 ∧ BelowTip refresh tables item.1 := by
  unfold expectedValues
  by_cases hopen : ¬ Foreign refresh tables item.1 ∧ BelowTip refresh tables item.1
  · rw [if_pos hopen]
    cases hfind : fetched.find? fun other =>
        decide (other.1 = item.1 ∧ latestValues tables item.1 ≠ some other.2.values) with
    | none =>
        have hsame := List.find?_eq_none.mp hfind item hitem
        rw [decide_eq_true_eq, not_and_not_right] at hsame
        simp [hsame rfl]
    | some other =>
        have hother := List.find?_some hfind
        rw [decide_eq_true_eq] at hother
        have hvalues := hagree other (List.mem_of_find?_eq_some hfind) hother.1
        simp [hvalues, hopen]
  · rw [if_neg hopen]
    simp [hopen]

end Latest

theorem latest_after_run
    (ids : IdSource)
    (store : PoolStore)
    (refreshes : List Refresh)
    (refresh : Refresh)
    {fetched : List (AlkaneId × PoolDetailsResult)}
    (hfetch : fetchAllPoolsWithDetails refresh = .ok fetched)
    (hcommitted : (fetchAndUpsertPoolsForTip ids refresh
      (store.run ids refreshes).toPoolTables).committed = true) :
    let before := (store.run ids refreshes).toPoolTables
    let after := (fetchAndUpsertPoolsForTip ids refresh before).tables
    ∀ item ∈ fetched,
      latestValues after item.1 = expectedValues refresh before fetched item.1 ∧
      ((∀ other ∈ fetched, other.1 = item.1 → other.2.values = item.2.values) →
        (latestValues after item.1 = some item.2.values ↔
          latestValues before item.1 = some item.2.values ∨
            ¬ Foreign refresh before item.1 ∧ BelowTip refresh before item.1)) := by
  intro before after item hitem
  have hafter : after = tablesAfter ids refresh before fetched :=
    tables_of_committed hfetch hcommitted
  have hlatest : latestValues after item.1 = expectedValues refresh before fetched item.1 := by
    rw [hafter]
    exact latestValues_tablesAfter ids (store.run ids refreshes).valid
      (List.mem_map_of_mem hitem)
  refine ⟨hlatest, fun hagree => ?_⟩
  rw [hlatest]
  exact expectedValues_eq_iff hitem hagree

/-! ## A factory with one pool -/

/-- Ids of growing length. -/
def growingIds : IdSource where
  next used := String.ofList (List.replicate ((used.map String.length).sum + 1) 'p')
  next_notMem used hmem := by
    have hle := List.single_le_sum (fun _ _ => Nat.zero_le _) _
      (List.mem_map_of_mem (f := String.length) hmem)
    rw [String.length_ofList, List.length_replicate] at hle
    omega

def detailsOf (amount : ℕ) : PoolDetailsResult where
  token0 := ("2", "0")
  token1 := ("32", "0")
  poolName := "DIESEL / frBTC LP"
  token0Amount := amount
  token1Amount := 7
  tokenSupply := 9

/-- The one pool of the factory is fetched with the given amount at the given tip. -/
def refreshAt (tipHeight amount : ℕ) : Refresh where
  factory := ("4", "65522")
  tipHeight := tipHeight
  listed := .ok [(("2", "100"), .ok (detailsOf amount))]
  picks := []
  saves := .saved

theorem sameTip_not_fresh :
    ¬ LatestFresh growingIds (refreshAt 900000 6)
      (PoolStore.empty.run growingIds [refreshAt 900000 5]).toPoolTables := by
  intro hfresh
  have hlatest := hfresh [(("2", "100"), detailsOf 6)] rfl (by decide) _ List.mem_cons_self
  exact absurd hlatest (by decide)

theorem latest_after_nextTip :
    latestValues (fetchAndUpsertPoolsForTip growingIds (refreshAt 900001 6)
      (PoolStore.empty.run growingIds [refreshAt 900000 5]).toPoolTables).tables ("2", "100") =
        some (detailsOf 6).values := by
  have hitem := latest_after_run growingIds .empty [refreshAt 900000 5] (refreshAt 900001 6)
    rfl (by decide) (("2", "100"), detailsOf 6) List.mem_cons_self
  refine (hitem.2 fun other hother _ => ?_).mpr (Or.inr (by decide))
  rw [List.mem_singleton.mp hother]

/-! ## Changes are recorded -/

/-- No pool has two snapshots at one height, and neighbouring ones differ. -/
structure RecordsChanges (tables : PoolTables) : Prop where
  once : OnePerHeight tables.states
  changes : ChangesOnly tables.states

/-- The heights as the table has them. -/
def tips (refreshes : List Refresh) : List ℤ :=
  refreshes.map fun refresh => asI32 refresh.tipHeight

section Run

variable {ids : IdSource} {refresh : Refresh} {refreshes : List Refresh} {store : PoolStore}

theorem run_append
    (later : List Refresh) :
    store.run ids (refreshes ++ later) = (store.run ids refreshes).run ids later :=
  List.foldl_append

theorem states_refresh_cases
    (ids : IdSource)
    (refresh : Refresh)
    (store : PoolStore) :
    (store.refresh ids refresh).states = store.states ∨
      ∃ fetched, (store.refresh ids refresh).states =
        insertAll store.states (newStates ids refresh store.toPoolTables fetched) := by
  cases report_cases ids refresh store.toPoolTables with
  | inl hkept => exact Or.inl (congrArg PoolTables.states hkept.2)
  | inr hdone =>
      obtain ⟨_, fetched, _, hafter⟩ := hdone
      exact Or.inr ⟨fetched, congrArg PoolTables.states hafter⟩

/-- A refresh adds snapshots at the height of its tip. -/
theorem states_refresh_eq_append
    (ids : IdSource)
    (refresh : Refresh)
    (store : PoolStore) :
    ∃ added, (store.refresh ids refresh).states = store.states ++ added ∧
      ∀ state ∈ added, state.height = asI32 refresh.tipHeight := by
  cases states_refresh_cases ids refresh store with
  | inl hkept => exact ⟨[], by rw [hkept, List.append_nil], nofun⟩
  | inr hdone =>
      obtain ⟨fetched, hstates⟩ := hdone
      obtain ⟨added, heq, hsub, _⟩ := insertAll_eq_append store.states
        (newStates ids refresh store.toPoolTables fetched)
      refine ⟨added, hstates.trans heq, fun state hstate => ?_⟩
      exact height_of_mem_newStates (hsub.subset hstate)

/-- Snapshots are added, and never changed or removed. -/
theorem prefix_states_run :
    store.states <+: (store.run ids refreshes).states := by
  induction refreshes generalizing store with
  | nil => exact List.prefix_rfl
  | cons refresh refreshes ih =>
      obtain ⟨added, hstates, _⟩ := states_refresh_eq_append ids refresh store
      have hfirst : store.states <+: (store.refresh ids refresh).states := ⟨added, hstates.symm⟩
      exact hfirst.trans ih

/-- The height of every snapshot is that of a tip. -/
theorem height_of_mem_states
    {state : PoolState}
    (hstate : state ∈ (PoolStore.empty.run ids refreshes).states) :
    state.height ∈ tips refreshes := by
  induction refreshes using List.reverseRecOn with
  | nil => cases hstate
  | append_singleton refreshes refresh ih =>
      obtain ⟨added, hstates, hheight⟩ :=
        states_refresh_eq_append ids refresh (PoolStore.empty.run ids refreshes)
      have hmem : state ∈ (PoolStore.empty.run ids refreshes).states ++ added := by
        rw [← hstates]
        rwa [run_append] at hstate
      unfold tips at ih ⊢
      rw [List.map_append, List.mem_append]
      cases List.mem_append.mp hmem with
      | inl hold => exact Or.inl (ih hold)
      | inr hadded =>
          right
          rw [hheight state hadded]
          exact List.mem_singleton_self _

theorem changesOnly_refresh
    (hchanges : ChangesOnly store.states)
    (hbound : ∀ state ∈ store.states, state.height ≤ asI32 refresh.tipHeight) :
    ChangesOnly (store.refresh ids refresh).states := by
  cases states_refresh_cases ids refresh store with
  | inl hkept => rwa [hkept]
  | inr hdone =>
      obtain ⟨fetched, hstates⟩ := hdone
      rw [hstates]
      exact changesOnly_insertAll store.valid.heights hchanges hbound
        (fun _ hstate => height_of_mem_newStates hstate)
        (fun _ hstate _ hlast => value_ne_of_mem_newStates hstate hlast)

theorem changesOnly_run
    (hmono : (tips refreshes).Pairwise (· ≤ ·)) :
    ChangesOnly (PoolStore.empty.run ids refreshes).states := by
  induction refreshes using List.reverseRecOn with
  | nil => exact nofun
  | append_singleton refreshes refresh ih =>
      unfold tips at hmono ih
      rw [List.map_append, List.pairwise_append] at hmono
      rw [run_append]
      refine changesOnly_refresh (ih hmono.1) fun state hstate => ?_
      exact hmono.2.2 _ (height_of_mem_states hstate) _ (List.mem_singleton_self _)

end Run

/-- Where the heights do not decrease once they are cast, every state on the way records
changes only, and a snapshot stays as it is. -/
theorem run_recordsChanges
    (ids : IdSource)
    (refreshes : List Refresh)
    (hmono : (tips refreshes).Pairwise (· ≤ ·))
    (earlier : List Refresh)
    (hearlier : earlier <+: refreshes) :
    RecordsChanges (PoolStore.empty.run ids earlier).toPoolTables ∧
      (PoolStore.empty.run ids earlier).states <+:
        (PoolStore.empty.run ids refreshes).states := by
  obtain ⟨later, rfl⟩ := hearlier
  have hfirst : (tips earlier).Pairwise (· ≤ ·) := by
    unfold tips at hmono ⊢
    rw [List.map_append] at hmono
    exact (List.pairwise_append.mp hmono).1
  refine ⟨⟨(PoolStore.empty.run ids earlier).valid.heights, changesOnly_run hfirst⟩, ?_⟩
  rw [run_append]
  exact prefix_states_run

/-- Tips that fit the column are not changed by the cast. -/
theorem pairwise_tips
    {refreshes : List Refresh}
    (hfits : ∀ refresh ∈ refreshes, refresh.tipHeight < 2 ^ 31)
    (hmono : (refreshes.map Refresh.tipHeight).Pairwise (· ≤ ·)) :
    (tips refreshes).Pairwise (· ≤ ·) := by
  have hcast : tips refreshes =
      (refreshes.map Refresh.tipHeight).map fun height : ℕ => (height : ℤ) := by
    unfold tips
    rw [List.map_map]
    apply List.map_congr_left
    intro refresh hrefresh
    have hlt := hfits refresh hrefresh
    apply Int.bmod_eq_of_le
    · omega
    · omega
  rw [hcast, List.pairwise_map]
  exact hmono.imp fun hle => Int.ofNat_le.mpr hle

theorem twoTips_recordsChanges :
    RecordsChanges
      (PoolStore.empty.run growingIds [refreshAt 900000 5, refreshAt 900001 6]).toPoolTables :=
  (run_recordsChanges growingIds [refreshAt 900000 5, refreshAt 900001 6]
    (pairwise_tips (by decide) (by decide)) _ List.prefix_rfl).1

/-- Tips that do not fit: the last two are negative as heights. -/
def wrappedRefreshes : List Refresh :=
  [refreshAt (2 ^ 31 - 1) 5, refreshAt (2 ^ 31) 6, refreshAt (2 ^ 31 + 1) 6]

theorem wrappedRefreshes_repeat :
    (wrappedRefreshes.map Refresh.tipHeight).Pairwise (· ≤ ·) ∧
      ¬ RecordsChanges (PoolStore.empty.run growingIds wrappedRefreshes).toPoolTables := by
  refine ⟨by decide, fun hrecords => ?_⟩
  have hstates : (PoolStore.empty.run growingIds wrappedRefreshes).states =
      [⟨"p", 2 ^ 31 - 1, (detailsOf 5).values⟩, ⟨"p", -2 ^ 31, (detailsOf 6).values⟩,
        ⟨"p", -2 ^ 31 + 1, (detailsOf 6).values⟩] := by decide
  have hchanges := hrecords.changes
  rw [hstates] at hchanges
  refine hchanges ⟨"p", -2 ^ 31, (detailsOf 6).values⟩ (by simp)
    ⟨"p", -2 ^ 31 + 1, (detailsOf 6).values⟩ (by simp) rfl (by decide) ?_ rfl
  decide

end PoolSnapshots

end AlkanesIndexer
