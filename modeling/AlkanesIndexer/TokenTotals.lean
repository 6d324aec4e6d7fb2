import AlkanesIndexer.TokenAmounts

/-!
# Totals of a token

The total of a token adds up the values of the entries whose id names it.  A component
of the id which is missing, or does not decode, counts as zero.
-/

namespace AlkanesIndexer

/-- The number a component of an id stands for. -/
def CountsAs (component : Option JsonValue) (n : ℕ) : Prop :=
  component.bind valueU128FromJson = some n ∨
    component.bind valueU128FromJson = none ∧ n = 0

instance (component : Option JsonValue) (n : ℕ) : Decidable (CountsAs component n) :=
  inferInstanceAs (Decidable (_ ∨ _))

/-- The entry has an id whose components both decode to the target. -/
def DecodesTo (block tx : ℕ) (entry : JsonValue) : Prop :=
  ∃ id ∈ entry.get "id", (id.get "block").bind valueU128FromJson = some block ∧
    (id.get "tx").bind valueU128FromJson = some tx

/-- The entry has an id whose components both count as the target. -/
def CreditedTo (block tx : ℕ) (entry : JsonValue) : Prop :=
  ∃ id ∈ entry.get "id", CountsAs (id.get "block") block ∧ CountsAs (id.get "tx") tx

instance (block tx : ℕ) (entry : JsonValue) : Decidable (DecodesTo block tx entry) :=
  inferInstanceAs (Decidable (∃ id ∈ entry.get "id", _))

instance (block tx : ℕ) (entry : JsonValue) : Decidable (CreditedTo block tx entry) :=
  inferInstanceAs (Decidable (∃ id ∈ entry.get "id", _))

/-- The sum of the values of some entries, as far as it fits. -/
def totalOf (entries : List JsonValue) : ℕ :=
  min (entries.filterMap entryValue).sum u128Max

theorem idComponent_eq_iff
    {id : JsonValue}
    {key : String}
    {n : ℕ} :
    idComponent id key = toString n ↔ CountsAs (id.get key) n := by
  unfold idComponent CountsAs
  cases (id.get key).bind valueU128FromJson with
  | none => simp [eq_comm]
  | some value => simp

theorem namesToken_iff
    {entry : JsonValue}
    {block tx : ℕ} :
    namesToken entry (toString block) (toString tx) = true ↔ CreditedTo block tx entry := by
  unfold namesToken CreditedTo
  cases entry.get "id" with
  | none => simp
  | some id => simp only [Option.mem_def, Option.some.injEq, exists_eq_left', Bool.and_eq_true,
      decide_eq_true_eq, idComponent_eq_iff]

/-- An entry is credited to a target without a zero only if both components decode
to it. -/
theorem creditedTo_iff_of_ne_zero
    {block tx : ℕ}
    (hblock : block ≠ 0)
    (htx : tx ≠ 0)
    {entry : JsonValue} :
    CreditedTo block tx entry ↔ DecodesTo block tx entry := by
  unfold CreditedTo DecodesTo CountsAs
  simp only [hblock, htx, and_false, or_false]

theorem calculateTokenTotal_eq
    (alkanes : List JsonValue)
    (block tx : ℕ) :
    calculateTokenTotal alkanes (toString block) (toString tx) =
      totalOf (alkanes.filter fun entry => CreditedTo block tx entry) := by
  have hsum : calculateTokenTotal alkanes (toString block) (toString tx) =
      ((alkanes.filter fun entry => CreditedTo block tx entry).filterMap entryValue).foldl
        saturatingAdd 0 := by
    unfold calculateTokenTotal
    generalize 0 = total
    induction alkanes generalizing total with
    | nil => rfl
    | cons entry rest ih =>
        rw [List.foldl_cons, ih]
        by_cases hcredited : CreditedTo block tx entry
        · rw [if_pos (namesToken_iff.mpr hcredited),
            List.filter_cons_of_pos (by simpa using hcredited)]
          cases hvalue : entryValue entry with
          | none => rw [List.filterMap_cons_none hvalue]
          | some value => rw [List.filterMap_cons_some hvalue, List.foldl_cons]
        · rw [if_neg (fun hnames => hcredited (namesToken_iff.mp hnames)),
            List.filter_cons_of_neg (by simpa using hcredited)]
  unfold totalOf
  rw [hsum, foldl_saturatingAdd (Nat.zero_le _), Nat.zero_add]

theorem totalOf_perm
    {entries entries' : List JsonValue}
    (hperm : entries.Perm entries') :
    totalOf entries = totalOf entries' := by
  unfold totalOf
  rw [(hperm.filterMap entryValue).sum_eq]

theorem tokenTotal_of_credited
    (alkanes : List JsonValue)
    (block tx : ℕ) :
    calculateTokenTotal alkanes (toString block) (toString tx) =
        totalOf (alkanes.filter fun entry => CreditedTo block tx entry) ∧
      (block ≠ 0 → tx ≠ 0 → calculateTokenTotal alkanes (toString block) (toString tx) =
        totalOf (alkanes.filter fun entry => DecodesTo block tx entry)) ∧
      ∀ alkanes', alkanes.Perm alkanes' →
        calculateTokenTotal alkanes' (toString block) (toString tx) =
          calculateTokenTotal alkanes (toString block) (toString tx) := by
  refine ⟨calculateTokenTotal_eq alkanes block tx, ?_, ?_⟩
  · intro hblock htx
    rw [calculateTokenTotal_eq]
    simp only [creditedTo_iff_of_ne_zero hblock htx]
  · intro alkanes' hperm
    rw [calculateTokenTotal_eq, calculateTokenTotal_eq]
    exact totalOf_perm (hperm.symm.filter _)

/-- An entry whose id has no `tx`. -/
def txlessEntry : JsonValue :=
  .object [("id", .object [("block", .string "0x2")]), ("value", .string "5")]

theorem txlessEntry_credited :
    calculateTokenTotal [txlessEntry] (toString 2) (toString 0) = 5 ∧
      totalOf ([txlessEntry].filter fun entry => DecodesTo 2 0 entry) = 0 := by
  decide

end AlkanesIndexer
