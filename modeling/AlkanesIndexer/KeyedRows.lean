import Mathlib.Data.List.Perm.Subperm

/-!
# Rows that are replaced by key

A table whose rows are always written for whole keys: the old rows of the keys go, the new
ones follow.  Such a table is, up to the order of its rows, what it holds for each key, and
for a key only the last replacement counts.
-/

namespace AlkanesIndexer

namespace KeyedRows

variable {ρ κ : Type*} [DecidableEq κ] {key : ρ → κ} {keys : List κ} {new rows : List ρ} {k : κ}

def rowsOf (key : ρ → κ) (rows : List ρ) (k : κ) : List ρ := rows.filter fun row => key row = k

def replace (key : ρ → κ) (keys : List κ) (new rows : List ρ) : List ρ :=
  (rows.filter fun row => key row ∉ keys) ++ new

theorem rowsOf_append
    (first second : List ρ) :
    rowsOf key (first ++ second) k = rowsOf key first k ++ rowsOf key second k :=
  List.filter_append _ _

theorem rowsOf_eq_nil
    (hkey : ∀ row ∈ rows, key row ≠ k) :
    rowsOf key rows k = [] :=
  List.filter_eq_nil_iff.mpr fun row hrow => by simpa using hkey row hrow

theorem rowsOf_filter
    (keeps : ρ → Bool) :
    rowsOf key (rows.filter keeps) k = (rowsOf key rows k).filter keeps :=
  List.filter_comm _ _ _

/-- A replacement decides the rows of its own keys, and leaves those of the others. -/
theorem rowsOf_replace
    (hnew : ∀ row ∈ new, key row ∈ keys) :
    rowsOf key (replace key keys new rows) k =
      if k ∈ keys then rowsOf key new k else rowsOf key rows k := by
  unfold replace
  rw [rowsOf_append]
  split
  next hk =>
    rw [rowsOf_eq_nil, List.nil_append]
    rintro row hrow rfl
    simpa [hk] using (List.mem_filter.mp hrow).2
  next hk =>
    have hother : rowsOf key new k = [] :=
      rowsOf_eq_nil fun row hrow heq => hk (heq ▸ hnew row hrow)
    rw [hother, List.append_nil, rowsOf, rowsOf, List.filter_filter]
    refine List.filter_congr fun row _ => ?_
    by_cases heq : key row = k
    · simp [heq, hk]
    · simp [heq]

variable (key) in
/-- Tables with the same rows for every key differ in the order of the rows only. -/
theorem perm_of_rowsOf
    {rows' : List ρ}
    (hrows : ∀ k, (rowsOf key rows k).Perm (rowsOf key rows' k)) :
    rows.Perm rows' := by
  classical
  rw [List.perm_iff_count]
  intro row
  have hcount := (hrows (key row)).count_eq row
  rwa [rowsOf, rowsOf, List.count_filter (by simp), List.count_filter (by simp)] at hcount

variable (rows) in
theorem replace_perm_comm
    {keys' : List κ}
    {new' : List ρ}
    (hnew : ∀ row ∈ new, key row ∈ keys)
    (hnew' : ∀ row ∈ new', key row ∈ keys')
    (hdisjoint : keys.Disjoint keys') :
    (replace key keys' new' (replace key keys new rows)).Perm
      (replace key keys new (replace key keys' new' rows)) := by
  refine perm_of_rowsOf key fun k => ?_
  rw [rowsOf_replace hnew', rowsOf_replace hnew, rowsOf_replace hnew, rowsOf_replace hnew']
  by_cases hk : k ∈ keys
  · rw [if_neg (hdisjoint hk), if_pos hk, if_pos hk]
  · rw [if_neg hk, if_neg hk]

end KeyedRows

end AlkanesIndexer
