import AlkanesIndexer.AmountEncodings
import AlkanesIndexer.Backoff

/-!
# The stored progress

`kv_store` keeps the height that the coordinator has finished last.  The height goes into
the table as the text of an `i64` and comes back through a cast to `bigint`, so a height
from `2 ^ 63` on is stored as a negative number.  `dbctl reset-progress` writes the same
key.
-/

namespace AlkanesIndexer

/-- The value of each key; `key` is the primary key of `kv_store`. -/
abbrev KvStore := String → Option String

def lastProcessedKey : String := "last_processed_height"

/-- `as i64`. -/
def asI64 (value : ℤ) : ℤ := value.bmod (2 ^ 64)

/-- `as u64`. -/
def asU64 (value : ℤ) : ℕ := (value % 2 ^ 64).toNat

/-! ## Numbers as texts -/

/-- The text that a `bigint` is stored as in a text column. -/
def bigintText (value : ℤ) : String :=
  if value < 0 then String.ofList ('-' :: Nat.toDigits 10 value.natAbs)
  else String.ofList (Nat.toDigits 10 value.natAbs)

/-- The white space that a cast from text passes over. -/
def isCastSpace (c : Char) : Bool := c ∈ [' ', '\t', '\n', '\r', '\x0b', '\x0c']

def trimSpace (text : List Char) : List Char :=
  ((text.dropWhile isCastSpace).reverse.dropWhile isCastSpace).reverse

def unsignedOfDigits (digits : List Char) : Option ℕ :=
  if digits = [] then none else digitsValue 10 0 digits

/-- `value::bigint`, `none` where the cast is an error. -/
def bigintOfText (text : String) : Option ℤ :=
  let value := match trimSpace text.toList with
    | '-' :: digits => (unsignedOfDigits digits).map fun n : ℕ => -(n : ℤ)
    | '+' :: digits => (unsignedOfDigits digits).map fun n : ℕ => (n : ℤ)
    | digits => (unsignedOfDigits digits).map fun n : ℕ => (n : ℤ)
  value.filter fun n => -2 ^ 63 ≤ n ∧ n < 2 ^ 63

/-! ## Reading and writing the progress -/

def getLastProcessedHeight (kv : KvStore) : Except String (Option ℕ) :=
  match kv lastProcessedKey with
  | none => .ok none
  | some value =>
      match bigintOfText value with
      | none => .error "invalid input syntax for type bigint"
      | some height => .ok (some (asU64 height))

def setLastProcessedHeight (height : ℕ) (kv : KvStore) : KvStore :=
  Function.update kv lastProcessedKey (some (bigintText (asI64 height)))

/-- `dbctl reset-progress --height`: the next run starts at the height, or, for the
height zero, wherever a run without progress starts. -/
def resetProgress (height : ℕ) (kv : KvStore) : KvStore :=
  if height = 0 then Function.update kv lastProcessedKey none
  else setLastProcessedHeight (height - 1) kv

/-! ## What is written is read back -/

theorem toDigits_ne_nil
    (n : ℕ) :
    Nat.toDigits 10 n ≠ [] := by
  rw [Nat.toDigits_eq_if (by decide)]
  split <;> simp

theorem unsignedOfDigits_toDigits
    (n : ℕ) :
    unsignedOfDigits (Nat.toDigits 10 n) = some n := by
  unfold unsignedOfDigits
  rw [if_neg (toDigits_ne_nil n), digitsValue_toDigits (by decide) (by decide)]

theorem not_space_of_toDigit
    {c : Char}
    (hdigit : ∃ digit, toDigit 10 c = some digit) :
    isCastSpace c = false := by
  have hnone : ∀ c ∈ [' ', '\t', '\n', '\r', '\x0b', '\x0c'], toDigit 10 c = none := by
    intro c hmem
    simp only [List.mem_cons, List.not_mem_nil, or_false] at hmem
    rcases hmem with rfl | rfl | rfl | rfl | rfl | rfl <;> decide
  obtain ⟨digit, hdigit⟩ := hdigit
  by_contra hspace
  have hmem := of_decide_eq_true (Bool.of_not_eq_false hspace)
  rw [hnone c hmem] at hdigit
  cases hdigit

theorem trimSpace_of_not_space
    {text : List Char}
    (htext : ∀ c ∈ text, isCastSpace c = false) :
    trimSpace text = text := by
  have hkeep : ∀ chars : List Char, (∀ c ∈ chars, isCastSpace c = false) →
      chars.dropWhile isCastSpace = chars := by
    intro chars hchars
    cases chars with
    | nil => rfl
    | cons c rest => simp [hchars c List.mem_cons_self]
  unfold trimSpace
  rw [hkeep text htext, hkeep text.reverse (fun c hc => htext c (List.mem_reverse.mp hc)),
    List.reverse_reverse]

theorem toDigits_not_space
    (n : ℕ) :
    ∀ c ∈ Nat.toDigits 10 n, isCastSpace c = false := fun c hc =>
  not_space_of_toDigit
    (exists_toDigit_of_digitsValue (digitsValue_toDigits (by decide) (by decide) n) c hc)

theorem toDigits_head
    (n : ℕ) :
    ∃ c rest, Nat.toDigits 10 n = c :: rest ∧ c ≠ '-' ∧ c ≠ '+' := by
  cases hdigits : Nat.toDigits 10 n with
  | nil => exact absurd hdigits (toDigits_ne_nil n)
  | cons c rest =>
      have hsome := exists_toDigit_of_digitsValue
        (digitsValue_toDigits (by decide) (by decide) n) c (hdigits ▸ List.mem_cons_self)
      obtain ⟨digit, hdigit⟩ := hsome
      have hsigns : toDigit 10 '-' = none ∧ toDigit 10 '+' = none := by decide
      refine ⟨c, rest, rfl, ?_, ?_⟩
      · rintro rfl
        rw [hsigns.1] at hdigit
        cases hdigit
      · rintro rfl
        rw [hsigns.2] at hdigit
        cases hdigit

theorem bigintOfText_bigintText
    {value : ℤ}
    (hlow : -2 ^ 63 ≤ value)
    (hhigh : value < 2 ^ 63) :
    bigintOfText (bigintText value) = some value := by
  unfold bigintOfText bigintText
  by_cases hnegative : value < 0
  · have htrim : trimSpace ('-' :: Nat.toDigits 10 value.natAbs) =
        '-' :: Nat.toDigits 10 value.natAbs :=
      trimSpace_of_not_space
        (List.forall_mem_cons.mpr ⟨by decide, toDigits_not_space value.natAbs⟩)
    have habs : -(value.natAbs : ℤ) = value := by omega
    simp only [if_pos hnegative, String.toList_ofList, htrim, unsignedOfDigits_toDigits,
      Option.map_some, habs, Option.filter_some, hlow, hhigh, and_self, decide_true, if_true]
  · obtain ⟨c, rest, hdigits, hminus, hplus⟩ := toDigits_head value.natAbs
    have htrim := trimSpace_of_not_space (toDigits_not_space value.natAbs)
    have habs : (value.natAbs : ℤ) = value := by omega
    have hvalue := unsignedOfDigits_toDigits value.natAbs
    rw [hdigits] at htrim hvalue
    rw [if_neg hnegative, String.toList_ofList, hdigits, htrim]
    split
    next digits heq => exact absurd (List.cons.inj heq).1 hminus
    next digits heq => exact absurd (List.cons.inj heq).1 hplus
    next =>
      rw [hvalue, Option.map_some, habs, Option.filter_some, decide_eq_true ⟨hlow, hhigh⟩,
        if_pos rfl]

theorem asU64_asI64
    {height : ℕ}
    (hlt : height < 2 ^ 64) :
    asU64 (asI64 height) = height := by
  have hpower : (2 : ℤ) ^ 64 = ((2 ^ 64 : ℕ) : ℤ) := by norm_num
  have hheight : (height : ℤ) < 2 ^ 64 := by
    rw [hpower]
    exact_mod_cast hlt
  unfold asU64 asI64
  rw [hpower, Int.bmod_emod, ← hpower, Int.emod_eq_of_lt (by omega) hheight, Int.toNat_natCast]

theorem asI64_range
    (value : ℤ) :
    -2 ^ 63 ≤ asI64 value ∧ asI64 value < 2 ^ 63 := by
  have hlow : -((2 ^ 64 : ℕ) / 2) ≤ Int.bmod value (2 ^ 64) := Int.le_bmod (by decide)
  have hhigh : Int.bmod value (2 ^ 64) < ((2 ^ 64 : ℕ) + 1) / 2 := Int.bmod_lt (by decide)
  unfold asI64
  norm_num at hlow hhigh ⊢
  exact ⟨hlow, hhigh⟩

theorem getLastProcessedHeight_of_value
    {kv : KvStore}
    {value : String}
    {height : ℤ}
    (hvalue : kv lastProcessedKey = some value)
    (htext : bigintOfText value = some height) :
    getLastProcessedHeight kv = .ok (some (asU64 height)) := by
  unfold getLastProcessedHeight
  rw [hvalue]
  dsimp only
  rw [htext]

theorem getLastProcessedHeight_set
    {height : ℕ}
    (hlt : height < 2 ^ 64)
    (kv : KvStore) :
    getLastProcessedHeight (setLastProcessedHeight height kv) = .ok (some height) := by
  have htext : bigintOfText (bigintText (asI64 height)) = some (asI64 height) :=
    bigintOfText_bigintText (asI64_range height).1 (asI64_range height).2
  have hvalue : setLastProcessedHeight height kv lastProcessedKey =
      some (bigintText (asI64 height)) :=
    Function.update_self _ _ _
  rw [getLastProcessedHeight_of_value hvalue htext, asU64_asI64 hlt]

theorem getLastProcessedHeight_reset
    {height : ℕ}
    (hlt : height < 2 ^ 64)
    (kv : KvStore) :
    getLastProcessedHeight (resetProgress height kv) =
      .ok (if height = 0 then none else some (height - 1)) := by
  unfold resetProgress
  split
  · unfold getLastProcessedHeight
    rw [Function.update_self]
  · exact getLastProcessedHeight_set (by omega) kv

end AlkanesIndexer
