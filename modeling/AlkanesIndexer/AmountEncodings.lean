import AlkanesIndexer.IdEncodings

/-!
# Encodings of amounts

An amount may be given by the two halves of its 128 bits, by its hexadecimal digits
behind the mark, by its decimal digits, or as a number.  The decoder finds out which
of them it has, and gets the amount back.
-/

namespace AlkanesIndexer

/-- The JSON number `n`. -/
def JsonValue.ofU64 (n : ℕ) : JsonValue := .number (.posInt (UInt64.ofNat n))

/-- The digits of `n`, behind any number of zeros. -/
def paddedDigits (base zeros n : ℕ) : List Char :=
  List.replicate zeros '0' ++ Nat.toDigits base n

/-- The encodings of a number.  The digits of the base sixteen are in either case; the
object may hold other fields. -/
inductive EncodesAmount : JsonValue → ℕ → Prop where
  | halves
      {fields : List (String × JsonValue)}
      {n : ℕ}
      (hlt : n < 2 ^ 128)
      (hhi : (JsonValue.object fields).get "hi" = some (.ofU64 (n / 2 ^ 64)))
      (hlo : (JsonValue.object fields).get "lo" = some (.ofU64 (n % 2 ^ 64))) :
      EncodesAmount (.object fields) n
  | hexadecimal
      {text : String}
      {digits : List Char}
      {zeros n : ℕ}
      (htext : text.toList = '0' :: 'x' :: digits)
      (hdigits : digits.map Char.toLower = paddedDigits 16 zeros n) :
      EncodesAmount (.string text) n
  | decimal
      {text : String}
      {zeros n : ℕ}
      (hdigits : text.toList = paddedDigits 10 zeros n) :
      EncodesAmount (.string text) n
  | number
      {n : ℕ}
      (hlt : n < 2 ^ 64) :
      EncodesAmount (.ofU64 n) n

/-! ## Digits -/

theorem toDigit_digitChar
    {radix digit : ℕ}
    (hdigit : digit < radix)
    (hradix : radix ≤ 16) :
    toDigit radix (Nat.digitChar digit) = some digit := by
  have hsixteen : ∀ digit < 16, toDigit 16 (Nat.digitChar digit) = some digit := by decide
  have hsome := hsixteen digit (by omega)
  unfold toDigit at hsome ⊢
  rw [Option.filter_eq_some_iff] at hsome ⊢
  exact ⟨hsome.1, by simpa using hdigit⟩

theorem toDigit_toLower
    (c : Char) :
    toDigit 16 c.toLower = toDigit 16 c := by
  by_cases hupper : c.isUpper = true
  · have hletters : ∀ k < 26,
        toDigit 16 (Char.ofNat (65 + k)).toLower = toDigit 16 (Char.ofNat (65 + k)) := by decide
    have hrange : 65 ≤ c.toNat ∧ c.toNat ≤ 90 := by
      simpa [Char.isUpper, UInt32.le_iff_toNat_le] using hupper
    have hletter := hletters (c.toNat - 65) (by omega)
    have hcode : 65 + (c.toNat - 65) = c.toNat := by omega
    rwa [hcode, Char.ofNat_toNat] at hletter
  · rw [Char.toLower_eq_of_not_isUpper hupper]

theorem digitsValue_append
    {radix acc : ℕ}
    (first second : List Char) :
    digitsValue radix acc (first ++ second) =
      (digitsValue radix acc first).bind fun value => digitsValue radix value second := by
  induction first generalizing acc with
  | nil => rfl
  | cons c rest ih =>
      simp only [List.cons_append, digitsValue, Option.bind_assoc]
      congr 1
      funext digit
      exact ih

theorem digitsValue_toLower
    {acc : ℕ}
    (text : List Char) :
    digitsValue 16 acc (text.map Char.toLower) = digitsValue 16 acc text := by
  induction text generalizing acc with
  | nil => rfl
  | cons c rest ih => simp only [List.map_cons, digitsValue, toDigit_toLower, ih]

theorem digitsValue_replicate_zero
    (radix zeros : ℕ)
    (hradix : 0 < radix) :
    digitsValue radix 0 (List.replicate zeros '0') = some 0 := by
  have hzero : toDigit radix '0' = some 0 := by
    have hfilter : toDigit radix '0' = (some 0).filter (· < radix) := rfl
    rw [hfilter, Option.filter_some, if_pos (by simpa using hradix)]
  induction zeros with
  | zero => rfl
  | succ zeros ih =>
      rw [List.replicate_succ, digitsValue, hzero, Option.bind_some, Nat.zero_mul, ih]

theorem digitsValue_toDigits
    {radix : ℕ}
    (hone : 1 < radix)
    (hradix : radix ≤ 16)
    (n : ℕ) :
    digitsValue radix 0 (Nat.toDigits radix n) = some n := by
  induction n using Nat.strong_induction_on with
  | _ n ih =>
      rw [Nat.toDigits_eq_if hone]
      split
      next hlt =>
        rw [digitsValue, toDigit_digitChar hlt hradix]
        simp [digitsValue]
      next hge =>
        have hmod : n % radix < radix := Nat.mod_lt n (by omega)
        have hdiv : n / radix < n := Nat.div_lt_self (by omega) hone
        rw [digitsValue_append, ih _ hdiv, Option.bind_some, digitsValue,
          toDigit_digitChar hmod hradix, Option.bind_some, digitsValue, Nat.div_add_mod']

theorem digitsValue_paddedDigits
    {radix : ℕ}
    (hone : 1 < radix)
    (hradix : radix ≤ 16)
    (zeros n : ℕ) :
    digitsValue radix 0 (paddedDigits radix zeros n) = some n := by
  unfold paddedDigits
  rw [digitsValue_append, digitsValue_replicate_zero radix zeros (by omega), Option.bind_some,
    digitsValue_toDigits hone hradix]

theorem exists_toDigit_of_digitsValue
    {radix acc n : ℕ}
    {text : List Char}
    (hvalue : digitsValue radix acc text = some n) :
    ∀ c ∈ text, ∃ digit, toDigit radix c = some digit := by
  induction text generalizing acc with
  | nil => simp
  | cons c rest ih =>
      obtain ⟨digit, hdigit, hrest⟩ := Option.bind_eq_some_iff.mp hvalue
      intro other hother
      cases List.mem_cons.mp hother with
      | inl hsame => exact ⟨digit, hsame ▸ hdigit⟩
      | inr hmem => exact ih hrest other hmem

/-! ## Texts -/

theorem u128FromStrRadix_of_digitsValue
    {radix n : ℕ}
    {text : List Char}
    (hne : text ≠ [])
    (hvalue : digitsValue radix 0 text = some n) :
    u128FromStrRadix radix text = if n < 2 ^ 128 then some n else none := by
  have hmax : n ≤ u128Max ↔ n < 2 ^ 128 := by
    unfold u128Max
    omega
  cases text with
  | nil => exact absurd rfl hne
  | cons c rest =>
      by_cases hsign : c = '+'
      · -- the sign is not a digit
        subst hsign
        cases hvalue
      · have hunsigned : u128FromStrRadix radix (c :: rest) =
            (digitsValue radix 0 (c :: rest)).filter (· ≤ u128Max) := by
          simp only [u128FromStrRadix]
          split
          next heq => exact absurd (List.cons.inj heq).1 hsign
          next => rfl
        rw [hunsigned, hvalue, Option.filter_some]
        simp only [decide_eq_true_eq, hmax]

theorem paddedDigits_ne_nil
    (base zeros n : ℕ) :
    paddedDigits base zeros n ≠ [] :=
  List.append_ne_nil_of_right_ne_nil _ Nat.toDigits_ne_nil

theorem decimalDigit
    {c : Char}
    {digit : ℕ}
    (hdigit : toDigit 10 c = some digit) :
    isHexLetter c = false ∧ c ≠ 'x' := by
  have hcode : c.toNat = c.val.toNat := rfl
  have hrange : c.val.toNat ≤ 57 := by
    unfold toDigit at hdigit
    simp only [Option.filter_eq_some_iff, decide_eq_true_eq, Char.le_def,
      UInt32.le_iff_toNat_le, Char.reduceVal, UInt32.reduceToNat] at hdigit
    obtain ⟨hsome, hten⟩ := hdigit
    split_ifs at hsome with hdecimal hlower hupper
    · exact hdecimal.2
    · have hletter := Option.some.inj hsome
      omega
    · have hletter := Option.some.inj hsome
      omega
  constructor
  · simp only [isHexLetter, Char.le_def, UInt32.le_iff_toNat_le, Char.reduceVal,
      UInt32.reduceToNat, decide_eq_false_iff_not]
    omega
  · rintro rfl
    simp at hrange

theorem not_hexMarked_of_decimal
    {text : String}
    {n : ℕ}
    (hvalue : digitsValue 10 0 text.toList = some n) :
    hexMarked text = false := by
  have hdigits : ∀ c ∈ text.toList, isHexLetter c = false ∧ c ≠ 'x' := by
    intro c hc
    obtain ⟨digit, hdigit⟩ := exists_toDigit_of_digitsValue hvalue c hc
    exact decimalDigit hdigit
  have hletters : text.toList.any isHexLetter = false := by
    rw [List.any_eq_false]
    intro c hc
    rw [(hdigits c hc).1]
    exact Bool.false_ne_true
  have hmark : startsWithHexMark text.toList = false := by
    unfold startsWithHexMark
    split
    next heq =>
      rw [heq] at hdigits
      exact absurd rfl (hdigits 'x' (by simp)).2
    next => rfl
  unfold hexMarked
  rw [hmark, hletters]
  rfl

theorem ofU64_asU64
    {n : ℕ}
    (hlt : n < 2 ^ 64) :
    (JsonValue.ofU64 n).asU64 = some n := by
  exact congrArg some (UInt64.toNat_ofNat_of_lt' hlt)

/-! ## The decoder -/

/-- Every encoding of a `u128` is decoded to it, and every text of a greater number to
none. -/
theorem valueU128FromJson_of_encodes
    {value : JsonValue}
    {n : ℕ}
    (hencodes : EncodesAmount value n) :
    valueU128FromJson value = if n < 2 ^ 128 then some n else none := by
  cases hencodes with
  | @halves fields n hlt hhi hlo =>
      have hhigh : n / 2 ^ 64 < 2 ^ 64 := by omega
      have hlow : n % 2 ^ 64 < 2 ^ 64 := Nat.mod_lt _ (by decide)
      have hjoin : (n / 2 ^ 64) <<< 64 ||| n % 2 ^ 64 = n := by
        rw [← Nat.shiftLeft_add_eq_or_of_lt hlow, Nat.shiftLeft_eq]
        exact Nat.div_add_mod' n (2 ^ 64)
      unfold valueU128FromJson u128FromJson
      rw [hhi, hlo, Option.isSome_some, Option.isSome_some, Bool.and_self, if_pos rfl, if_pos hlt]
      dsimp only
      rw [ofU64_asU64 hhigh, ofU64_asU64 hlow, Option.bind_some, Option.map_some, hjoin]
  | @hexadecimal text digits zeros n htext hdigits =>
      have hmarked : hexMarked text = true := by
        unfold hexMarked
        rw [htext]
        rfl
      have hvalue : digitsValue 16 0 digits = some n := by
        rw [← digitsValue_toLower, hdigits, digitsValue_paddedDigits (by omega) le_rfl]
      have hne : digits ≠ [] := by
        rintro rfl
        exact paddedDigits_ne_nil 16 zeros n hdigits.symm
      rw [valueU128FromJson_string, if_pos hmarked]
      unfold hexToU128
      rw [htext]
      exact u128FromStrRadix_of_digitsValue hne hvalue
  | @decimal text zeros n hdigits =>
      have hvalue : digitsValue 10 0 text.toList = some n := by
        rw [hdigits, digitsValue_paddedDigits (by omega) (by omega)]
      have hne : text.toList ≠ [] := hdigits ▸ paddedDigits_ne_nil 10 zeros n
      rw [valueU128FromJson_string, not_hexMarked_of_decimal hvalue, if_neg Bool.false_ne_true]
      exact u128FromStrRadix_of_digitsValue hne hvalue
  | @number n hlt =>
      have hread : valueU128FromJson (.ofU64 n) = (JsonValue.ofU64 n).asU64 := rfl
      rw [hread, ofU64_asU64 hlt, if_pos (by omega)]

theorem amounts_decoded :
    (∀ value n, EncodesAmount value n →
      valueU128FromJson value = if n < 2 ^ 128 then some n else none) ∧
      ∀ value value' n n', EncodesAmount value n → EncodesAmount value' n' →
        n < 2 ^ 128 ∨ n' < 2 ^ 128 →
          (valueU128FromJson value = valueU128FromJson value' ↔ n = n') := by
  constructor
  · intro value n hencodes
    exact valueU128FromJson_of_encodes hencodes
  · intro value value' n n' hencodes hencodes' hfits
    rw [valueU128FromJson_of_encodes hencodes, valueU128FromJson_of_encodes hencodes']
    constructor
    · intro hsame
      by_cases hlt : n < 2 ^ 128
      · rw [if_pos hlt, eq_comm, Option.ite_none_right_eq_some] at hsame
        exact (Option.some.inj hsame.2).symm
      · have hlt' : n' < 2 ^ 128 := hfits.resolve_left hlt
        rw [if_neg hlt, if_pos hlt'] at hsame
        cases hsame
    · rintro rfl
      rfl

example : EncodesAmount (.string "0x00fF") 255 := by
  have htext : "0x00fF".toList = ['0', 'x', '0', '0', 'f', 'F'] := rfl
  have hdigits : ['0', '0', 'f', 'F'].map Char.toLower = paddedDigits 16 2 255 := by decide
  exact .hexadecimal htext hdigits

end AlkanesIndexer
