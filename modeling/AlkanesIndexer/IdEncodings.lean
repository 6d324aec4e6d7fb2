import AlkanesIndexer.Protostone
import AlkanesIndexer.Subfrost

/-!
# Encodings of id components

Amounts and token ids are read by a rule that looks at the text before it chooses
a base.  The flattened address of an invoke and the test for the Subfrost token
read every text in base sixteen, and nothing but texts.  This file says for which
encodings the readers agree.
-/

namespace AlkanesIndexer

/-! ## Decimal digits in base sixteen -/

/-- The number which the decimal digits of `n` denote in base sixteen. -/
def asHex (n : ℕ) : ℕ := Nat.ofDigits 16 (Nat.digits 10 n)

theorem asHex_append
    (n : ℕ)
    {digit : ℕ}
    (hdigit : digit < 10) :
    asHex (n * 10 + digit) = asHex n * 16 + digit := by
  by_cases hzero : n = 0 ∧ digit = 0
  · obtain ⟨rfl, rfl⟩ := hzero
    rfl
  · unfold asHex
    have hcomm : n * 10 + digit = digit + 10 * n := by omega
    rw [hcomm, Nat.digits_add 10 (by omega) digit n hdigit (by omega), Nat.ofDigits_cons]
    omega

theorem asHex_injective :
    Function.Injective asHex := by
  have hdigits : ∀ n, Nat.digits 16 (asHex n) = Nat.digits 10 n := by
    intro n
    apply Nat.digits_ofDigits 16 (by omega)
    · intro digit hdigit
      have hlt := Nat.digits_lt_base (by omega : 1 < 10) hdigit
      omega
    · intro hne
      apply Nat.getLast_digit_ne_zero
      rintro rfl
      simp at hne
  intro m n heq
  apply Nat.digits.injective 10
  rw [← hdigits, ← hdigits, heq]

theorem asHex_of_lt
    {n : ℕ}
    (hlt : n < 10) :
    asHex n = n := by
  have happend := asHex_append 0 hlt
  simpa [asHex] using happend

theorem le_asHex
    (n : ℕ) :
    n ≤ asHex n := by
  induction n using Nat.strong_induction_on with
  | _ n ih =>
      by_cases hlt : n < 10
      · exact (asHex_of_lt hlt).ge
      · have happend := asHex_append (n / 10) (Nat.mod_lt n (by omega : 10 > 0))
        have hdiv := ih (n / 10) (by omega)
        have hsplit := Nat.div_add_mod' n 10
        rw [hsplit] at happend
        omega

theorem asHex_eq_self_iff
    {n : ℕ} :
    asHex n = n ↔ n < 10 := by
  constructor
  · intro heq
    by_contra hge
    have happend := asHex_append (n / 10) (Nat.mod_lt n (by omega : 10 > 0))
    have hdiv := le_asHex (n / 10)
    have hsplit := Nat.div_add_mod' n 10
    rw [hsplit] at happend
    omega
  · exact asHex_of_lt

theorem toDigit_sixteen
    {c : Char}
    {digit : ℕ}
    (hdigit : toDigit 10 c = some digit) :
    toDigit 16 c = some digit ∧ digit < 10 := by
  simp only [toDigit, Option.filter_eq_some_iff, decide_eq_true_eq] at hdigit ⊢
  obtain ⟨hsome, hlt⟩ := hdigit
  exact ⟨⟨hsome, by omega⟩, hlt⟩

theorem digitsValue_sixteen
    {text : List Char}
    {start n : ℕ}
    (hdecimal : digitsValue 10 start text = some n) :
    digitsValue 16 (asHex start) text = some (asHex n) := by
  induction text generalizing start with
  | nil =>
      cases hdecimal
      rfl
  | cons c rest ih =>
      simp only [digitsValue, Option.bind_eq_some_iff] at hdecimal ⊢
      obtain ⟨digit, hdigit, hrest⟩ := hdecimal
      obtain ⟨hhex, hlt⟩ := toDigit_sixteen hdigit
      refine ⟨digit, hhex, ?_⟩
      rw [← asHex_append start hlt]
      exact ih hrest

/-! ## Texts -/

/-- The text has the mark or a letter by which `value_u128_from_json` chooses base
sixteen. -/
def hexMarked (text : String) : Bool :=
  startsWithHexMark text.toList || text.toList.any isHexLetter

theorem stripHexMark_of_not_marked
    {text : String}
    (hmark : hexMarked text = false) :
    stripHexMark text.toList = text.toList := by
  unfold hexMarked at hmark
  rw [Bool.or_eq_false_iff] at hmark
  unfold stripHexMark
  split
  · next heq => simp [heq, startsWithHexMark] at hmark
  · rfl

/-- A decimal text is read in base sixteen wherever the value is still a
`u128`. -/
theorem hexToU128_of_decimal
    {text : String}
    {n : ℕ}
    (hmark : hexMarked text = false)
    (hdecimal : u128FromStrRadix 10 text.toList = some n) :
    hexToU128 text = if asHex n ≤ u128Max then some (asHex n) else none := by
  -- the sign is dropped in both bases
  obtain ⟨digits, hradix⟩ : ∃ digits, ∀ radix, u128FromStrRadix radix text.toList =
      if digits = [] then none
      else (digitsValue radix 0 digits).filter fun value => value ≤ u128Max :=
    ⟨_, fun _ => rfl⟩
  rw [hradix, Option.ite_none_left_eq_some, Option.filter_eq_some_iff] at hdecimal
  obtain ⟨hdigits, hvalue, _⟩ := hdecimal
  have hhex : digitsValue 16 0 digits = some (asHex n) := digitsValue_sixteen hvalue
  unfold hexToU128
  rw [stripHexMark_of_not_marked hmark, hradix, if_neg hdigits, hhex, Option.filter_some]
  simp only [decide_eq_true_eq]

theorem valueU128FromJson_string
    (text : String) :
    valueU128FromJson (.string text) =
      if hexMarked text then hexToU128 text else u128FromStrRadix 10 text.toList :=
  rfl

/-- What base sixteen makes of a text that decodes to `n`. -/
theorem hexToU128_of_value
    {text : String}
    {n : ℕ}
    (hvalue : valueU128FromJson (.string text) = some n) :
    hexToU128 text =
      if hexMarked text then some n else if asHex n ≤ u128Max then some (asHex n) else none := by
  rw [valueU128FromJson_string] at hvalue
  cases hmark : hexMarked text with
  | true => simpa [hmark] using hvalue
  | false =>
      rw [hmark] at hvalue
      simpa using hexToU128_of_decimal hmark hvalue

theorem ne_empty_of_value
    {text : String}
    {n : ℕ}
    (hvalue : valueU128FromJson (.string text) = some n) :
    text ≠ "" := by
  rintro rfl
  have hnone : valueU128FromJson (.string "") = none := by decide
  rw [hnone] at hvalue
  cases hvalue

/-! ## The flattened address -/

def decimalAddress (text : String) : String :=
  if text = "" then "" else (hexToDecU128Str text).getD text

theorem addressComponent_eq
    {data component : JsonValue}
    {key : String}
    (hcomponent : data.getPath ["context", "myself", key] = some component) :
    addressComponent data key = decimalAddress (component.asStr.getD "") := by
  unfold addressComponent JsonValue.strAt
  rw [hcomponent]
  rfl

/-- The encodings whose flattening is the numeral of their value: texts which
decode in base sixteen anyway, texts of one significant digit, and numerals which
are too long for base sixteen and stay as they are. -/
def FlattensToValue (component : JsonValue) (n : ℕ) : Prop :=
  ∃ text, component = .string text ∧
    (hexMarked text = true ∨ n < 10 ∨ u128Max < asHex n ∧ text = toString n)

theorem decimalAddress_string_eq_iff
    {text : String}
    {n : ℕ}
    (hvalue : valueU128FromJson (.string text) = some n) :
    decimalAddress text = toString n ↔
      hexMarked text = true ∨ n < 10 ∨ u128Max < asHex n ∧ text = toString n := by
  unfold decimalAddress hexToDecU128Str
  rw [if_neg (ne_empty_of_value hvalue), hexToU128_of_value hvalue]
  by_cases hmark : hexMarked text = true
  · simp [hmark]
  · by_cases hfits : asHex n ≤ u128Max
    · rw [if_neg hmark, if_pos hfits]
      have hlong : ¬ u128Max < asHex n := by omega
      simp [asHex_eq_self_iff, hmark, hlong]
    · rw [if_neg hmark, if_neg hfits]
      have hlong : u128Max < asHex n := by omega
      have hten : ¬ n < 10 := by
        intro hlt
        rw [asHex_of_lt hlt] at hlong
        unfold u128Max at hlong
        omega
      simp [hmark, hlong, hten]

theorem decimalAddress_eq_iff
    {component : JsonValue}
    {n : ℕ}
    (hvalue : valueU128FromJson component = some n) :
    decimalAddress (component.asStr.getD "") = toString n ↔ FlattensToValue component n := by
  cases component with
  | string text =>
      rw [JsonValue.asStr, Option.getD_some, decimalAddress_string_eq_iff hvalue]
      simp [FlattensToValue]
  | null => simp [FlattensToValue, JsonValue.asStr, decimalAddress]
  | bool value => simp [FlattensToValue, JsonValue.asStr, decimalAddress]
  | number value => simp [FlattensToValue, JsonValue.asStr, decimalAddress]
  | array items => simp [FlattensToValue, JsonValue.asStr, decimalAddress]
  | object fields => simp [FlattensToValue, JsonValue.asStr, decimalAddress]

/-! ## The Subfrost token -/

/-- The encodings of an id which `is_subfrost_…` gets right: `32` must have the mark
and zero must be a text, and an unmarked `20` in front of zero is taken for `32`. -/
def SubfrostReads (blockValue txValue : JsonValue) (block tx : ℕ) : Prop :=
  (block = 32 ∧ tx = 0 → (∃ text, blockValue = .string text ∧ hexMarked text = true) ∧
      ∃ text, txValue = .string text) ∧
    (block = 20 ∧ tx = 0 → ∀ blockText txText, blockValue = .string blockText →
      txValue = .string txText → hexMarked blockText = true)

theorem hexToU128_eq_iff
    {component : JsonValue}
    {n : ℕ}
    (hvalue : valueU128FromJson component = some n)
    (m : ℕ)
    (hfits : asHex m ≤ u128Max) :
    hexToU128 (component.asStr.getD "") = some (asHex m) ↔
      ∃ text, component = .string text ∧
        if hexMarked text then n = asHex m else n = m := by
  have hempty : hexToU128 "" = none := by decide
  cases component with
  | string text =>
      rw [JsonValue.asStr, Option.getD_some, hexToU128_of_value hvalue]
      by_cases hmark : hexMarked text = true
      · simp [hmark]
      · by_cases hlong : asHex n ≤ u128Max
        · simp [hmark, hlong, asHex_injective.eq_iff]
        · have hne : n ≠ m := by
            rintro rfl
            exact hlong hfits
          simp [hmark, hlong, hne]
  | null => simp [JsonValue.asStr, hempty]
  | bool value => simp [JsonValue.asStr, hempty]
  | number value => simp [JsonValue.asStr, hempty]
  | array items => simp [JsonValue.asStr, hempty]
  | object fields => simp [JsonValue.asStr, hempty]

theorem isSubfrostEntry_iff
    {entry id blockValue txValue : JsonValue}
    {block tx : ℕ}
    (hid : entry.get "id" = some id)
    (hblock : id.get "block" = some blockValue)
    (htx : id.get "tx" = some txValue)
    (hblockValue : valueU128FromJson blockValue = some block)
    (htxValue : valueU128FromJson txValue = some tx) :
    Subfrost.isSubfrostEntry entry = true ↔
      (∃ text, blockValue = .string text ∧ if hexMarked text then block = 32 else block = 20) ∧
        tx = 0 ∧ ∃ text, txValue = .string text := by
  have hthirtyTwo := hexToU128_eq_iff hblockValue 20 (by decide)
  have hzero := hexToU128_eq_iff htxValue 0 (by decide)
  have htwenty : asHex 20 = 32 := by simp [asHex, Nat.ofDigits]
  have hnone : asHex 0 = 0 := rfl
  rw [htwenty] at hthirtyTwo
  rw [hnone] at hzero
  simp only [ite_self, and_comm] at hzero
  have hblockAt : (id.strAt ["block"]).getD "" = blockValue.asStr.getD "" := by
    simp [JsonValue.strAt, JsonValue.getPath, hblock]
  have htxAt : (id.strAt ["tx"]).getD "" = txValue.asStr.getD "" := by
    simp [JsonValue.strAt, JsonValue.getPath, htx]
  unfold Subfrost.isSubfrostEntry
  simp only [hid, Bool.and_eq_true, decide_eq_true_eq, hblockAt, htxAt, hthirtyTwo, hzero,
    exists_and_left]

theorem subfrostReads_iff
    {entry id blockValue txValue : JsonValue}
    {block tx : ℕ}
    (hid : entry.get "id" = some id)
    (hblock : id.get "block" = some blockValue)
    (htx : id.get "tx" = some txValue)
    (hblockValue : valueU128FromJson blockValue = some block)
    (htxValue : valueU128FromJson txValue = some tx) :
    (Subfrost.isSubfrostEntry entry = true ↔ block = 32 ∧ tx = 0) ↔
      SubfrostReads blockValue txValue block tx := by
  rw [isSubfrostEntry_iff hid hblock htx hblockValue htxValue]
  unfold SubfrostReads
  constructor
  · intro hiff
    constructor
    · intro hboth
      obtain ⟨⟨text, htext, hmarked⟩, _, htxText⟩ := hiff.mpr hboth
      refine ⟨⟨text, htext, ?_⟩, htxText⟩
      by_contra hmark
      rw [if_neg hmark, hboth.1] at hmarked
      cases hmarked
    · rintro ⟨rfl, rfl⟩ blockText txText rfl rfl
      by_contra hmark
      have hboth := hiff.mp ⟨⟨blockText, rfl, by rw [if_neg hmark]⟩, rfl, txText, rfl⟩
      cases hboth.1
  · rintro ⟨hright, hleft⟩
    constructor
    · rintro ⟨⟨text, rfl, hmarked⟩, rfl, txText, rfl⟩
      by_cases hmark : hexMarked text = true
      · rw [if_pos hmark] at hmarked
        exact ⟨hmarked, rfl⟩
      · rw [if_neg hmark] at hmarked
        exact absurd (hleft ⟨hmarked, rfl⟩ text txText rfl rfl) hmark
    · intro hboth
      obtain ⟨⟨text, htext, hmark⟩, htxText⟩ := hright hboth
      refine ⟨⟨text, htext, ?_⟩, hboth.2, htxText⟩
      rw [if_pos hmark]
      exact hboth.1

end AlkanesIndexer
