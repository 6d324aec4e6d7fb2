import AlkanesIndexer.AmountEncodings
import Mathlib.Data.Nat.Digits.Lemmas

/-!
# Bytes as text and as numbers

The text of some bytes in base sixteen, and the numbers that are their digits in base 256,
the last or the first byte leading.
-/

namespace AlkanesIndexer

namespace HexBytes

/-! ## Base sixteen -/

/-- `hex::encode`. -/
def encode (bytes : List UInt8) : List Char :=
  bytes.flatMap fun byte => [Nat.digitChar (byte.toNat / 16), Nat.digitChar (byte.toNat % 16)]

/-- `hex::decode(…).ok()`. -/
def decode : List Char → Option (List UInt8)
  | [] => some []
  | [_] => none
  | high :: low :: rest =>
      (toDigit 16 high).bind fun high => (toDigit 16 low).bind fun low =>
        (decode rest).map fun bytes => UInt8.ofNat (16 * high + low) :: bytes

theorem encode_cons
    (byte : UInt8)
    (bytes : List UInt8) :
    encode (byte :: bytes) =
      Nat.digitChar (byte.toNat / 16) :: Nat.digitChar (byte.toNat % 16) :: encode bytes :=
  rfl

theorem encode_append
    (first second : List UInt8) :
    encode (first ++ second) = encode first ++ encode second :=
  List.flatMap_append

theorem encode_length
    (bytes : List UInt8) :
    (encode bytes).length = 2 * bytes.length := by
  induction bytes with
  | nil => rfl
  | cons byte rest ih =>
      rw [encode_cons, List.length_cons, List.length_cons, ih, List.length_cons]
      omega

theorem digits_of_byte
    (byte : UInt8) :
    toDigit 16 (Nat.digitChar (byte.toNat / 16)) = some (byte.toNat / 16) ∧
      toDigit 16 (Nat.digitChar (byte.toNat % 16)) = some (byte.toNat % 16) := by
  have hbyte := byte.toNat_lt
  exact ⟨toDigit_digitChar (by omega) le_rfl, toDigit_digitChar (by omega) le_rfl⟩

theorem decode_encode
    (bytes : List UInt8) :
    decode (encode bytes) = some bytes := by
  induction bytes with
  | nil => rfl
  | cons byte rest ih =>
      obtain ⟨hhigh, hlow⟩ := digits_of_byte byte
      rw [encode_cons, decode, hhigh, hlow, ih]
      simp only [Option.bind_some, Option.map_some, Nat.div_add_mod, UInt8.ofNat_toNat]

/-! ## Base 256 -/

/-- The number whose digits are the bytes, the last one leading. -/
def leValue (bytes : List UInt8) : ℕ := Nat.ofDigits 256 (bytes.map UInt8.toNat)

/-- The first byte leads. -/
def beValue (bytes : List UInt8) : ℕ := leValue bytes.reverse

/-- The last digits of a number, the last one first. -/
def leBytes : ℕ → ℕ → List UInt8
  | 0, _ => []
  | size + 1, value => UInt8.ofNat value :: leBytes size (value / 256)

theorem leBytes_length
    (size value : ℕ) :
    (leBytes size value).length = size := by
  induction size generalizing value with
  | zero => rfl
  | succ size ih => rw [leBytes, List.length_cons, ih]

theorem leValue_cons
    (byte : UInt8)
    (bytes : List UInt8) :
    leValue (byte :: bytes) = byte.toNat + 256 * leValue bytes :=
  rfl

theorem leValue_leBytes
    (size value : ℕ) :
    leValue (leBytes size value) = value % 256 ^ size := by
  induction size generalizing value with
  | zero => exact (Nat.mod_one value).symm
  | succ size ih =>
      rw [leBytes, leValue_cons, ih, pow_succ', Nat.mod_mul]
      congr 1

theorem leValue_lt
    (bytes : List UInt8) :
    leValue bytes < 256 ^ bytes.length := by
  have hdigits : ∀ digit ∈ bytes.map UInt8.toNat, digit < 256 := by
    intro digit hdigit
    obtain ⟨byte, _, rfl⟩ := List.mem_map.mp hdigit
    exact byte.toNat_lt
  simpa [leValue] using Nat.ofDigits_lt_base_pow_length (by decide) hdigits

theorem leValue_append
    (low high : List UInt8) :
    leValue (low ++ high) = leValue low + 256 ^ low.length * leValue high := by
  unfold leValue
  rw [List.map_append, Nat.ofDigits_append, List.length_map]

/-- The first bytes are the last digits. -/
theorem leValue_take
    {size : ℕ}
    {bytes : List UInt8}
    (hsize : size ≤ bytes.length) :
    leValue (bytes.take size) = leValue bytes % 256 ^ size := by
  have hlow := leValue_lt (bytes.take size)
  rw [List.length_take, min_eq_left hsize] at hlow
  conv_rhs => rw [← List.take_append_drop size bytes, leValue_append, List.length_take,
    min_eq_left hsize, Nat.add_mul_mod_self_left, Nat.mod_eq_of_lt hlow]

/-- Read as text in base sixteen, bytes are the number that their first one leads. -/
theorem digitsValue_encode
    (acc : ℕ)
    (bytes : List UInt8) :
    digitsValue 16 acc (encode bytes) = some (acc * 256 ^ bytes.length + beValue bytes) := by
  induction bytes generalizing acc with
  | nil => simp [encode, digitsValue, beValue, leValue]
  | cons byte rest ih =>
      obtain ⟨hhigh, hlow⟩ := digits_of_byte byte
      have hbyte := Nat.div_add_mod byte.toNat 16
      rw [encode_cons, digitsValue, hhigh, Option.bind_some, digitsValue, hlow, Option.bind_some,
        ih, beValue, beValue, List.reverse_cons, leValue_append, List.length_reverse,
        List.length_cons, pow_succ]
      congr 1
      have hsingle : leValue [byte] = byte.toNat := rfl
      have hdigits : (acc * 16 + byte.toNat / 16) * 16 + byte.toNat % 16 =
          acc * 256 + byte.toNat := by omega
      rw [hsingle, hdigits]
      ring

theorem u128FromStrRadix_encode
    {bytes : List UInt8}
    (hne : bytes ≠ [])
    (hsize : bytes.length ≤ 16) :
    u128FromStrRadix 16 (encode bytes) = some (beValue bytes) := by
  have hvalue := digitsValue_encode 0 bytes
  rw [Nat.zero_mul, Nat.zero_add] at hvalue
  have hlt : beValue bytes < 2 ^ 128 :=
    calc beValue bytes < 256 ^ bytes.reverse.length := leValue_lt bytes.reverse
      _ ≤ 256 ^ 16 := Nat.pow_le_pow_right (by decide) (by rwa [List.length_reverse])
      _ = 2 ^ 128 := by norm_num
  have hnonempty : encode bytes ≠ [] := by
    intro hnil
    have hlength := encode_length bytes
    rw [hnil, List.length_nil] at hlength
    exact hne (List.eq_nil_of_length_eq_zero (by omega))
  rw [u128FromStrRadix_of_digitsValue hnonempty hvalue, if_pos hlt]

end HexBytes

end AlkanesIndexer
