import AlkanesIndexer.JsonValue

/-!
# Numbers, token ids and amounts

Every decoder normalises token ids and amounts through the same helpers.  The
source keeps a textual copy of them in `poolswap.rs`, `poolmint.rs`,
`poolburn.rs`, `poolcreate.rs`, `subfrost.rs` and `inspect.rs`; they are stated
once here.  A `u128` is a natural number, and the bound `2 ^ 128` appears
wherever the source can meet it.
-/

namespace AlkanesIndexer

/-- `u128::MAX`. -/
def u128Max : ℕ := 2 ^ 128 - 1

def saturatingAdd (left right : ℕ) : ℕ := min (left + right) u128Max

theorem foldl_saturatingAdd
    {start : ℕ}
    (hstart : start ≤ u128Max)
    (values : List ℕ) :
    values.foldl saturatingAdd start = min (start + values.sum) u128Max := by
  induction values generalizing start with
  | nil => simpa using hstart
  | cons value rest ih =>
      have hnext : saturatingAdd start value ≤ u128Max := min_le_right _ _
      rw [List.foldl_cons, ih hnext, List.sum_cons]
      unfold saturatingAdd
      omega

/-- `as i32`. -/
def asI32 (value : ℤ) : ℤ := value.bmod (2 ^ 32)

/-- `char::to_digit` for the radices ten and sixteen. -/
def toDigit (radix : ℕ) (c : Char) : Option ℕ :=
  let digit :=
    if '0' ≤ c ∧ c ≤ '9' then some (c.toNat - 48)
    else if 'a' ≤ c ∧ c ≤ 'f' then some (c.toNat - 87)
    else if 'A' ≤ c ∧ c ≤ 'F' then some (c.toNat - 55)
    else none
  digit.filter (· < radix)

/-- The value of a digit string read from the left, `none` at the first
character which is no digit. -/
def digitsValue (radix : ℕ) (acc : ℕ) : List Char → Option ℕ
  | [] => some acc
  | c :: rest =>
      (toDigit radix c).bind fun digit => digitsValue radix (acc * radix + digit) rest

/-- `u128::from_str_radix(…).ok()`: one leading plus sign is allowed, an empty
digit string and a value of `2 ^ 128` or more are errors. -/
def u128FromStrRadix (radix : ℕ) (text : List Char) : Option ℕ :=
  let digits := match text with
    | '+' :: rest => rest
    | other => other
  if digits = [] then none
  else (digitsValue radix 0 digits).filter (· ≤ u128Max)

/-- `strip_prefix("0x").unwrap_or(…)`. -/
def stripHexMark : List Char → List Char
  | '0' :: 'x' :: rest => rest
  | text => text

def hexToU128 (text : String) : Option ℕ :=
  u128FromStrRadix 16 (stripHexMark text.toList)

/-- `hex_to_dec_u128_str`, with its error as `none`: both callers drop the
message. -/
def hexToDecU128Str (text : String) : Option String :=
  (hexToU128 text).map toString

/-- `u128_from_json`: the `{hi, lo}` object, its halves joined by shift and or. -/
def u128FromJson (value : JsonValue) : Option ℕ :=
  match value.get "hi", value.get "lo" with
  | some hi, some lo =>
      hi.asU64.bind fun high => lo.asU64.map fun low => (high <<< 64) ||| low
  | _, _ => none

def isHexLetter (c : Char) : Bool :=
  ('a' ≤ c ∧ c ≤ 'f') ∨ ('A' ≤ c ∧ c ≤ 'F')

def startsWithHexMark : List Char → Bool
  | '0' :: 'x' :: _ => true
  | _ => false

/-- `value_u128_from_json`: the radix of a string is sixteen as soon as it has
the `0x` mark or any letter from `a` to `f`. -/
def valueU128FromJson (value : JsonValue) : Option ℕ :=
  if (value.get "hi").isSome && (value.get "lo").isSome then u128FromJson value
  else
    match value.asStr with
    | some text =>
        if startsWithHexMark text.toList || text.toList.any isHexLetter then
          hexToU128 text
        else u128FromStrRadix 10 text.toList
    | none => value.asU64

/-- One component of an entry's `id`, as the decimal numeral it is compared by:
a missing or undecodable component counts as zero. -/
def idComponent (id : JsonValue) (key : String) : String :=
  toString (((id.get key).bind valueU128FromJson).getD 0)

def namesToken (entry : JsonValue) (targetBlock targetTx : String) : Bool :=
  match entry.get "id" with
  | some id =>
      idComponent id "block" = targetBlock && idComponent id "tx" = targetTx
  | none => false

def entryValue (entry : JsonValue) : Option ℕ :=
  (entry.get "value").bind valueU128FromJson

def calculateTokenTotal
    (alkanes : List JsonValue) (targetBlock targetTx : String) : ℕ :=
  alkanes.foldl (fun total entry =>
    if namesToken entry targetBlock targetTx then
      match entryValue entry with
      | some value => saturatingAdd total value
      | none => total
    else total) 0

/-- A pair of flattened id components: `(blockId, txId)`. -/
abbrev AlkaneId := String × String

instance : LawfulBEq AlkaneId := inferInstance

/-- `u128 as f64`, read back as the integer it denotes: the nearest multiple of
the unit in the last place of 53 significant bits, ties to even. -/
def u128AsF64 (value : ℕ) : ℕ :=
  if value < 2 ^ 53 then value
  else
    let unit := 2 ^ (Nat.log2 value - 52)
    let quotient := value / unit
    let remainder := value % unit
    let rounded :=
      if unit < 2 * remainder ∨ (2 * remainder = unit ∧ quotient % 2 = 1)
      then quotient + 1 else quotient
    rounded * unit

example : hexToU128 "0x1F" = some 31 := by decide
example : valueU128FromJson (.string "31") = some 31 := by decide

end AlkanesIndexer
