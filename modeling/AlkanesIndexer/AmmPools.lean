import AlkanesIndexer.HexBytes
import AlkanesIndexer.SnapshotRuns

/-!
# What the contracts answer

The factory and the pools are asked by `alkanes_simulate`, and answer with the bytes of
their answer in base sixteen.  `AmmManager` takes the ids, the reserves and the name out of
them: an id is cut to the last 64 bits of each of its two numbers, a reserve is not.  A
text that is cut inside a character panics.
-/

namespace AlkanesIndexer

open HexBytes BatchScheduler

namespace AmmPools

/-- `alkanes::types::AlkaneId`. -/
structure TypesAlkaneId where
  block : ℕ
  tx : ℕ
  deriving DecidableEq, Repr

def TypesAlkaneId.toAlkaneId (id : TypesAlkaneId) : AlkaneId := (toString id.block, toString id.tx)

structure PoolDetailsAnswer where
  token0 : TypesAlkaneId
  token1 : TypesAlkaneId
  token0Amount : ℕ
  token1Amount : ℕ
  tokenSupply : ℕ
  poolName : String
  deriving DecidableEq, Repr

/-! ## Texts and their bytes -/

/-- `str::len`. -/
def byteLength (text : List Char) : ℕ := (text.map Char.utf8Size).sum

/-- `(&text[..size], &text[size..])`, `none` where the source panics: the text ends before,
or a character stands across the place. -/
def splitBytes : ℕ → List Char → Option (List Char × List Char)
  | 0, text => some ([], text)
  | _ + 1, [] => none
  | size + 1, c :: rest =>
      if c.utf8Size ≤ size + 1 then
        (splitBytes (size + 1 - c.utf8Size) rest).map fun parts => (c :: parts.1, parts.2)
      else none

def isContinuation (byte : UInt8) : Bool := 0x80 ≤ byte ∧ byte ≤ 0xBF

/-- The second bytes that can follow the first of three or four. -/
def secondFits (first second : UInt8) : Bool :=
  if first = 0xE0 then 0xA0 ≤ second ∧ second ≤ 0xBF
  else if first = 0xED then 0x80 ≤ second ∧ second ≤ 0x9F
  else if first = 0xF0 then 0x90 ≤ second ∧ second ≤ 0xBF
  else if first = 0xF4 then 0x80 ≤ second ∧ second ≤ 0x8F
  else (0xE1 ≤ first ∧ first ≤ 0xF3) && isContinuation second

/-- How many bytes at the front, which begin no character, are replaced together. -/
def invalidLength (bytes : List UInt8) : ℕ :=
  let first := bytes.getD 0 0
  if secondFits first (bytes.getD 1 0) then
    if first < 0xF0 ∨ isContinuation (bytes.getD 2 0) = false then 2 else 3
  else 1

theorem invalidLength_pos
    (bytes : List UInt8) :
    0 < invalidLength bytes := by
  unfold invalidLength
  dsimp only
  split_ifs <;> decide

def lossyChars (bytes : List UInt8) : List Char :=
  if _hnil : bytes = [] then []
  else
    match bytes.toByteArray.utf8DecodeChar? 0 with
    | some c => c :: lossyChars (bytes.drop c.utf8Size)
    | none => Char.ofNat 0xFFFD :: lossyChars (bytes.drop (invalidLength bytes))
termination_by bytes.length
decreasing_by
  · have hlength := List.length_pos_iff.mpr _hnil
    have hsize := c.utf8Size_pos
    rw [List.length_drop]
    omega
  · have hlength := List.length_pos_iff.mpr _hnil
    have hsize := invalidLength_pos bytes
    rw [List.length_drop]
    omega

def fromUtf8Lossy (bytes : List UInt8) : String := String.ofList (lossyChars bytes)

/-! ## Reading the answers -/

def readU128Le (bytes : List UInt8) (offset : ℕ) : Option ℕ :=
  if bytes.length < offset + 16 then none else some (leValue ((bytes.drop offset).take 16))

def lowHalf (value : ℕ) : ℕ := value &&& 0xFFFF_FFFF_FFFF_FFFF

def decodePoolDetails (dataHex : List Char) : Option PoolDetailsAnswer :=
  if dataHex = ['0', 'x'] then none
  else do
    let bytes ← decode (stripHexMark dataHex)
    let block0 ← readU128Le bytes 0
    let tx0 ← readU128Le bytes 16
    let block1 ← readU128Le bytes 32
    let tx1 ← readU128Le bytes 48
    let token0Amount ← readU128Le bytes 64
    let token1Amount ← readU128Le bytes 80
    let tokenSupply ← readU128Le bytes 96
    some {
      token0 := ⟨lowHalf block0, lowHalf tx0⟩
      token1 := ⟨lowHalf block1, lowHalf tx1⟩
      token0Amount := token0Amount
      token1Amount := token1Amount
      tokenSupply := tokenSupply
      poolName := if bytes.length > 116 then fromUtf8Lossy (bytes.drop 116) else "" }

/-- `u64::from_be_bytes` of the last eight bytes. -/
def lastEight (bytes : List UInt8) : Option ℕ :=
  if bytes.length < 8 then none else some (beValue (bytes.drop (bytes.length - 8)))

/-- The outer `none` is a panic, as below. -/
def parseAlkaneIdFromHex (hexStr : List Char) : Option (Option TypesAlkaneId) :=
  let clean := stripHexMark hexStr
  if byteLength clean < 64 then some none
  else
    (splitBytes 32 clean).bind fun parts => (splitBytes 32 parts.2).map fun rest => do
      let blockBytes ← decode parts.1
      let txBytes ← decode rest.1
      let block ← lastEight blockBytes.reverse
      let tx ← lastEight txBytes.reverse
      some ⟨block, tx⟩

/-- The entries behind the count.  An entry that is no id is passed over. -/
def decodeEntries : ℕ → List Char → Option (List TypesAlkaneId)
  | 0, _ => some []
  | count + 1, text =>
      if byteLength text < 64 then some []
      else
        (splitBytes 64 text).bind fun parts =>
          (parseAlkaneIdFromHex parts.1).bind fun id =>
            (decodeEntries count parts.2).map fun ids => id.toList ++ ids

def decodeGetAllPools (dataHex : List Char) : Option (Option (List TypesAlkaneId)) :=
  if dataHex = ['0', 'x'] then some none
  else
    let clean := stripHexMark dataHex
    if byteLength clean < 32 then some none
    else
      (splitBytes 32 clean).bind fun parts =>
        match (decode parts.1).bind fun bytes => u128FromStrRadix 16 (encode bytes.reverse) with
        | none => some none
        | some count => (decodeEntries (count % 2 ^ 64) parts.2).map some

/-! ## Asking the contracts -/

def simulateRequest (target : AlkaneId) (opcode : ℕ) : JsonValue :=
  .array [.object [
    ("alkanes", .array []),
    ("transaction", .string "0x"),
    ("block", .string "0x"),
    ("height", .string "20000"),
    ("txindex", .ofInt 0),
    ("target", .object [("block", .string target.1), ("tx", .string target.2)]),
    ("inputs", .array [.string (toString opcode)]),
    ("pointer", .ofInt 0),
    ("refundPointer", .ofInt 0),
    ("vout", .ofInt 0)]]

def factoryOpcodeGetAllPools : ℕ := 3

def poolOpcodePoolDetails : ℕ := 999

def dataHex (result : JsonValue) : List Char :=
  ((result.strAt ["execution", "data"]).getD "0x").toList

/-- `get_all_pools_via_raw_simulate`; `call` is the `alkanes_simulate` call of the node. -/
def getAllPoolsViaRawSimulate
    (call : JsonValue → Except String JsonValue)
    (factory : AlkaneId) : Option (Except String (List TypesAlkaneId)) :=
  match call (simulateRequest factory factoryOpcodeGetAllPools) with
  | .error error => some (.error error)
  | .ok result =>
      (decodeGetAllPools (dataHex result)).map fun decoded =>
        match decoded with
        | none => .error "Other error: Failed to decode get_all_pools result"
        | some ids => .ok ids

def getPoolDetailsViaRawSimulate
    (call : JsonValue → Except String JsonValue)
    (pool : AlkaneId) : Except String PoolDetailsAnswer :=
  (call (simulateRequest pool poolOpcodePoolDetails)).bind fun result =>
    match decodePoolDetails (dataHex result) with
    | none => .error "Other error: Failed to decode pool_details result"
    | some details => .ok details

/-- The details as `fetch_all_pools_with_details` hands them on. -/
def PoolDetailsAnswer.result (answer : PoolDetailsAnswer) : PoolSnapshots.PoolDetailsResult where
  token0 := answer.token0.toAlkaneId
  token1 := answer.token1.toAlkaneId
  poolName := answer.poolName
  token0Amount := answer.token0Amount
  token1Amount := answer.token1Amount
  tokenSupply := answer.tokenSupply

/-- What a refresh gets to see: the factory's listing, and an answer for each listing in
it.  The calls are numbered. -/
def listedPools
    (calls : ℕ → JsonValue → Except String JsonValue)
    (factory : AlkaneId) :
    Option (Except String (List (AlkaneId × Except String PoolSnapshots.PoolDetailsResult))) :=
  (getAllPoolsViaRawSimulate (calls 0) factory).map fun listing =>
    listing.map fun ids => ids.zipIdx.map fun placed =>
      (placed.1.toAlkaneId,
        (getPoolDetailsViaRawSimulate (calls (placed.2 + 1)) placed.1.toAlkaneId).map
          PoolDetailsAnswer.result)

/-! ## What the contracts encode -/

/-- Ids and amounts of a contract are numbers of 128 bits. -/
structure PoolContract where
  id : ℕ × ℕ
  token0 : ℕ × ℕ
  token1 : ℕ × ℕ
  token0Amount : ℕ
  token1Amount : ℕ
  tokenSupply : ℕ
  poolName : String
  deriving DecidableEq, Repr

def encodeId (id : ℕ × ℕ) : List UInt8 := leBytes 16 id.1 ++ leBytes 16 id.2

def encodeAllPools (ids : List (ℕ × ℕ)) : List UInt8 :=
  leBytes 16 ids.length ++ ids.flatMap encodeId

/-- The name stands behind four bytes for its length. -/
def PoolContract.encode (pool : PoolContract) : List UInt8 :=
  encodeId pool.token0 ++ encodeId pool.token1 ++ leBytes 16 pool.token0Amount ++
    leBytes 16 pool.token1Amount ++ leBytes 16 pool.tokenSupply ++
    leBytes 4 pool.poolName.utf8ByteSize ++ pool.poolName.toList.flatMap String.utf8EncodeChar

def answerText (bytes : List UInt8) : List Char := '0' :: 'x' :: encode bytes

/-- An id as the refresh knows it. -/
def shortId (id : ℕ × ℕ) : TypesAlkaneId := ⟨id.1 % 2 ^ 64, id.2 % 2 ^ 64⟩

/-! ## Reading back -/

theorem isAscii_encode
    (bytes : List UInt8) :
    ∀ c ∈ encode bytes, c.utf8Size = 1 := by
  have hdigits : ∀ digit < 16, (Nat.digitChar digit).utf8Size = 1 := by decide
  intro c hc
  obtain ⟨byte, _, hchar⟩ := List.mem_flatMap.mp hc
  have hbyte := byte.toNat_lt
  rcases List.mem_pair.mp hchar with rfl | rfl
  · exact hdigits _ (by omega)
  · exact hdigits _ (by omega)

theorem byteLength_of_ascii
    {text : List Char}
    (hascii : ∀ c ∈ text, c.utf8Size = 1) :
    byteLength text = text.length := by
  induction text with
  | nil => rfl
  | cons c rest ih =>
      obtain ⟨hc, hrest⟩ := List.forall_mem_cons.mp hascii
      have hsum : byteLength (c :: rest) = c.utf8Size + byteLength rest := rfl
      rw [hsum, hc, ih hrest, List.length_cons, Nat.add_comm]

theorem byteLength_append
    (first second : List Char) :
    byteLength (first ++ second) = byteLength first + byteLength second := by
  unfold byteLength
  rw [List.map_append, List.sum_append]

theorem splitBytes_append
    {first : List Char}
    (hascii : ∀ c ∈ first, c.utf8Size = 1)
    (second : List Char) :
    splitBytes first.length (first ++ second) = some (first, second) := by
  induction first with
  | nil => rw [List.length_nil, List.nil_append, splitBytes]
  | cons c rest ih =>
      obtain ⟨hc, hrest⟩ := List.forall_mem_cons.mp hascii
      rw [List.length_cons, List.cons_append, splitBytes, hc, if_pos (by omega),
        Nat.add_sub_cancel, ih hrest]
      rfl

theorem lowHalf_eq_mod
    (value : ℕ) :
    lowHalf value = value % 2 ^ 64 :=
  Nat.and_two_pow_sub_one_eq_mod value 64

theorem lossyChars_utf8Encode
    (chars : List Char) :
    lossyChars (chars.flatMap String.utf8EncodeChar) = chars := by
  induction chars with
  | nil => rw [List.flatMap_nil, lossyChars, dif_pos rfl]
  | cons c rest ih =>
      have hlength : (String.utf8EncodeChar c).length = c.utf8Size := String.length_utf8EncodeChar c
      have hne : String.utf8EncodeChar c ++ rest.flatMap String.utf8EncodeChar ≠ [] := by
        have hsize := c.utf8Size_pos
        intro hnil
        have hzero := congrArg List.length hnil
        rw [List.length_append, hlength, List.length_nil] at hzero
        omega
      rw [List.flatMap_cons, lossyChars, dif_neg hne, List.toByteArray_append,
        ByteArray.utf8DecodeChar?_utf8EncodeChar_append]
      dsimp only
      rw [← hlength, List.drop_left, ih]

/-- A text in base sixteen has no mark of its own. -/
theorem stripHexMark_encode
    (bytes : List UInt8)
    (rest : List Char)
    (hne : bytes ≠ []) :
    stripHexMark (encode bytes ++ rest) = encode bytes ++ rest := by
  obtain ⟨byte, bytes, rfl⟩ := List.exists_cons_of_ne_nil hne
  have hsecond : Nat.digitChar (byte.toNat % 16) ≠ 'x' := by
    intro hmark
    have hdigit := (digits_of_byte byte).2
    rw [hmark] at hdigit
    cases hdigit
  rw [encode_cons, List.cons_append, List.cons_append]
  unfold stripHexMark
  split
  next heq => exact absurd (List.cons.inj (List.cons.inj heq).2).1 hsecond
  next => rfl

theorem lastEight_leBytes
    (value : ℕ) :
    lastEight (leBytes 16 value).reverse = some (value % 2 ^ 64) := by
  have hlength := leBytes_length 16 value
  unfold lastEight
  rw [List.length_reverse, hlength, if_neg (by decide), beValue, List.drop_reverse, hlength,
    List.reverse_reverse, leValue_take (by omega), leValue_leBytes]
  congr 1
  exact Nat.mod_mod_of_dvd value (by norm_num)

theorem encodeId_length
    (id : ℕ × ℕ) :
    (encodeId id).length = 32 := by
  rw [encodeId, List.length_append, leBytes_length, leBytes_length]

theorem parseAlkaneIdFromHex_encode
    (id : ℕ × ℕ) :
    parseAlkaneIdFromHex (encode (encodeId id)) = some (some (shortId id)) := by
  have hblock : (encode (leBytes 16 id.1)).length = 32 := by rw [encode_length, leBytes_length]
  have htx : (encode (leBytes 16 id.2)).length = 32 := by rw [encode_length, leBytes_length]
  have hstrip := stripHexMark_encode (encodeId id) []
    (List.ne_nil_of_length_pos (by rw [encodeId_length]; decide))
  rw [List.append_nil] at hstrip
  have hsecond := splitBytes_append (isAscii_encode (leBytes 16 id.2)) []
  rw [htx, List.append_nil] at hsecond
  have hfirst := splitBytes_append (isAscii_encode (leBytes 16 id.1)) (encode (leBytes 16 id.2))
  rw [hblock] at hfirst
  unfold parseAlkaneIdFromHex
  simp only [hstrip]
  rw [byteLength_of_ascii (isAscii_encode _), encode_length, encodeId_length, if_neg (by decide),
    encodeId, encode_append, hfirst, Option.bind_some, hsecond, Option.map_some]
  simp only [decode_encode, Option.bind_eq_bind, Option.bind_some, lastEight_leBytes, shortId]

theorem decodeEntries_encode
    (ids : List (ℕ × ℕ))
    (rest : List Char) :
    decodeEntries ids.length (encode (ids.flatMap encodeId) ++ rest) = some (ids.map shortId) := by
  induction ids with
  | nil => rfl
  | cons id ids ih =>
      have hentry : (encode (encodeId id)).length = 64 := by rw [encode_length, encodeId_length]
      have hsplit := splitBytes_append (isAscii_encode (encodeId id))
        (encode (ids.flatMap encodeId) ++ rest)
      rw [hentry] at hsplit
      have hlong : 64 ≤ byteLength (encode (encodeId id) ++
          (encode (ids.flatMap encodeId) ++ rest)) := by
        rw [byteLength_append, byteLength_of_ascii (isAscii_encode _), hentry]
        omega
      rw [List.length_cons, List.flatMap_cons, encode_append, List.append_assoc, decodeEntries,
        if_neg (Nat.not_lt.mpr hlong), hsplit, Option.bind_some, parseAlkaneIdFromHex_encode,
        Option.bind_some, ih]
      rfl

/-- Where the text ends the listing ends, and an entry that is cut off is left out. -/
theorem decodeEntries_take
    (ids : List (ℕ × ℕ))
    (size : ℕ) :
    decodeEntries ids.length ((encode (ids.flatMap encodeId)).take size) =
      some ((ids.take (size / 64)).map shortId) := by
  induction ids generalizing size with
  | nil => simp [decodeEntries]
  | cons id ids ih =>
      have hentry : (encode (encodeId id)).length = 64 := by rw [encode_length, encodeId_length]
      have hascii : ∀ c ∈ (encode ((id :: ids).flatMap encodeId)).take size, c.utf8Size = 1 :=
        fun c hc => isAscii_encode _ c (List.mem_of_mem_take hc)
      rw [List.length_cons, decodeEntries, byteLength_of_ascii hascii]
      by_cases hshort : size < 64
      · rw [if_pos (by rw [List.length_take]; omega), Nat.div_eq_of_lt hshort]
        rfl
      · obtain ⟨later, rfl⟩ := Nat.exists_eq_add_of_le (Nat.not_lt.mp hshort)
        have hsplit := splitBytes_append (isAscii_encode (encodeId id))
          ((encode (ids.flatMap encodeId)).take later)
        rw [hentry] at hsplit
        have htake : (encode ((id :: ids).flatMap encodeId)).take (64 + later) =
            encode (encodeId id) ++ (encode (ids.flatMap encodeId)).take later := by
          rw [List.flatMap_cons, encode_append, List.take_append, hentry,
            List.take_of_length_le (by omega), Nat.add_sub_cancel_left]
        have hdiv : (64 + later) / 64 = later / 64 + 1 := by omega
        rw [htake, List.length_append, hentry, if_neg (by omega), hsplit, Option.bind_some,
          parseAlkaneIdFromHex_encode, Option.bind_some, ih, hdiv]
        rfl

/-- Behind the count the entries are read, up to it. -/
theorem decodeGetAllPools_of_count
    {count : ℕ}
    (hcount : count < 2 ^ 64)
    (entries : List Char) :
    decodeGetAllPools (answerText (leBytes 16 count) ++ entries) =
      (decodeEntries count entries).map some := by
  have hlength : (encode (leBytes 16 count)).length = 32 := by rw [encode_length, leBytes_length]
  have hsplit := splitBytes_append (isAscii_encode (leBytes 16 count)) entries
  rw [hlength] at hsplit
  have hlong : 32 ≤ byteLength (encode (leBytes 16 count) ++ entries) := by
    rw [byteLength_append, byteLength_of_ascii (isAscii_encode _), hlength]
    omega
  have hvalue : u128FromStrRadix 16 (encode (leBytes 16 count).reverse) = some count := by
    have hreverse : (leBytes 16 count).reverse.length = 16 := by
      rw [List.length_reverse, leBytes_length]
    rw [u128FromStrRadix_encode (List.ne_nil_of_length_pos (by omega)) hreverse.le, beValue,
      List.reverse_reverse, leValue_leBytes, Nat.mod_eq_of_lt]
    calc count < 2 ^ 64 := hcount
      _ ≤ 256 ^ 16 := by norm_num
  have hmarked : answerText (leBytes 16 count) ++ entries ≠ ['0', 'x'] := by
    intro heq
    have hshort := congrArg List.length heq
    simp only [answerText, List.cons_append, List.length_cons, List.length_append, hlength,
      List.length_nil] at hshort
    omega
  have hstrip : stripHexMark (answerText (leBytes 16 count) ++ entries) =
      encode (leBytes 16 count) ++ entries := rfl
  unfold decodeGetAllPools
  rw [if_neg hmarked]
  simp only [hstrip]
  rw [if_neg (Nat.not_lt.mpr hlong), hsplit, Option.bind_some]
  simp only [decode_encode, Option.bind_some, hvalue, Nat.mod_eq_of_lt hcount]

theorem answerText_encodeAllPools
    (ids : List (ℕ × ℕ)) :
    answerText (encodeAllPools ids) =
      answerText (leBytes 16 ids.length) ++ encode (ids.flatMap encodeId) := by
  rw [answerText, encodeAllPools, encode_append]
  rfl

/-- The listing of a factory is read back with short ids, whatever follows it, and if it is
cut off, the pools whose entry is complete. -/
theorem decodeGetAllPools_encode
    {ids : List (ℕ × ℕ)}
    (hlength : ids.length < 2 ^ 64) :
    (∀ rest, decodeGetAllPools (answerText (encodeAllPools ids) ++ rest) =
        some (some (ids.map shortId))) ∧
      ∀ size, decodeGetAllPools ((answerText (encodeAllPools ids)).take (34 + size)) =
        some (some ((ids.take (size / 64)).map shortId)) := by
  constructor
  · intro rest
    rw [answerText_encodeAllPools, List.append_assoc, decodeGetAllPools_of_count hlength,
      decodeEntries_encode]
    rfl
  · intro size
    have hcount : (answerText (leBytes 16 ids.length)).length = 34 := by
      rw [answerText, List.length_cons, List.length_cons, encode_length, leBytes_length]
    rw [answerText_encodeAllPools, List.take_append, hcount,
      List.take_of_length_le (by omega), Nat.add_sub_cancel_left,
      decodeGetAllPools_of_count hlength, decodeEntries_take]
    rfl

theorem cutListing_decoded :
    decodeGetAllPools ((answerText (encodeAllPools [(2, 100), (2 ^ 64 + 2, 101)])).take 161) =
        some (some [⟨2, 100⟩]) ∧
      decodeGetAllPools (answerText (encodeAllPools [(2, 100), (2 ^ 64 + 2, 101)])) =
        some (some [⟨2, 100⟩, ⟨2, 101⟩]) := by
  have hlength : [(2, 100), (2 ^ 64 + 2, 101)].length < 2 ^ 64 := by decide
  have hdecoded := decodeGetAllPools_encode hlength
  have hwhole := hdecoded.1 []
  rw [List.append_nil] at hwhole
  exact ⟨hdecoded.2 127, hwhole⟩

section Details

variable {bytes : List UInt8} {offset value : ℕ}

theorem readU128Le_here :
    readU128Le (leBytes 16 value ++ bytes) 0 = some (value % 2 ^ 128) := by
  have hlength := leBytes_length 16 value
  have hshort : ¬ (leBytes 16 value ++ bytes).length < 0 + 16 := by
    rw [List.length_append]
    omega
  rw [readU128Le, if_neg hshort, List.drop_zero, List.take_left' hlength, leValue_leBytes]
  norm_num

theorem readU128Le_later
    (hoffset : 16 ≤ offset) :
    readU128Le (leBytes 16 value ++ bytes) offset = readU128Le bytes (offset - 16) := by
  have hlength := leBytes_length 16 value
  have hdrop : (leBytes 16 value ++ bytes).drop offset = bytes.drop (offset - 16) := by
    rw [List.drop_append, hlength, List.drop_eq_nil_of_le (by omega), List.nil_append]
  have hlong : (leBytes 16 value ++ bytes).length < offset + 16 ↔
      bytes.length < offset - 16 + 16 := by
    rw [List.length_append]
    omega
  unfold readU128Le
  simp only [hdrop, hlong]

theorem lowHalf_mod :
    lowHalf (value % 2 ^ 128) = value % 2 ^ 64 := by
  rw [lowHalf_eq_mod]
  exact Nat.mod_mod_of_dvd value (by norm_num)

theorem name_of_encode
    (pool : PoolContract) :
    (if pool.encode.length > 116 then fromUtf8Lossy (pool.encode.drop 116) else "") =
      pool.poolName := by
  obtain ⟨front, hfront, hencoded⟩ : ∃ front : List UInt8, front.length = 116 ∧
      pool.encode = front ++ pool.poolName.toList.flatMap String.utf8EncodeChar := by
    refine ⟨_, ?_, rfl⟩
    simp only [List.length_append, encodeId_length, leBytes_length]
  have hname : fromUtf8Lossy (pool.poolName.toList.flatMap String.utf8EncodeChar) =
      pool.poolName := by
    rw [fromUtf8Lossy, lossyChars_utf8Encode, String.ofList_toList]
  rw [hencoded, List.drop_left' hfront, List.length_append, hfront]
  split
  next => exact hname
  next hshort =>
    have hnil : pool.poolName.toList.flatMap String.utf8EncodeChar = [] :=
      List.eq_nil_of_length_eq_zero (by omega)
    rw [← hname, hnil, fromUtf8Lossy, lossyChars, dif_pos rfl]

/-- The details of a pool are read back with its reserves as they are. -/
theorem decodePoolDetails_encode
    (pool : PoolContract) :
    decodePoolDetails (answerText pool.encode) = some {
      token0 := shortId pool.token0
      token1 := shortId pool.token1
      token0Amount := pool.token0Amount % 2 ^ 128
      token1Amount := pool.token1Amount % 2 ^ 128
      tokenSupply := pool.tokenSupply % 2 ^ 128
      poolName := pool.poolName } := by
  have hstrip : stripHexMark (answerText pool.encode) = encode pool.encode := rfl
  have hmarked : answerText pool.encode ≠ ['0', 'x'] := by
    intro heq
    have hshort := congrArg List.length heq
    simp only [answerText, List.length_cons, encode_length, PoolContract.encode,
      List.length_append, encodeId_length, List.length_nil] at hshort
    omega
  have hencoded : pool.encode = leBytes 16 pool.token0.1 ++ (leBytes 16 pool.token0.2 ++
      (leBytes 16 pool.token1.1 ++ (leBytes 16 pool.token1.2 ++
        (leBytes 16 pool.token0Amount ++ (leBytes 16 pool.token1Amount ++
          (leBytes 16 pool.tokenSupply ++ (leBytes 4 pool.poolName.utf8ByteSize ++
            pool.poolName.toList.flatMap String.utf8EncodeChar))))))) := by
    simp only [PoolContract.encode, encodeId, List.append_assoc]
  have hname : (if pool.encode.length > 116 then fromUtf8Lossy (pool.encode.drop 116) else "") =
      pool.poolName := name_of_encode pool
  unfold decodePoolDetails
  rw [if_neg hmarked, hstrip, decode_encode]
  simp only [Option.bind_eq_bind, Option.bind_some, hname]
  rw [hencoded]
  simp (disch := norm_num) only [readU128Le_later, readU128Le_here, Nat.reduceSub,
    Option.bind_some, lowHalf_mod, shortId]

end Details

/-! ## A refresh that the contracts answer -/

def PoolContract.shortId (pool : PoolContract) : AlkaneId := (AmmPools.shortId pool.id).toAlkaneId

/-- The details of a pool as the tables get them. -/
def PoolContract.details (pool : PoolContract) : PoolSnapshots.PoolDetailsResult where
  token0 := (AmmPools.shortId pool.token0).toAlkaneId
  token1 := (AmmPools.shortId pool.token1).toAlkaneId
  poolName := pool.poolName
  token0Amount := pool.token0Amount
  token1Amount := pool.token1Amount
  tokenSupply := pool.tokenSupply

/-- The request for the details of a pool that is listed at the place. -/
def detailsCall
    (calls : ℕ → JsonValue → Except String JsonValue)
    (placed : PoolContract × ℕ) : Except String JsonValue :=
  calls (placed.2 + 1) (simulateRequest placed.1.shortId poolOpcodePoolDetails)

/-- The node asks the contracts: the factory lists the pools, and a pool's details are
its own whenever its request gets an answer. -/
structure Contracts
    (calls : ℕ → JsonValue → Except String JsonValue)
    (factory : AlkaneId)
    (pools : List PoolContract) : Prop where
  few : pools.length < 2 ^ 64
  amounts : ∀ pool ∈ pools, pool.token0Amount < 2 ^ 128 ∧ pool.token1Amount < 2 ^ 128 ∧
    pool.tokenSupply < 2 ^ 128
  listing : ∃ result,
    calls 0 (simulateRequest factory factoryOpcodeGetAllPools) = .ok result ∧
      dataHex result = answerText (encodeAllPools (pools.map PoolContract.id))
  details : ∀ placed ∈ pools.zipIdx, ∀ result, detailsCall calls placed = .ok result →
    dataHex result = answerText placed.1.encode

section Refresh

variable
  {calls : ℕ → JsonValue → Except String JsonValue}
  {factory : AlkaneId}
  {pools : List PoolContract}

theorem getPoolDetails_of_contracts
    (hcontracts : Contracts calls factory pools)
    {placed : PoolContract × ℕ}
    (hplaced : placed ∈ pools.zipIdx) :
    (getPoolDetailsViaRawSimulate (calls (placed.2 + 1)) placed.1.shortId).map
        PoolDetailsAnswer.result =
      (detailsCall calls placed).map fun _ => placed.1.details := by
  unfold getPoolDetailsViaRawSimulate
  cases hcall : detailsCall calls placed with
  | error error =>
      unfold detailsCall at hcall
      rw [hcall]
      rfl
  | ok result =>
      have hdata := hcontracts.details placed hplaced result hcall
      obtain ⟨htoken0, htoken1, hsupply⟩ :=
        hcontracts.amounts placed.1 (List.fst_mem_of_mem_zipIdx hplaced)
      unfold detailsCall at hcall
      rw [hcall]
      simp only [Except.bind, hdata, decodePoolDetails_encode, Nat.mod_eq_of_lt htoken0,
        Nat.mod_eq_of_lt htoken1, Nat.mod_eq_of_lt hsupply]
      rfl

theorem getAllPools_of_contracts
    (hcontracts : Contracts calls factory pools) :
    getAllPoolsViaRawSimulate (calls 0) factory =
      some (.ok (pools.map fun pool => AmmPools.shortId pool.id)) := by
  obtain ⟨result, hcall, hdata⟩ := hcontracts.listing
  have hlength : (pools.map PoolContract.id).length < 2 ^ 64 := by
    rw [List.length_map]
    exact hcontracts.few
  have hdecoded := (decodeGetAllPools_encode hlength).1 []
  rw [List.append_nil, List.map_map] at hdecoded
  unfold getAllPoolsViaRawSimulate
  rw [hcall]
  simp only [hdata, hdecoded, Option.map_some, Function.comp_def]

theorem listedPools_of_contracts
    (hcontracts : Contracts calls factory pools) :
    listedPools calls factory = some (.ok (pools.zipIdx.map fun placed =>
      (placed.1.shortId, (detailsCall calls placed).map fun _ => placed.1.details))) := by
  have hlisted : ∀ placed ∈ pools.zipIdx,
      ((AmmPools.shortId placed.1.id).toAlkaneId,
        (getPoolDetailsViaRawSimulate (calls (placed.2 + 1))
          (AmmPools.shortId placed.1.id).toAlkaneId).map PoolDetailsAnswer.result) =
      (placed.1.shortId, (detailsCall calls placed).map fun _ => placed.1.details) := by
    intro placed hplaced
    rw [← getPoolDetails_of_contracts hcontracts hplaced]
    rfl
  unfold listedPools
  rw [getAllPools_of_contracts hcontracts, Option.map_some]
  simp only [Except.map, List.zipIdx_map, List.map_map, Function.comp_def]
  exact congrArg (fun listed => some (Except.ok listed)) (List.map_congr_left hlisted)

/-- A request for the details of the pool got an answer. -/
def Answered
    (calls : ℕ → JsonValue → Except String JsonValue)
    (placed : PoolContract × ℕ) : Prop :=
  ∃ result, detailsCall calls placed = .ok result

open PoolSnapshots

theorem mem_fetched_iff
    {refresh : PoolSnapshots.Refresh}
    {fetched : List (AlkaneId × PoolDetailsResult)}
    {item : AlkaneId × PoolDetailsResult}
    (hcontracts : Contracts calls refresh.factory pools)
    (hlisted : listedPools calls refresh.factory = some refresh.listed)
    (hfetch : PoolSnapshots.fetchAllPoolsWithDetails refresh = .ok fetched) :
    item ∈ fetched ↔ ∃ placed ∈ pools.zipIdx, Answered calls placed ∧
      item = (placed.1.shortId, placed.1.details) := by
  rw [listedPools_of_contracts hcontracts, Option.some.injEq] at hlisted
  unfold PoolSnapshots.fetchAllPoolsWithDetails at hfetch
  rw [← hlisted] at hfetch
  rw [← Except.ok.inj hfetch, List.mem_filterMap]
  simp only [(bufferUnordered_perm 10 refresh.picks _).mem_iff, List.mem_map, Answered]
  constructor
  · rintro ⟨_, ⟨placed, hplaced, rfl⟩, hitem⟩
    refine ⟨placed, hplaced, ?_⟩
    cases hcall : detailsCall calls placed with
    | error error =>
        rw [hcall] at hitem
        cases hitem
    | ok result =>
        rw [hcall] at hitem
        exact ⟨⟨result, rfl⟩, (Option.some.inj hitem).symm⟩
  · rintro ⟨placed, hplaced, ⟨result, hcall⟩, rfl⟩
    refine ⟨_, ⟨placed, hplaced, rfl⟩, ?_⟩
    rw [hcall]
    rfl

/-- After a committed refresh the latest snapshot of a pool that has answered is what its
contract holds, unless the pool is another factory's or has a snapshot at the tip or above;
that of a pool that has not is as before. -/
theorem reserves_of_contracts
    (ids : IdSource)
    (store : PoolStore)
    (refreshes : List PoolSnapshots.Refresh)
    (refresh : PoolSnapshots.Refresh)
    (hcontracts : Contracts calls refresh.factory pools)
    (hlisted : listedPools calls refresh.factory = some refresh.listed)
    (hcommitted : (fetchAndUpsertPoolsForTip ids refresh
      (store.run ids refreshes).toPoolTables).committed = true) :
    let before := (store.run ids refreshes).toPoolTables
    let after := (fetchAndUpsertPoolsForTip ids refresh before).tables
    (∀ placed ∈ pools.zipIdx, Answered calls placed →
      (∀ other ∈ pools, other.shortId = placed.1.shortId →
        other.details.values = placed.1.details.values) →
      (latestValues after placed.1.shortId = some placed.1.details.values ↔
        latestValues before placed.1.shortId = some placed.1.details.values ∨
          ¬ Foreign refresh before placed.1.shortId ∧
            BelowTip refresh before placed.1.shortId)) ∧
    ∀ pool, (∀ placed ∈ pools.zipIdx, Answered calls placed → placed.1.shortId ≠ pool) →
      latestValues after pool = latestValues before pool := by
  intro before after
  have hvalid := (store.run ids refreshes).valid
  obtain ⟨fetched, hfetch⟩ : ∃ fetched,
      PoolSnapshots.fetchAllPoolsWithDetails refresh = .ok fetched := by
    rw [listedPools_of_contracts hcontracts, Option.some.injEq] at hlisted
    unfold PoolSnapshots.fetchAllPoolsWithDetails
    rw [← hlisted]
    exact ⟨_, rfl⟩
  have hmem : ∀ item, item ∈ fetched ↔ ∃ placed ∈ pools.zipIdx, Answered calls placed ∧
      item = (placed.1.shortId, placed.1.details) :=
    fun item => mem_fetched_iff hcontracts hlisted hfetch
  have hafter : after = tablesAfter ids refresh before fetched :=
    tables_of_committed hfetch hcommitted
  constructor
  · intro placed hplaced hanswered hagree
    have hitem := (hmem _).mpr ⟨placed, hplaced, hanswered, rfl⟩
    rw [hafter, latestValues_tablesAfter ids hvalid (List.mem_map_of_mem hitem)]
    refine expectedValues_eq_iff hitem fun other hother hsame => ?_
    obtain ⟨placed', hplaced', _, rfl⟩ := (hmem other).mp hother
    exact hagree placed'.1 (List.fst_mem_of_mem_zipIdx hplaced') hsame
  · intro pool hsilent
    rw [hafter]
    refine latestValues_of_notMem ids hvalid fun hpool => ?_
    obtain ⟨item, hitem, rfl⟩ := List.mem_map.mp hpool
    obtain ⟨placed, hplaced, hanswered, rfl⟩ := (hmem item).mp hitem
    exact hsilent placed hplaced hanswered rfl

end Refresh

/-! ## A factory whose pool answers -/

def contractAnswer (bytes : List UInt8) : JsonValue :=
  .object [("execution", .object [("data", .string (String.ofList (answerText bytes)))])]

theorem dataHex_contractAnswer
    (bytes : List UInt8) :
    dataHex (contractAnswer bytes) = answerText bytes := by
  have hdata : (contractAnswer bytes).strAt ["execution", "data"] =
      some (String.ofList (answerText bytes)) := rfl
  rw [dataHex, hdata, Option.getD_some, String.toList_ofList]

/-- The pool of `PoolSnapshots.refreshAt`. -/
def onePool (amount : ℕ) : PoolContract where
  id := (2, 100)
  token0 := (2, 0)
  token1 := (32, 0)
  token0Amount := amount
  token1Amount := 7
  tokenSupply := 9
  poolName := "DIESEL / frBTC LP"

def onePoolCalls (amount : ℕ) : ℕ → JsonValue → Except String JsonValue
  | 0, _ => .ok (contractAnswer (encodeAllPools [(2, 100)]))
  | _ + 1, _ => .ok (contractAnswer (onePool amount).encode)

theorem onePool_contracts :
    Contracts (onePoolCalls 6) ("4", "65522") [onePool 6] where
  few := by decide
  amounts pool hpool := by
    rw [List.mem_singleton.mp hpool]
    decide
  listing := ⟨_, rfl, dataHex_contractAnswer _⟩
  details placed hplaced result hcall := by
    rw [List.mem_singleton.mp hplaced] at hcall ⊢
    rw [← Except.ok.inj hcall, dataHex_contractAnswer]

theorem onePool_listed :
    listedPools (onePoolCalls 6) ("4", "65522") =
      some (PoolSnapshots.refreshAt 900001 6).listed := by
  rw [listedPools_of_contracts onePool_contracts]
  have hid : (onePool 6).shortId = ("2", "100") := by decide +kernel
  have hdetails : (onePool 6).details = PoolSnapshots.detailsOf 6 := by decide +kernel
  have hcall : (detailsCall (onePoolCalls 6) (onePool 6, 0)).map (fun _ => (onePool 6).details) =
      .ok (onePool 6).details := rfl
  rw [List.zipIdx_singleton, List.map_singleton, hcall, hid, hdetails]
  rfl

theorem reserves_at_nextTip :
    PoolSnapshots.latestValues (PoolSnapshots.fetchAndUpsertPoolsForTip PoolSnapshots.growingIds
      (PoolSnapshots.refreshAt 900001 6) (PoolSnapshots.PoolStore.empty.run
        PoolSnapshots.growingIds [PoolSnapshots.refreshAt 900000 5]).toPoolTables).tables
          (onePool 6).shortId = some (onePool 6).details.values := by
  have hreserves := reserves_of_contracts PoolSnapshots.growingIds .empty
    [PoolSnapshots.refreshAt 900000 5] (PoolSnapshots.refreshAt 900001 6) onePool_contracts
    onePool_listed (by decide)
  refine (hreserves.1 (onePool 6, 0) List.mem_cons_self ⟨_, rfl⟩ fun other hother _ => ?_).mpr
    (Or.inr (by decide +kernel))
  rw [List.mem_singleton.mp hother]

end AmmPools

end AlkanesIndexer
