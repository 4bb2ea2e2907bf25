import AjarConnectors.Hex.Digits

namespace VerifyModel

abbrev Bytes := List UInt8

/-- `u8::is_ascii_whitespace`: tab, line feed, form feed, carriage return and space, no vertical tab. -/
def isAsciiWhitespace (b : UInt8) : Bool := b == 0x09 || b == 0x0a || b == 0x0c || b == 0x0d || b == 0x20

inductive FromHexError where
  | invalidHexCharacter (c : UInt8) (index : Nat)
  | oddLength
  | invalidStringLength
  deriving DecidableEq

inductive KeyError where
  | notHex (cause : FromHexError)
  | length (n : Nat)
  | invalid
  deriving DecidableEq

def KeyError.text : KeyError → String
  | .notHex _ => "key is not valid hex"
  | .length n => "key must be 32 raw bytes or 64 hex characters, got " ++ toString n ++ " bytes"
  | .invalid => "not a valid Ed25519 verifying key"

def val (c : UInt8) (idx : Nat) : Except FromHexError UInt8 :=
  if 65 ≤ c ∧ c ≤ 70 then .ok (c - 65 + 10)
  else if 97 ≤ c ∧ c ≤ 102 then .ok (c - 97 + 10)
  else if 48 ≤ c ∧ c ≤ 57 then .ok (c - 48)
  else .error (.invalidHexCharacter c idx)

def decodePairs (idx : Nat) : Bytes → Except FromHexError Bytes
  | high :: low :: rest =>
    match val high idx with
    | .error e => .error e
    | .ok h => match val low (idx + 1) with
      | .error e => .error e
      | .ok l => match decodePairs (idx + 2) rest with
        | .error e => .error e
        | .ok bytes => .ok ((h <<< 4 ||| l) :: bytes)
  | _ => .ok []

/-- `hex::decode_to_slice` into a slice of this many bytes. -/
def decodeToSlice (data : Bytes) (out : Nat) : Except FromHexError Bytes :=
  if data.length % 2 ≠ 0 then .error .oddLength
  else if data.length / 2 ≠ out then .error .invalidStringLength
  else decodePairs 0 data

section

-- `VerifyingKey::from_bytes` of 32 bytes.
variable {VK : Type} (fromBytes : Bytes → Option VK)

def parseKey (raw : Bytes) : Except KeyError VK :=
  let trimmed := raw.filter fun b => !isAsciiWhitespace b
  let bytes : Except KeyError Bytes :=
    if trimmed.length = 64 then (decodeToSlice trimmed 32).mapError .notHex
    else if trimmed.length = 32 then .ok trimmed
    else .error (.length trimmed.length)
  bytes.bind fun bytes =>
    match fromBytes bytes with
    | some key => .ok key
    | none => .error .invalid

end

/-- The file's hex digits, of either case and with white space anywhere between them, are those of the key. -/
def Spells (file key : Bytes) : Prop :=
  ((file.filter fun b => !isAsciiWhitespace b).map fun b => (Char.ofNat b.toNat).toLower) = Hex.encode key

instance (file key : Bytes) : Decidable (Spells file key) := inferInstanceAs (Decidable (_ = _))

end VerifyModel

namespace VerifyProof

open VerifyModel

theorem val_digits : ∀ c < 256, (Char.ofNat c).toLower ∈ Hex.alphabet →
    val (UInt8.ofNat c) 0 = .ok (UInt8.ofNat (Hex.alphabet.idxOf (Char.ofNat c).toLower)) := by
  decide +kernel

theorem digit_idxOf : ∀ n < 16, Hex.alphabet.idxOf (Hex.digit n) = n := by decide

theorem val_index {c v : UInt8} {i : Nat} (found : val c i = .ok v) (j : Nat) : val c j = .ok v := by
  unfold val at found ⊢
  split
  · rename_i upper
    rwa [if_pos upper] at found
  · rename_i upper
    rw [if_neg upper] at found
    split
    · rename_i lower
      rwa [if_pos lower] at found
    · rename_i lower
      rw [if_neg lower] at found
      split
      · rename_i decimal
        rwa [if_pos decimal] at found
      · rename_i decimal
        rw [if_neg decimal] at found
        cases found

theorem val_digit {c : UInt8} {n : Nat} (small : n < 16) (same : (Char.ofNat c.toNat).toLower = Hex.digit n) (idx : Nat) :
    val c idx = .ok (UInt8.ofNat n) := by
  have member : (Char.ofNat c.toNat).toLower ∈ Hex.alphabet := by
    rw [same]
    exact Hex.digit_mem n small
  have found := val_digits c.toNat c.toNat_lt member
  rw [same, digit_idxOf n small, UInt8.ofNat_toNat] at found
  exact val_index found idx

theorem halves (b : UInt8) : UInt8.ofNat (b.toNat / 16) <<< 4 ||| UInt8.ofNat (b.toNat % 16) = b := by
  have all : ∀ n < 256, UInt8.ofNat (n / 16) <<< 4 ||| UInt8.ofNat (n % 16) = UInt8.ofNat n := by decide +kernel
  have here := all b.toNat b.toNat_lt
  rwa [UInt8.ofNat_toNat] at here

theorem decodePairs_spelled {key data : Bytes}
    (same : (data.map fun b => (Char.ofNat b.toNat).toLower) = Hex.encode key) (idx : Nat) :
    decodePairs idx data = .ok key := by
  induction key generalizing data idx with
  | nil =>
    rw [Hex.encode_nil, List.map_eq_nil_iff] at same
    rw [same]
    rfl
  | cons b key ih =>
    rw [Hex.encode_cons] at same
    obtain ⟨high, data, rfl, first, same⟩ := List.map_eq_cons_iff.mp same
    obtain ⟨low, data, rfl, second, same⟩ := List.map_eq_cons_iff.mp same
    have isHigh := val_digit (Hex.high_lt b) first idx
    have isLow := val_digit (Hex.low_lt b) second (idx + 1)
    simp only [decodePairs, isHigh, isLow, ih same (idx + 2), halves]

theorem spelled_length {file key : Bytes} (same : Spells file key) :
    (file.filter fun b => !isAsciiWhitespace b).length = 2 * key.length := by
  rw [← Hex.encode_length, ← same, List.length_map]

theorem decodeToSlice_spelled {file key : Bytes} (same : Spells file key) :
    decodeToSlice (file.filter fun b => !isAsciiWhitespace b) key.length = .ok key := by
  have size := spelled_length same
  rw [decodeToSlice, if_neg (by omega), if_neg (by omega), decodePairs_spelled same]

section

variable {VK : Type} {fromBytes : Bytes → Option VK}

theorem parseKey_spelled {file key : Bytes} {vk : VK} (size : key.length = 32) (valid : fromBytes key = some vk)
    (same : Spells file key) : parseKey fromBytes file = .ok vk := by
  have double := spelled_length same
  have decoded := decodeToSlice_spelled same
  rw [size] at double decoded
  simp only [parseKey, double, decoded, if_true, Except.mapError, Except.bind, valid]

theorem filter_visible {key : Bytes} (visible : ∀ b ∈ key, isAsciiWhitespace b = false) :
    (key.filter fun b => !isAsciiWhitespace b) = key := by
  rw [List.filter_eq_self]
  intro b member
  rw [visible b member]
  rfl

theorem parseKey_raw {key : Bytes} {vk : VK} (size : key.length = 32) (valid : fromBytes key = some vk)
    (visible : ∀ b ∈ key, isAsciiWhitespace b = false) : parseKey fromBytes key = .ok vk := by
  simp [parseKey, filter_visible visible, size, Except.bind, valid]

theorem filter_shorter {key : Bytes} {b : UInt8} (member : b ∈ key) (white : isAsciiWhitespace b = true) :
    (key.filter fun b => !isAsciiWhitespace b).length < key.length := by
  rw [List.length_filter_lt_length_iff_exists]
  refine ⟨b, member, ?_⟩
  rw [white]
  decide

/-- A raw key with white space among its bytes is shorter than 32 once it is taken out. -/
theorem parseKey_gapped {key : Bytes} {b : UInt8} (size : key.length = 32) (member : b ∈ key)
    (white : isAsciiWhitespace b = true) :
    parseKey fromBytes key = .error (.length (key.filter fun b => !isAsciiWhitespace b).length) := by
  have short := filter_shorter member white
  rw [size] at short
  rw [parseKey, if_neg (by omega), if_neg (by omega)]
  rfl

end

/-- A key is read from its raw bytes and from every hex spelling exactly when no raw byte is ASCII white space. -/
theorem parse_key_iff {VK : Type} (fromBytes : Bytes → Option VK) (key : Bytes) (vk : VK) (size : key.length = 32)
    (valid : fromBytes key = some vk) :
    (parseKey fromBytes key = .ok vk ∧ (∀ file, Spells file key → parseKey fromBytes file = .ok vk) ∧
      ∀ other, parseKey fromBytes key = .ok other → other = vk) ↔ ∀ b ∈ key, isAsciiWhitespace b = false := by
  constructor
  · rintro ⟨read, -, -⟩ b member
    by_contra white
    rw [Bool.not_eq_false] at white
    rw [parseKey_gapped size member white] at read
    cases read
  · intro visible
    have read := parseKey_raw size valid visible
    refine ⟨read, fun file same => parseKey_spelled size valid same, ?_⟩
    intro other found
    rw [read] at found
    exact (Except.ok.inj found).symm

theorem parse_key_of_47s :
    (parseKey some (List.replicate 32 0x47) = .ok (List.replicate 32 0x47) ∧
      (∀ file, Spells file (List.replicate 32 0x47) → parseKey some file = .ok (List.replicate 32 0x47)) ∧
      ∀ other, parseKey some (List.replicate 32 0x47) = .ok other → other = List.replicate 32 0x47) ↔
      ∀ b ∈ List.replicate 32 (0x47 : UInt8), isAsciiWhitespace b = false :=
  parse_key_iff some (List.replicate 32 0x47) (List.replicate 32 0x47) (by decide) rfl

/-- A valid key whose seventh byte is a line feed. -/
def feedKey : Bytes :=
  [0xd7, 0x5a, 0x98, 0x01, 0x82, 0xb1, 0x0a, 0xb7, 0xd5, 0x4b, 0xfe, 0xd3, 0xc9, 0x64, 0x07, 0x3a, 0x0e, 0xe1, 0x72,
    0xf3, 0xda, 0xa6, 0x23, 0x25, 0xaf, 0x02, 0x1a, 0x68, 0xf7, 0x07, 0x51, 0x1a]

theorem feed_key_is_refused :
    ¬∀ key vk : Bytes, key.length = 32 → some key = some vk →
      parseKey some key = .ok vk ∧ (∀ file, Spells file key → parseKey some file = .ok vk) ∧
        ∀ other, parseKey some key = .ok other → other = vk := by
  intro law
  have read := (law feedKey feedKey (by decide) rfl).1
  rw [parseKey_gapped (b := 0x0a) (by decide) (by decide) (by decide)] at read
  cases read

end VerifyProof
