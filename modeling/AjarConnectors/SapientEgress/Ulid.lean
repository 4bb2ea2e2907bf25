import AjarConnectors.Positional.Numerals
import AjarConnectors.Utf8.Order

namespace SapientEgressModel

namespace Ulid

/-- The bytes of the alphabet, which leaves out `I`, `L`, `O` and `U`. -/
def alphabet : List Nat := "0123456789ABCDEFGHJKMNPQRSTVWXYZ".toList.map Char.toNat

/-- The ULID for a given time and randomness: 128 bits, the top 48 the time. -/
def encode (millis : UInt64) (random80 : BitVec 128) : String :=
  let value : BitVec 128 :=
    ((millis &&& 0xFFFFFFFFFFFF).toBitVec.setWidth 128 <<< (80 : Nat)) ||| (random80 &&& ((1#128 <<< (80 : Nat)) - 1#128))
  String.ofList ((List.range 26).reverse.map fun i =>
    Char.ofNat (alphabet.getD ((value >>> (5 * i : Nat)) &&& 31#128).toNat 0))

def toAsciiUppercase (b : Nat) : Nat := if 97 ≤ b ∧ b ≤ 122 then b - 32 else b

def isValid (s : String) : Bool :=
  (Utf8.bytes s).length == 26 && (Utf8.bytes s).all (fun b => alphabet.contains (toAsciiUppercase b)) &&
    (Utf8.bytes s)[0]?.any fun b => b ≤ 0x37

/-- A time of 48 bits and randomness of 80. -/
@[ext] structure Parts where
  millis : UInt64
  random80 : BitVec 128
  timed : millis.toNat < 2^48
  drawn : random80.toNat < 2^80

def Parts.text (p : Parts) : String := encode p.millis p.random80

def UpperCase (s : String) : Prop := ∀ b ∈ Utf8.bytes s, toAsciiUppercase b = b

instance (s : String) : Decidable (UpperCase s) := inferInstanceAs (Decidable (∀ _ ∈ _, _))

end Ulid

end SapientEgressModel

namespace SapientEgressProof

open SapientEgressModel Ulid Positional

/-- The number of 128 bits that an identifier spells. -/
def ulidValue (millis : UInt64) (random80 : BitVec 128) : Nat :=
  millis.toNat % 2^48 * 2^80 + random80.toNat % 2^80

theorem alphabet_codes : alphabet = [48, 49, 50, 51, 52, 53, 54, 55, 56, 57, 65, 66, 67, 68, 69, 70, 71, 72, 74, 75, 77, 78,
    80, 81, 82, 83, 84, 86, 87, 88, 89, 90] := by
  decide +kernel

theorem alphabet_length : alphabet.length = 32 := by rw [alphabet_codes]; rfl

theorem alphabet_sorted : alphabet.Pairwise (· < ·) := by
  rw [alphabet_codes]
  decide

theorem alphabet_nodup : alphabet.Nodup := alphabet_sorted.imp Nat.ne_of_lt

/-- Every symbol is ASCII and its own upper case, and the digits below 8 are the symbols up to `7`. -/
theorem alphabet_symbols : ∀ b ∈ alphabet, (Char.ofNat b).toNat = b ∧ b < 0x80 ∧ toAsciiUppercase b = b ∧
    (alphabet.idxOf b < 8 ↔ b ≤ 0x37) := by
  rw [alphabet_codes]
  decide

theorem ulidValue_lt (millis : UInt64) (random80 : BitVec 128) : ulidValue millis random80 < 2^128 := by
  have time : millis.toNat % 2^48 < 2^48 := Nat.mod_lt _ (Nat.two_pow_pos 48)
  have random : random80.toNat % 2^80 < 2^80 := Nat.mod_lt _ (Nat.two_pow_pos 80)
  unfold ulidValue
  omega

theorem encode_value (millis : UInt64) (random80 : BitVec 128) :
    (((millis &&& 0xFFFFFFFFFFFF).toBitVec.setWidth 128 <<< (80 : Nat)) |||
      (random80 &&& ((1#128 <<< (80 : Nat)) - 1#128))).toNat = ulidValue millis random80 := by
  have kept : millis.toNat % 2^48 < 2^48 := Nat.mod_lt _ (Nat.two_pow_pos 48)
  have time : ((millis &&& 0xFFFFFFFFFFFF).toBitVec.setWidth 128).toNat = millis.toNat % 2^48 := by
    have mask : (0xFFFFFFFFFFFF : UInt64).toNat = 2^48 - 1 := rfl
    rw [BitVec.toNat_setWidth, UInt64.toNat_toBitVec, UInt64.toNat_and, mask, Nat.and_two_pow_sub_one_eq_mod]
    exact Nat.mod_eq_of_lt (by omega)
  have random : (random80 &&& ((1#128 <<< (80 : Nat)) - 1#128)).toNat = random80.toNat % 2^80 := by
    have mask : ((1#128 <<< (80 : Nat)) - 1#128).toNat = 2^80 - 1 := rfl
    rw [BitVec.toNat_and, mask, Nat.and_two_pow_sub_one_eq_mod]
  have short : millis.toNat % 2^48 * 2^80 < 2^128 := by omega
  have low : random80.toNat % 2^80 < 2^80 := Nat.mod_lt _ (Nat.two_pow_pos 80)
  rw [BitVec.toNat_or, BitVec.toNat_shiftLeft, time, random, Nat.shiftLeft_eq, Nat.mod_eq_of_lt short, ← Nat.shiftLeft_eq,
    ← Nat.shiftLeft_add_eq_or_of_lt low, Nat.shiftLeft_eq, ulidValue]

theorem encode_digit (value : BitVec 128) (i : Nat) :
    ((value >>> (5 * i : Nat)) &&& 31#128).toNat = value.toNat / 32^i % 32 := by
  have power : 2^(5 * i) = 32^i := Nat.pow_mul 2 5 i
  have mask : (31#128).toNat = 2^5 - 1 := rfl
  rw [BitVec.toNat_and, BitVec.toNat_ushiftRight, Nat.shiftRight_eq_div_pow, power, mask, Nat.and_two_pow_sub_one_eq_mod]

theorem symbol_ascii {d : Nat} (inside : d < 32) :
    (Char.ofNat (alphabet.getD d 0)).toNat = alphabet.getD d 0 ∧ alphabet.getD d 0 < 0x80 := by
  obtain ⟨same, small, _⟩ := alphabet_symbols _ (getD_mem (alphabet_length ▸ inside))
  exact ⟨same, small⟩

theorem toList_encode (millis : UInt64) (random80 : BitVec 128) : (encode millis random80).toList =
    (digits 32 (ulidValue millis random80) 26).map fun d => Char.ofNat (alphabet.getD d 0) := by
  rw [encode, String.toList_ofList, digits_eq_map, List.map_map]
  apply List.map_congr_left
  intro i _
  rw [encode_digit, encode_value, Function.comp_apply]

theorem ascii_encode (millis : UInt64) (random80 : BitVec 128) :
    ∀ c ∈ (encode millis random80).toList, c.toNat < 0x80 := by
  rw [toList_encode]
  intro c member
  obtain ⟨d, listed, rfl⟩ := List.mem_map.mp member
  obtain ⟨same, small⟩ := symbol_ascii (digits_lt (by decide) _ _ d listed)
  rwa [same]

/-- The bytes of an identifier are the 26 digits of its number to the base 32. -/
theorem bytes_encode (millis : UInt64) (random80 : BitVec 128) :
    Utf8.bytes (encode millis random80) = spell alphabet (digits 32 (ulidValue millis random80) 26) := by
  rw [Utf8.bytes_of_ascii (ascii_encode millis random80), Utf8.codePoints, toList_encode, List.map_map, spell]
  apply List.map_congr_left
  intro d listed
  exact (symbol_ascii (digits_lt (by decide) _ _ d listed)).1

example : encode 1469918176385 0 = "01ARYZ6S410000000000000000" := by decide +kernel

theorem digits_inside (value : Nat) : ∀ d ∈ digits 32 value 26, d < alphabet.length := by
  rw [alphabet_length]
  exact digits_lt (by decide) value 26

theorem value_fits {value : Nat} (small : value < 2^128) : value < 32^26 := Nat.lt_trans small (by decide)

section

variable (p q : Parts)

theorem parts_value : ulidValue p.millis p.random80 = p.millis.toNat * 2^80 + p.random80.toNat := by
  rw [ulidValue, Nat.mod_eq_of_lt p.timed, Nat.mod_eq_of_lt p.drawn]

/-- The strings are in the order of time and, within one millisecond, of the randomness. -/
theorem text_lex_iff : List.Lex (· < ·) (Utf8.bytes p.text) (Utf8.bytes q.text) ↔
    p.millis < q.millis ∨ p.millis = q.millis ∧ p.random80 < q.random80 := by
  rw [Parts.text, Parts.text, bytes_encode, bytes_encode,
    spell_lex_iff alphabet_sorted (digits_inside _) (digits_inside _),
    digits_lex_iff (by decide) (value_fits (ulidValue_lt _ _)) (value_fits (ulidValue_lt _ _)), parts_value, parts_value,
    place_lt_iff p.drawn q.drawn, UInt64.lt_iff_toNat_lt, UInt64.toNat_inj, BitVec.lt_def]

theorem text_injective (same : p.text = q.text) : p = q := by
  have value : ulidValue p.millis p.random80 = ulidValue q.millis q.random80 := by
    have digitsSame := congrArg Utf8.bytes same
    rw [Parts.text, Parts.text, bytes_encode, bytes_encode] at digitsSame
    have placesSame := congrArg (places alphabet) digitsSame
    rw [places_spell alphabet_nodup (digits_inside _), places_spell alphabet_nodup (digits_inside _)] at placesSame
    exact digits_inj (value_fits (ulidValue_lt _ _)) (value_fits (ulidValue_lt _ _)) placesSame
  rw [parts_value, parts_value, place_inj p.drawn q.drawn] at value
  exact Parts.ext (UInt64.toNat_inj.mp value.1) (BitVec.eq_of_toNat_eq value.2)

theorem text_valid : isValid p.text = true := by
  have inside : ∀ b ∈ Utf8.bytes p.text, b ∈ alphabet := by
    rw [Parts.text, bytes_encode, spell]
    intro b member
    obtain ⟨d, listed, rfl⟩ := List.mem_map.mp member
    exact getD_mem (digits_inside _ d listed)
  have first : (Utf8.bytes p.text)[0]? = some (alphabet.getD (ulidValue p.millis p.random80 / 32^25 % 32) 0) := by
    rw [Parts.text, bytes_encode]
    rfl
  have high : ulidValue p.millis p.random80 / 32^25 % 32 < 8 := by
    have small := ulidValue_lt p.millis p.random80
    omega
  have below : ∀ d < 8, alphabet.getD d 0 ≤ 0x37 := by
    rw [alphabet_codes]
    decide
  have length : (Utf8.bytes p.text).length = 26 := by
    rw [Parts.text, bytes_encode, spell, List.length_map, digits_length]
  rw [isValid, length, first, Option.any_some, Bool.and_eq_true, Bool.and_eq_true, List.all_eq_true]
  refine ⟨⟨rfl, ?_⟩, decide_eq_true (below _ high)⟩
  intro b member
  rw [(alphabet_symbols b (inside b member)).2.2.1]
  exact List.contains_iff_mem.mpr (inside b member)

end

/-- The first symbol is at most `7`, so that 26 digits of five bits stay below 2^128. -/
theorem valid_spells {s : String} (valid : isValid s = true) (upper : UpperCase s) :
    ∃ value < 2^128, Utf8.bytes s = spell alphabet (digits 32 value 26) := by
  rw [isValid, Bool.and_eq_true, Bool.and_eq_true, beq_iff_eq, List.all_eq_true] at valid
  obtain ⟨⟨length, all⟩, first⟩ := valid
  have inside : ∀ b ∈ Utf8.bytes s, b ∈ alphabet := by
    intro b member
    have listed := all b member
    rw [upper b member] at listed
    exact List.contains_iff_mem.mp listed
  have bounded : ∀ d ∈ places alphabet (Utf8.bytes s), d < 32 := alphabet_length ▸ places_lt inside
  have size : (places alphabet (Utf8.bytes s)).length = 26 := by rw [places, List.length_map, length]
  refine ⟨number 32 (places alphabet (Utf8.bytes s)), ?_, ?_⟩
  · cases word : Utf8.bytes s with
    | nil =>
      rw [word] at length
      cases length
    | cons b rest =>
      rw [word] at first inside bounded size
      have low : alphabet.idxOf b < 8 := (alphabet_symbols b (inside b List.mem_cons_self)).2.2.2.mpr (by simpa using first)
      have later : number 32 (places alphabet rest) < 32^(places alphabet rest).length :=
        number_lt fun d member => bounded d (List.mem_cons_of_mem _ member)
      have places25 : (places alphabet rest).length = 25 := Nat.succ_inj.mp size
      change alphabet.idxOf b * 32^(places alphabet rest).length + number 32 (places alphabet rest) < 2^128
      rw [places25] at later ⊢
      omega
  · have read := digits_number bounded
    rw [size] at read
    rw [read, spell_places inside]

theorem text_of_valid {s : String} (valid : isValid s = true) (upper : UpperCase s) : ∃ p : Parts, p.text = s := by
  obtain ⟨value, small, spelled⟩ := valid_spells valid upper
  have timed : (UInt64.ofNat (value / 2^80)).toNat = value / 2^80 := by
    rw [UInt64.toNat_ofNat', Nat.mod_eq_of_lt (by omega)]
  have drawn : (BitVec.ofNat 128 (value % 2^80)).toNat = value % 2^80 := by
    rw [BitVec.toNat_ofNat, Nat.mod_eq_of_lt (by omega)]
  have whole : ulidValue (UInt64.ofNat (value / 2^80)) (BitVec.ofNat 128 (value % 2^80)) = value := by
    rw [ulidValue, timed, drawn]
    omega
  refine ⟨⟨UInt64.ofNat (value / 2^80), BitVec.ofNat 128 (value % 2^80), by omega, by omega⟩, ?_⟩
  rw [← whole, ← bytes_encode] at spelled
  rw [Utf8.bytes_of_ascii (ascii_encode _ _), Utf8.codePoints, Utf8.bytes_eq_ascii_iff (ascii_encode _ _)] at spelled
  exact (String.toList_inj.mp spelled).symm

/-- Identifiers are one to one with the pairs of a time and randomness, in their order. -/
theorem ulid_encoding :
    (∀ p q : Parts, p.text = q.text → p = q) ∧
    (∀ p q : Parts, List.Lex (· < ·) (Utf8.bytes p.text) (Utf8.bytes q.text) ↔
      p.millis < q.millis ∨ p.millis = q.millis ∧ p.random80 < q.random80) ∧
    (∀ p : Parts, isValid p.text = true) ∧
    ∀ s : String, isValid s = true → UpperCase s → ∃! p : Parts, p.text = s := by
  refine ⟨text_injective, text_lex_iff, text_valid, ?_⟩
  intro s valid upper
  obtain ⟨p, spelled⟩ := text_of_valid valid upper
  exact ⟨p, spelled, fun q other => text_injective q p (other.trans spelled.symm)⟩

theorem known_identifier_is_one_pair : ∃! p : Parts, p.text = "01ARYZ6S410000000000000000" :=
  ulid_encoding.2.2.2 "01ARYZ6S410000000000000000" (by decide +kernel) (by decide +kernel)

end SapientEgressProof
