import AjarConnectors.Base64.Rfc4648
import AjarConnectors.Hex.Digits
import AjarConnectors.Partial.Loops
import AjarConnectors.Stanag4676.Walk

namespace Stanag4676Model

/-- The encoded text once the white space is taken out. -/
def Spaced (text encoded : List Char) : Prop := (text.filter fun c => !isAsciiWhitespace c.toNat) = encoded

instance (text encoded : List Char) : Decidable (Spaced text encoded) := inferInstanceAs (Decidable (_ = _))

/-- Neither of the alphabet nor padding nor white space. -/
def Foreign (c : Char) : Prop := c ∉ Base64.alphabet ∧ c ≠ '=' ∧ isAsciiWhitespace c.toNat = false

/-- How many characters of a text are of the alphabet. -/
def symbols (text : List Char) : Nat := (text.filter fun c => decide (c ∈ Base64.alphabet)).length

/-- Lower-case digits with hyphens behind the bytes 4, 6, 8 and 10. -/
def hyphenated (bytes : Bytes) : List Char :=
  Hex.encode (bytes.take 4) ++ '-' :: Hex.encode ((bytes.drop 4).take 2) ++ '-' :: Hex.encode ((bytes.drop 6).take 2) ++
    '-' :: Hex.encode ((bytes.drop 8).take 2) ++ '-' :: Hex.encode (bytes.drop 10)

end Stanag4676Model

namespace Stanag4676Proof

open Stanag4676Model

/-- What the loop does not skip. -/
def kept (c : Nat) : Bool := !(c == 61 || isAsciiWhitespace c)

/-- Whole groups of four values decoded, and the values left over. -/
def groups : Bytes → Bytes → Bytes × Bytes
  | out, c0 :: c1 :: c2 :: c3 :: rest =>
    groups (out ++ [(c0 <<< 2) ||| (c1 >>> 4), (c1 <<< 4) ||| (c2 >>> 2), (c2 <<< 6) ||| c3]) rest
  | out, rest => (out, rest)

/-- The last, unfinished group. -/
def closed : Bytes × Bytes → Option Bytes
  | (out, []) => some out
  | (out, [c0, c1]) => some (out ++ [(c0 <<< 2) ||| (c1 >>> 4)])
  | (out, [c0, c1, c2]) => some (out ++ [(c0 <<< 2) ||| (c1 >>> 4), (c1 <<< 4) ||| (c2 >>> 2)])
  | _ => none

theorem groups_short {out chunk : Bytes} (short : chunk.length ≤ 3) : groups out chunk = (out, chunk) := by
  rw [groups]
  intro c0 c1 c2 c3 rest long
  rw [long, List.length_cons, List.length_cons, List.length_cons, List.length_cons] at short
  omega

theorem base64Loop_eq (text : List Nat) {out chunk : Bytes} (short : chunk.length ≤ 3) :
    base64Loop out chunk text = ((text.filter kept).mapM base64Value).map fun values => groups out (chunk ++ values) := by
  induction text generalizing out chunk with
  | nil =>
    rw [List.filter_nil, List.mapM_nil, base64Loop]
    simp [groups_short short]
  | cons c text ih =>
    rw [base64Loop]
    by_cases skipped : c = 61 ∨ isAsciiWhitespace c = true
    · have drop : kept c = false := by
        rw [kept, Bool.not_eq_false', Bool.or_eq_true, beq_iff_eq]
        exact skipped
      rw [if_pos skipped, ih short, List.filter_cons, drop]
      rfl
    · have keep : kept c = true := by
        rw [kept, Bool.not_eq_true', ← Bool.not_eq_true, Bool.or_eq_true, beq_iff_eq]
        exact skipped
      rw [if_neg skipped, List.filter_cons, if_pos keep, List.mapM_cons]
      cases value : base64Value c with
      | none => rfl
      | some v =>
        have later (done rest : Bytes) (fits : rest.length ≤ 3) (same : ∀ values, groups done (rest ++ values) =
            groups out (chunk ++ v :: values)) :
            base64Loop done rest text = (some v >>= fun v => (text.filter kept).mapM base64Value >>= fun values =>
              pure (v :: values)).map fun values => groups out (chunk ++ values) := by
          rw [ih fits]
          cases (text.filter kept).mapM base64Value with
          | none => rfl
          | some values => exact congrArg some (same values)
        dsimp only
        rcases chunk with _ | ⟨c0, _ | ⟨c1, _ | ⟨c2, _ | ⟨c3, chunk⟩⟩⟩⟩
        · exact later out [v] (by simp) fun _ => rfl
        · exact later out [c0, v] (by simp) fun _ => rfl
        · exact later out [c0, c1, v] (by simp) fun _ => rfl
        · exact later _ [] (by simp) fun _ => rfl
        · simp only [List.length_cons] at short
          omega

theorem base64Decode_eq (s : String) :
    base64Decode s = (((Utf8.bytes s).filter kept).mapM base64Value).bind fun values => closed (groups [] values) := by
  rw [base64Decode, base64Loop_eq _ (Nat.zero_le _)]
  cases ((Utf8.bytes s).filter kept).mapM base64Value with
  | none => rfl
  | some values =>
    rw [Option.map_some, Option.bind_some, List.nil_append]
    obtain ⟨out, rest⟩ := groups [] values
    rcases rest with _ | ⟨c0, _ | ⟨c1, _ | ⟨c2, _ | ⟨c3, rest⟩⟩⟩⟩ <;> rfl

section RoundTrip

theorem shifted_or {a : UInt8} (few : a.toNat < 8) (x : Nat) {z : Nat} (low : z < 2^a.toNat) :
    (UInt8.ofNat x <<< a) ||| UInt8.ofNat z = UInt8.ofNat (x * 2^a.toNat + z) := by
  have bound : 2^a.toNat < 2^8 := Nat.pow_lt_pow_right (by decide) few
  apply UInt8.toNat_inj.mp
  rw [UInt8.toNat_or, UInt8.toNat_shiftLeft, UInt8.toNat_ofNat', UInt8.toNat_ofNat', UInt8.toNat_ofNat',
    Nat.mod_eq_of_lt few, ← Nat.or_mod_two_pow, ← Nat.shiftLeft_add_eq_or_of_lt low, Nat.shiftLeft_eq, Nat.add_mod,
    Nat.mod_mul_mod, ← Nat.add_mod]

theorem shifted_right {b : UInt8} (few : b.toNat < 8) {y : Nat} (small : y < 2^8) :
    UInt8.ofNat y >>> b = UInt8.ofNat (y / 2^b.toNat) := by
  apply UInt8.toNat_inj.mp
  have less : y / 2^b.toNat < 2^8 := Nat.lt_of_le_of_lt (Nat.div_le_self y _) small
  rw [UInt8.toNat_shiftRight, UInt8.toNat_ofNat', UInt8.toNat_ofNat', Nat.mod_eq_of_lt few, Nat.mod_eq_of_lt small,
    Nat.mod_eq_of_lt less, Nat.shiftRight_eq_div_pow]

theorem join_first {x y : Nat} (small : y < 64) :
    (UInt8.ofNat x <<< 2) ||| (UInt8.ofNat y >>> 4) = UInt8.ofNat (x * 4 + y / 16) := by
  have right : UInt8.ofNat y >>> 4 = UInt8.ofNat (y / 16) := shifted_right (b := 4) (by decide) (by omega)
  have low : y / 16 < 4 := by omega
  rw [right]
  exact shifted_or (a := 2) (by decide) x low

theorem join_second {x y : Nat} (small : y < 64) :
    (UInt8.ofNat x <<< 4) ||| (UInt8.ofNat y >>> 2) = UInt8.ofNat (x * 16 + y / 4) := by
  have right : UInt8.ofNat y >>> 2 = UInt8.ofNat (y / 4) := shifted_right (b := 2) (by decide) (by omega)
  have low : y / 4 < 16 := by omega
  rw [right]
  exact shifted_or (a := 4) (by decide) x low

theorem join_third {x y : Nat} (small : y < 64) : (UInt8.ofNat x <<< 6) ||| UInt8.ofNat y = UInt8.ofNat (x * 64 + y) :=
  shifted_or (a := 6) (by decide) x small

theorem byte_eq {n : Nat} {b : UInt8} (same : n % 256 = b.toNat) : UInt8.ofNat n = b := by
  apply UInt8.toNat_inj.mp
  rw [UInt8.toNat_ofNat', same]

theorem closed_sextets (bytes out : Bytes) :
    closed (groups out ((Base64.sextets bytes).map UInt8.ofNat)) = some (out ++ bytes) := by
  induction bytes using Base64.sextets.induct generalizing out with
  | case1 a b c rest ih =>
    have := a.toNat_lt
    have := b.toNat_lt
    have := c.toNat_lt
    rw [Base64.sextets]
    simp only [List.map_cons]
    rw [groups, join_first (by omega), join_second (by omega),
      join_third (by omega), ih, byte_eq (b := a) (by omega), byte_eq (b := b) (by omega),
      byte_eq (b := c) (by omega), List.append_assoc]
    rfl
  | case2 a b =>
    have := a.toNat_lt
    have := b.toNat_lt
    rw [Base64.sextets]
    simp only [List.map_cons, List.map_nil]
    rw [groups_short (by simp), closed, join_first (by omega), join_second (by omega),
      byte_eq (b := a) (by omega), byte_eq (b := b) (by omega)]
  | case3 a =>
    have := a.toNat_lt
    rw [Base64.sextets]
    simp only [List.map_cons, List.map_nil]
    rw [groups_short (by simp), closed, join_first (by omega), byte_eq (b := a) (by omega)]
  | case4 =>
    rw [Base64.sextets, List.map_nil, groups_short (by decide), closed, List.append_nil]

end RoundTrip

section Characters

theorem value_symbol (n : Nat) (small : n < 64) : base64Value (Base64.symbol n).toNat = some (UInt8.ofNat n) := by
  have value : ∀ n < 64, base64Value (Base64.codes.getD n 61) = some (UInt8.ofNat n) := by decide
  rw [Base64.toNat_symbol small, value n small]

theorem alphabet_kept (c : Char) (member : c ∈ Base64.alphabet) : c.toNat < 0x80 ∧ kept c.toNat = true := by
  have all : ∀ n ∈ Base64.codes, n < 0x80 ∧ kept n = true := by decide
  exact all c.toNat ((Base64.mem_alphabet c).mp member)

theorem value_isSome (n : Nat) : (base64Value n).isSome = true ↔ n ∈ Base64.codes := by
  simp only [base64Value, Base64.codes, List.mem_append, List.mem_range'_1, List.mem_cons, List.not_mem_nil, or_false]
  repeat' split
  all_goals simp; omega

theorem value_eq_none_iff (c : Char) : base64Value c.toNat = none ↔ c ∉ Base64.alphabet := by
  rw [Base64.mem_alphabet, ← value_isSome, Bool.not_eq_true, Option.isSome_eq_false_iff, Option.isNone_iff_eq_none]

theorem value_large {n : Nat} (large : 0x80 ≤ n) : base64Value n = none := by
  rw [base64Value, if_neg (by omega), if_neg (by omega), if_neg (by omega), if_neg (by omega), if_neg (by omega)]

theorem whitespace_small {n : Nat} (white : isAsciiWhitespace n = true) : n < 0x80 := by
  simp only [isAsciiWhitespace, Bool.or_eq_true, beq_iff_eq] at white
  omega

theorem kept_iff (c : Char) : kept c.toNat = true ↔ c ≠ '=' ∧ isAsciiWhitespace c.toNat = false := by
  have equals : c.toNat = 61 ↔ c = '=' := Char.toNat_inj (c := c) (d := '=')
  rw [kept, Bool.not_eq_true', Bool.or_eq_false_iff, beq_eq_false_iff_ne, Ne, equals]

theorem encode_large {c : Char} (large : 0x80 ≤ c.toNat) : ∀ b ∈ Utf8.encode c, 0x80 ≤ b := by
  intro b member
  rcases Utf8.encode_cases c with ⟨small, _⟩ | ⟨_, _, code⟩ | ⟨_, _, code⟩ | ⟨_, _, code⟩
  · omega
  all_goals
    rw [code] at member
    simp only [List.mem_cons, List.not_mem_nil, or_false] at member
    omega

/-- A character is foreign exactly when one of its bytes is neither skipped nor a symbol. -/
theorem foreign_iff (c : Char) : Foreign c ↔ ∃ b ∈ Utf8.encode c, kept b = true ∧ base64Value b = none := by
  by_cases small : c.toNat < 0x80
  · rw [Utf8.encode_one small]
    simp only [List.mem_singleton, exists_eq_left]
    rw [kept_iff, value_eq_none_iff, Foreign, and_comm]
  · have large := Nat.not_lt.mp small
    constructor
    · intro _
      obtain ⟨b, member⟩ := List.exists_mem_of_ne_nil _ (Utf8.encode_ne_nil c)
      have high := encode_large large b member
      refine ⟨b, member, ?_, value_large high⟩
      rw [kept, Bool.not_eq_true', Bool.or_eq_false_iff, beq_eq_false_iff_ne]
      refine ⟨by omega, Bool.eq_false_iff.mpr fun white => ?_⟩
      exact absurd (whitespace_small white) (Nat.not_lt.mpr high)
    · intro _
      have white : isAsciiWhitespace c.toNat = false := Bool.eq_false_iff.mpr fun white => small (whitespace_small white)
      refine ⟨fun member => small (alphabet_kept c member).1, ?_, white⟩
      rintro rfl
      exact absurd large (by decide)

theorem ascii_of_native {c : Char} (native : ¬Foreign c) : c.toNat < 0x80 := by
  by_contra large
  apply native
  refine ⟨fun member => large (alphabet_kept c member).1, ?_, Bool.eq_false_iff.mpr fun white => large (whitespace_small white)⟩
  rintro rfl
  exact large (by decide)

end Characters

/-- What stands between the symbols does not matter. -/
theorem decode_spaced {bytes : Bytes} {text : List Char}
    (spaced : Spaced text (Base64.encode bytes) ∨ Spaced text (Base64.padded bytes)) :
    base64Decode (String.ofList text) = some bytes := by
  have symbols : (text.filter fun c => kept c.toNat) = Base64.encode bytes := by
    have unpadded : (Base64.encode bytes).filter (fun c => decide (c ≠ '=')) = Base64.encode bytes := by
      apply List.filter_eq_self.mpr
      intro c member
      exact decide_eq_true ((kept_iff c).mp (alphabet_kept c (Base64.encode_mem member)).2).1
    have twice : (text.filter fun c => kept c.toNat) =
        (text.filter fun c => !isAsciiWhitespace c.toNat).filter fun c => decide (c ≠ '=') := by
      rw [List.filter_filter]
      apply List.filter_congr
      intro c _
      rw [Bool.eq_iff_iff, kept_iff, Bool.and_eq_true, decide_eq_true_iff, Bool.not_eq_true']
    rcases spaced with bare | full
    · rw [twice, bare, unpadded]
    · rw [twice, full, Base64.padded, List.filter_append, unpadded, List.filter_replicate, if_neg (by decide),
        List.append_nil]
  have small : ∀ c ∈ text, c.toNat < 0x80 := by
    intro c member
    by_cases keep : kept c.toNat = true
    · have listed : c ∈ text.filter fun c => kept c.toNat := List.mem_filter.mpr ⟨member, keep⟩
      rw [symbols] at listed
      exact (alphabet_kept c (Base64.encode_mem listed)).1
    · apply ascii_of_native
      intro foreign
      exact keep ((kept_iff c).mpr foreign.2)
  have codes : Utf8.bytes (String.ofList text) = text.map Char.toNat := by
    rw [Utf8.bytes_of_ascii (by rwa [String.toList_ofList]), Utf8.codePoints, String.toList_ofList]
  have values : ((Utf8.bytes (String.ofList text)).filter kept).mapM base64Value =
      some ((Base64.sextets bytes).map UInt8.ofNat) := by
    rw [codes, List.filter_map, Function.comp_def, symbols, Base64.encode, List.map_map, List.mapM_map]
    exact Partial.mapM_some fun n member => value_symbol n (Base64.sextets_lt bytes n member)
  rw [base64Decode_eq, values, Option.bind_some, closed_sextets, List.nil_append]

theorem groups_left (values out : Bytes) : (groups out values).2.length = values.length % 4 := by
  induction out, values using groups.induct with
  | case1 out c0 c1 c2 c3 rest ih =>
    rw [groups, ih]
    simp only [List.length_cons]
    omega
  | case2 out rest short =>
    have fewer : rest.length ≤ 3 := by
      rcases rest with _ | ⟨c0, _ | ⟨c1, _ | ⟨c2, _ | ⟨c3, rest⟩⟩⟩⟩
      · simp
      · simp
      · simp
      · simp
      · exact absurd rfl (short c0 c1 c2 c3 rest)
    rw [groups_short fewer]
    change rest.length = rest.length % 4
    rw [Nat.mod_eq_of_lt (by omega)]

theorem closed_eq_none_iff {r : Bytes × Bytes} (short : r.2.length < 4) : closed r = none ↔ r.2.length = 1 := by
  obtain ⟨out, rest⟩ := r
  rcases rest with _ | ⟨c0, _ | ⟨c1, _ | ⟨c2, _ | ⟨c3, rest⟩⟩⟩⟩
  · simp [closed]
  · simp [closed]
  · simp [closed]
  · simp [closed]
  · simp only [List.length_cons] at short
    omega

/-- A text is refused for a foreign character or for a single symbol left over, and for nothing else. -/
theorem decode_eq_none_iff (s : String) :
    base64Decode s = none ↔ (∃ c ∈ s.toList, Foreign c) ∨ symbols s.toList % 4 = 1 := by
  have foreign : ((Utf8.bytes s).filter kept).mapM base64Value = none ↔ ∃ c ∈ s.toList, Foreign c := by
    rw [Partial.mapM_eq_none_iff]
    simp only [foreign_iff, List.mem_filter, Utf8.bytes, List.mem_flatMap]
    constructor
    · rintro ⟨b, ⟨⟨c, member, inside⟩, keep⟩, none⟩
      exact ⟨c, member, b, inside, keep, none⟩
    · rintro ⟨c, member, b, inside, keep, none⟩
      exact ⟨b, ⟨⟨c, member, inside⟩, keep⟩, none⟩
  rw [base64Decode_eq]
  cases read : ((Utf8.bytes s).filter kept).mapM base64Value with
  | none => exact ⟨fun _ => Or.inl (foreign.mp read), fun _ => rfl⟩
  | some values =>
    have native : ∀ c ∈ s.toList, ¬Foreign c := by
      intro c member apart
      rw [foreign.mpr ⟨c, member, apart⟩] at read
      cases read
    have count : values.length = symbols s.toList := by
      rw [Partial.length_mapM read, Utf8.bytes_of_ascii fun c member => ascii_of_native (native c member), Utf8.codePoints, List.filter_map,
        List.length_map, symbols]
      congr 1
      apply List.filter_congr
      intro c member
      rw [Function.comp_apply, Bool.eq_iff_iff, decide_eq_true_iff]
      constructor
      · intro keep
        by_contra absent
        exact native c member ⟨absent, (kept_iff c).mp keep⟩
      · exact fun listed => (alphabet_kept c listed).2
    have left := groups_left values []
    have fewer : (groups [] values).2.length < 4 := by omega
    rw [Option.bind_some, closed_eq_none_iff fewer, left, count]
    constructor
    · exact Or.inr
    · rintro (⟨c, member, apart⟩ | one)
      · exact absurd apart (native c member)
      · exact one

section Uuids

theorem hexDigit_eq : ∀ n < 16, hexDigit n = Hex.digit n := by decide

theorem join_hexByte (bytes : Bytes) : (String.join (bytes.map hexByte)).toList = Hex.encode bytes := by
  rw [String.toList_join, List.flatMap_map, Hex.encode]
  apply List.flatMap_congr
  intro b _
  rw [hexByte, String.toList_ofList, hexDigit_eq _ (Hex.high_lt b), hexDigit_eq _ (Hex.low_lt b)]

theorem decodeUid_sixteen {bytes : Bytes} {text : String} (sixteen : bytes.length = 16)
    (decoded : base64Decode text = some bytes) : decodeUid text = some (String.ofList (hyphenated bytes)) := by
  have last : (bytes.drop 10).take 6 = bytes.drop 10 := by
    apply List.take_of_length_le
    rw [List.length_drop]
    omega
  rw [decodeUid, decoded]
  dsimp only
  rw [if_pos (Nat.le_of_eq sixteen.symm)]
  congr 1
  rw [← String.toList_inj]
  have hyphen : "-".toList = ['-'] := rfl
  simp only [String.toList_append, join_hexByte, String.toList_ofList, hyphenated, List.drop_zero, last, hyphen,
    List.append_assoc, List.cons_append, List.nil_append]

theorem digit_ne_hyphen (c : Char) (member : c ∈ Hex.alphabet) : decide (c ≠ '-') = true := by
  have all : Hex.alphabet.all (fun c => decide (c ≠ '-')) = true := by decide
  exact List.all_eq_true.mp all c member

/-- The digits are left when the hyphens are taken out. -/
theorem hyphenated_digits (bytes : Bytes) : (hyphenated bytes).filter (fun c => decide (c ≠ '-')) = Hex.encode bytes := by
  have plain (part : Bytes) : (Hex.encode part).filter (fun c => decide (c ≠ '-')) = Hex.encode part :=
    List.filter_eq_self.mpr fun c member => digit_ne_hyphen c (Hex.encode_mem member)
  have hyphen (rest : List Char) : ('-' :: rest).filter (fun c => decide (c ≠ '-')) =
      rest.filter fun c => decide (c ≠ '-') := rfl
  have parts : bytes = bytes.take 4 ++ ((bytes.drop 4).take 2 ++ ((bytes.drop 6).take 2 ++ ((bytes.drop 8).take 2 ++
      bytes.drop 10))) := by
    have third := List.take_append_drop 2 (bytes.drop 8)
    have second := List.take_append_drop 2 (bytes.drop 6)
    have first := List.take_append_drop 2 (bytes.drop 4)
    rw [List.drop_drop] at first second third
    rw [third, second, first, List.take_append_drop]
  conv_rhs => rw [parts]
  simp only [hyphenated, List.append_assoc, List.filter_append, hyphen, plain, List.cons_append, Hex.encode_append]

end Uuids

/-- Base64 texts are read back through any white space, all others are refused, and a UUID spells its sixteen bytes. -/
theorem base64_decoding_is_exact :
    (∀ (bytes : Bytes) (text : List Char), Spaced text (Base64.encode bytes) ∨ Spaced text (Base64.padded bytes) →
      base64Decode (String.ofList text) = some bytes) ∧
    (∀ s : String, base64Decode s = none ↔ (∃ c ∈ s.toList, Foreign c) ∨ symbols s.toList % 4 = 1) ∧
    (∀ (bytes : Bytes) (text : List Char), bytes.length = 16 →
      Spaced text (Base64.encode bytes) ∨ Spaced text (Base64.padded bytes) →
      decodeUid (String.ofList text) = some (String.ofList (hyphenated bytes))) ∧
    ∀ a b : Bytes, String.ofList (hyphenated a) = String.ofList (hyphenated b) → a = b := by
  refine ⟨fun _ _ => decode_spaced, decode_eq_none_iff, ?_, ?_⟩
  · intro bytes text sixteen spaced
    exact decodeUid_sixteen sixteen (decode_spaced spaced)
  · intro a b same
    have texts := congrArg String.toList same
    rw [String.toList_ofList, String.toList_ofList] at texts
    apply Hex.encode_injective
    rw [← hyphenated_digits a, texts, hyphenated_digits]

/-- A track's UUID from a padded text with a line break in it. -/
theorem folded_uid_is_read : decodeUid "DFjLwA22RXiK\nSAWh2eBOGQ==" = some "0c58cbc0-0db6-4578-8a48-05a1d9e04e19" := by
  have read := base64_decoding_is_exact.2.2.1 [0x0c, 0x58, 0xcb, 0xc0, 0x0d, 0xb6, 0x45, 0x78, 0x8a, 0x48, 0x05, 0xa1, 0xd9,
    0xe0, 0x4e, 0x19] "DFjLwA22RXiK\nSAWh2eBOGQ==".toList rfl (Or.inr (by decide +kernel))
  rw [String.ofList_toList] at read
  rw [read]
  decide +kernel

end Stanag4676Proof
