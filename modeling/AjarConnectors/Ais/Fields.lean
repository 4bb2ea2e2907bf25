import AjarConnectors.Ais.Bits
import AjarConnectors.Http.Requests

namespace FeedModel

/-- One call on the writer. -/
inductive Field where
  | unsigned (value : UInt64) (width : Nat)
  | signed (value : Int64) (width : Nat)
  | text (s : String) (chars : Nat)

namespace Field

def width : Field → Nat
  | unsigned _ width => width
  | signed _ width => width
  | text _ chars => 6 * chars

/-- The widths both sides can shift by: `value >> i` and `1 << width` on 64 bits, and `1 << (n - 1)`. -/
def Fits : Field → Prop
  | unsigned _ width => width ≤ 64
  | signed _ width => 1 ≤ width ∧ width ≤ 63
  | text _ _ => True

end Field

def Bits.put (b : Bits) : Field → Bits
  | .unsigned value width => b.u value width
  | .signed value width => b.i value width
  | .text s chars => b.text s chars

def writeFields (fields : List Field) : Bits := fields.foldl Bits.put {}

def fieldsWidth (fields : List Field) : Nat := (fields.map Field.width).sum

end FeedModel

namespace AisModel

open HttpModel (Text trimText)
open FeedModel (Field)

/-- The character a byte is shown as: upper-cased, or a space outside the six-bit set. -/
def sixBitChar (b : UInt8) : Char :=
  let c := FeedModel.Bits.toAsciiUppercase b
  if 32 ≤ c ∧ c ≤ 95 then Char.ofNat c.toNat else ' '

def padded (s : String) (chars : Nat) : Text :=
  (List.range chars).map fun i => sixBitChar ((Utf8.encodeText s.toList).getD i 32)

/-- What is left of a text: `@` trimmed at the end, then white space at both ends; nothing if that is
    all there is. -/
def shownText (s : String) (chars : Nat) : Option Text :=
  let shown := trimText (TextModel.trimEndMatches (· == '@') (padded s chars))
  if shown.isEmpty then none else some shown

/-- The field reads back at its offset; a number is cut to its width. -/
def ReadsBack (b : Bits) (start : Nat) : Field → Prop
  | .unsigned value width => b.optU start width = some (value.toNat % 2^width)
  | .signed value width => b.optI start width = some (value.toInt.bmod (2^width))
  | .text s chars => b.optText start (6 * chars) = shownText s chars

end AisModel

namespace AisProof

open BitString AisModel
open FeedModel (Field writeFields fieldsWidth)

/-- The bits one call writes. -/
def fieldBits : Field → List Bool
  | .unsigned value width => digits value.toNat width
  | .signed value width => digits (value.toUInt64 &&& UInt64.ofNat (2^width - 1)).toNat width
  | .text s chars => (List.range chars).flatMap fun i =>
      digits (FeedModel.Bits.sixOf (FeedModel.Bits.toAsciiUppercase ((Utf8.encodeText s.toList).getD i 32))).toNat 6

theorem written_text (b : FeedModel.Bits) (bytes : List UInt8) (chars : Nat) :
    (FeedModel.Bits.text.go b bytes chars).bits = b.bits ++ (List.range chars).flatMap fun i =>
      digits (FeedModel.Bits.sixOf (FeedModel.Bits.toAsciiUppercase (bytes.getD i 32))).toNat 6 := by
  induction chars generalizing b bytes with
  | zero =>
    rw [FeedModel.Bits.text.go.eq_def]
    simp
  | succ chars ih =>
    rw [List.range_succ_eq_map, List.flatMap_cons, List.flatMap_map, ← List.append_assoc]
    cases bytes with
    | nil =>
      rw [FeedModel.Bits.text.go, ih, written_u]
      rfl
    | cons c rest =>
      rw [FeedModel.Bits.text.go, ih, written_u]
      rfl

theorem written_put (b : FeedModel.Bits) (f : Field) : (b.put f).bits = b.bits ++ fieldBits f := by
  cases f with
  | unsigned value width => exact written_u b value width
  | signed value width => exact written_u b _ width
  | text s chars => exact written_text b _ chars

theorem written_fields (fields : List Field) : (writeFields fields).bits = fields.flatMap fieldBits := by
  have general : ∀ b : FeedModel.Bits, (fields.foldl FeedModel.Bits.put b).bits = b.bits ++ fields.flatMap fieldBits := by
    induction fields with
    | nil => exact fun b => (List.append_nil b.bits).symm
    | cons f fields ih =>
      intro b
      rw [List.foldl_cons, ih, written_put, List.flatMap_cons, List.append_assoc]
  exact general {}

theorem sixes_length (xs : List Nat) : (xs.flatMap fun x => digits x 6).length = 6 * xs.length := by
  induction xs with
  | nil => rfl
  | cons x xs ih =>
    rw [List.flatMap_cons, List.length_append, digits_length, ih, List.length_cons]
    omega

theorem fieldBits_length (f : Field) : (fieldBits f).length = f.width := by
  cases f with
  | unsigned value width => exact digits_length _ width
  | signed value width => exact digits_length _ width
  | text s chars =>
    have six := sixes_length ((List.range chars).map fun i =>
      (FeedModel.Bits.sixOf (FeedModel.Bits.toAsciiUppercase ((Utf8.encodeText s.toList).getD i 32))).toNat)
    rw [List.flatMap_map, List.length_map, List.length_range] at six
    exact six

theorem fields_length (fields : List Field) : (fields.flatMap fieldBits).length = fieldsWidth fields := by
  rw [List.length_flatMap, fieldsWidth]
  congr 1
  exact List.map_congr_left fun f _ => fieldBits_length f

theorem sixes_window {xs : List Nat} {i : Nat} (inside : i < xs.length) (rest : List Bool) :
    (((xs.flatMap fun x => digits x 6) ++ rest).drop (6 * i)).take 6 = digits xs[i] 6 := by
  induction xs generalizing i with
  | nil => exact absurd inside (Nat.not_lt_zero i)
  | cons x xs ih =>
    rw [List.flatMap_cons, List.append_assoc]
    cases i with
    | zero =>
      rw [Nat.mul_zero, List.drop_zero, List.take_append_of_le_length (by simp),
        List.take_of_length_le (by simp), List.getElem_cons_zero]
    | succ i =>
      rw [List.getElem_cons_succ, ← ih (by simpa using inside), List.drop_append, digits_length,
        List.drop_of_length_le (by rw [digits_length]; omega), List.nil_append]
      congr 2

theorem shown_byte (b : UInt8) :
    sixbitAscii.getD ((FeedModel.Bits.sixOf (FeedModel.Bits.toAsciiUppercase b)).toNat % 2^6) '@' = sixBitChar b := by
  revert b
  apply HttpProof.all_bytes
  decide +kernel

theorem asI64_small {x : Int} (low : -9223372036854775808 ≤ x) (high : x < 9223372036854775808) : asI64 x = x :=
  Int.bmod_eq_of_le (by simpa using low) (by simpa using high)

/-- The reader's two's complement of the low bits. -/
theorem signed_low (value : Int64) {width : Nat} (some : 1 ≤ width) (fits : width ≤ 63) :
    (if (value.toUInt64.toNat % 2^width).testBit (width - 1) then
        asI64 (asI64 ↑(value.toUInt64.toNat % 2^width) - asI64 (2^width))
      else asI64 ↑(value.toUInt64.toNat % 2^width)) = value.toInt.bmod (2^width) := by
  obtain ⟨w, rfl⟩ : ∃ w, width = w + 1 := ⟨width - 1, by omega⟩
  have low : value.toInt.bmod (2^(w + 1)) = (value.toUInt64.toNat : Int).bmod (2^(w + 1)) := by
    have whole : value.toInt = (value.toUInt64.toNat : Int).bmod (2^64) := BitVec.toInt_eq_toNat_bmod value.toBitVec
    rw [whole]
    exact Int.bmod_bmod_of_dvd (Nat.pow_dvd_pow 2 (by omega))
  have power : 2^(w + 1) ≤ 2^63 := Nat.pow_le_pow_right (by omega) fits
  have half : (2 : Nat)^(w + 1) = 2 * 2^w := Nat.pow_succ'
  have small : value.toUInt64.toNat % 2^(w + 1) < 2^(w + 1) := Nat.mod_lt _ (Nat.two_pow_pos _)
  have cast : ((2 : Int)^(w + 1)) = ((2^(w + 1) : Nat) : Int) := by norm_cast
  rw [low, Int.bmod_def, ← Int.natCast_mod, Nat.add_sub_cancel, testBit_top small, cast]
  generalize value.toUInt64.toNat % 2^(w + 1) = u at small
  by_cases upper : 2^w ≤ u
  · rw [if_pos (by simpa using upper), if_neg (by omega), asI64, asI64, asI64, Int.bmod_sub_bmod, Int.sub_bmod_bmod]
    exact asI64_small (by omega) (by omega)
  · rw [if_neg (by simpa using upper), if_pos (by omega)]
    exact asI64_small (by omega) (by omega)

theorem masked_low (value : UInt64) {width : Nat} (fits : width ≤ 63) :
    (value &&& UInt64.ofNat (2^width - 1)).toNat % 2^width = value.toNat % 2^width := by
  have power : 2^width ≤ 2^63 := Nat.pow_le_pow_right (by omega) fits
  have mask : (UInt64.ofNat (2^width - 1)).toNat = 2^width - 1 := UInt64.toNat_ofNat_of_lt' (by
    change 2^width - 1 < 2^64
    omega)
  rw [UInt64.toNat_and, mask, Nat.and_two_pow_sub_one_eq_mod, Nat.mod_mod]

section

variable {b : Bits} {before after : List Bool}

theorem digits_window (value width : Nat) :
    ((before ++ digits value width ++ after).drop before.length).take width = digits value width := by
  have taken : (digits value width ++ after).take (digits value width).length = digits value width := List.take_left
  rw [digits_length] at taken
  rw [List.append_assoc, List.drop_left, taken]

theorem read_digits {value width : Nat} (fits : width ≤ 64) (holds : Holds b (before ++ digits value width ++ after)) :
    b.optU before.length width = some (value % 2^width) := by
  rw [holds.optU (by simp) fits, digits_window, number_digits]

theorem read_six {xs : List Nat} {i : Nat} (inside : i < xs.length)
    (holds : Holds b (before ++ (xs.flatMap fun x => digits x 6) ++ after)) :
    b.u (before.length + i * 6) 6 = xs[i] % 2^6 := by
  rw [holds.u _ (by decide), List.append_assoc, ← List.drop_drop, List.drop_left, Nat.mul_comm,
    sixes_window inside, number_digits]
  rw [List.length_append, List.length_append, sixes_length]
  omega

theorem read_text {s : String} {chars : Nat} (holds : Holds b (before ++ fieldBits (.text s chars) ++ after)) :
    b.optText before.length (6 * chars) = shownText s chars := by
  let sixes := (List.range chars).map fun i =>
    (FeedModel.Bits.sixOf (FeedModel.Bits.toAsciiUppercase ((Utf8.encodeText s.toList).getD i 32))).toNat
  have bits : fieldBits (.text s chars) = sixes.flatMap fun x => digits x 6 := by
    rw [List.flatMap_map]
    rfl
  rw [bits] at holds
  have count : sixes.length = chars := by rw [List.length_map, List.length_range]
  have shown : (List.range chars).map (fun i => sixbitAscii.getD (b.u (before.length + i * 6) 6) '@') = padded s chars := by
    apply List.map_congr_left
    intro i member
    rw [List.mem_range] at member
    rw [read_six (by rw [count]; exact member) holds, List.getElem_map, List.getElem_range, shown_byte]
  have inside : ¬ b.validBits < before.length + 6 * chars := by
    rw [holds.valid, List.length_append, List.length_append, sixes_length, count]
    omega
  rw [Bits.optText, if_neg inside, Nat.mul_div_cancel_left chars (by decide)]
  simp only [shown]
  rfl

/-- A field that stands between others is read back. -/
theorem reads_back (f : Field) (fits : f.Fits) (holds : Holds b (before ++ fieldBits f ++ after)) :
    ReadsBack b before.length f := by
  cases f with
  | unsigned value width => exact read_digits fits holds
  | signed value width =>
    have read : b.optU before.length width = some (value.toUInt64.toNat % 2^width) := by
      rw [← masked_low _ fits.2]
      exact read_digits (Nat.le_succ_of_le fits.2) holds
    change b.optI before.length width = _
    rw [Bits.optI, read, Option.map_some, signed_low value fits.1 fits.2]
  | text s chars => exact read_text holds

end

/-- Every field of a message is read back at the place where it was written. -/
theorem fields_read_back {b : Bits} (before after : List Field) {f : Field} (fits : f.Fits)
    (holds : Holds b (writeFields (before ++ f :: after)).bits) : ReadsBack b (fieldsWidth before) f := by
  rw [written_fields, List.flatMap_append, List.flatMap_cons, ← List.append_assoc] at holds
  have back := reads_back f fits holds
  rwa [fields_length] at back

end AisProof
