import AjarConnectors.BitString.BigEndian
import AjarConnectors.Builder.Calls
import AjarConnectors.Http.Server
import AjarConnectors.Utf8.RoundTrip

namespace FeedModel

/-- The six-bit ASCII armouring every AIS payload character uses. -/
def armour (six : Nat) : Nat := if 87 < six + 48 then six + 48 + 8 else six + 48

/-- A big-endian bit writer for an AIS payload. -/
structure Bits where
  bits : List Bool := []

namespace Bits

def u (b : Bits) (value : UInt64) (width : Nat) : Bits :=
  ⟨b.bits ++ (List.range width).reverse.map fun i => (value.toNat >>> i) &&& 1 == 1⟩

def i (b : Bits) (value : Int64) (width : Nat) : Bits :=
  b.u (value.toUInt64 &&& UInt64.ofNat (2^width - 1)) width

/-- `u8::to_ascii_uppercase`. -/
def toAsciiUppercase (c : UInt8) : UInt8 := if 97 ≤ c ∧ c ≤ 122 then c - 32 else c

def sixOf (c : UInt8) : UInt8 := if 64 ≤ c ∧ c ≤ 95 then c - 64 else if 32 ≤ c ∧ c ≤ 63 then c else 32

/-- Six-bit text, space-padded to `chars` characters. -/
def text (b : Bits) (s : String) : Nat → Bits := go b (Utf8.encodeText s.toList)
where
  go (b : Bits) : List UInt8 → Nat → Bits
    | _, 0 => b
    | [], chars + 1 => go (b.u (sixOf (toAsciiUppercase 32)).toUInt64 6) [] chars
    | c :: rest, chars + 1 => go (b.u (sixOf (toAsciiUppercase c)).toUInt64 6) rest chars

def sixAt (bits : List Bool) (i : Nat) : Nat :=
  (List.range 6).foldl (fun six k => 2 * six + (bits.getD (i + k) false).toNat) 0

/-- The armoured payload and the fill bits that pad it to whole characters. -/
def armoured (b : Bits) : HttpModel.Text × Nat :=
  ((List.range ((b.bits.length + 5) / 6)).map fun k => Char.ofNat (armour (sixAt b.bits (6 * k))),
    (6 - b.bits.length % 6) % 6)

end Bits

end FeedModel

namespace AisModel

open TextModel HttpModel

inductive AisError where
  | notAscii
  | notNmea
  | checksum
  | fields
  | armor (c : UInt8)
  | truncated
  | build (error : BuilderModel.BuildError)
  deriving DecidableEq

/-- The AIS 6-bit character set, used for names and call signs. -/
def sixbitAscii : Text := "@ABCDEFGHIJKLMNOPQRSTUVWXYZ[\\]^_ !\"#$%&'()*+,-./0123456789:;<=>?".toList

structure Bits where
  six : List Nat
  validBits : Nat

/-- `x as i64`. -/
def asI64 (x : Int) : Int := x.bmod 18446744073709551616

namespace Bits

def dearmour (c : UInt8) : Except AisError Nat :=
  let v : Int := c.toNat - 48
  let v := if 40 < v then v - 8 else v
  if 0 ≤ v ∧ v ≤ 63 then .ok v.toNat else .error (.armor c)

def fromPayload (payload : Text) (fill : Nat) : Except AisError Bits := do
  let six ← (Utf8.encodeText payload).mapM dearmour
  .ok ⟨six, six.length * 6 - fill⟩

def bit (b : Bits) (i : Nat) : Bool := (b.six.getD (i / 6) 0 >>> (5 - i % 6)) &&& 1 == 1

def u (b : Bits) (start n : Nat) : Nat :=
  (List.range n).foldl (fun val i => (2 * val + (b.bit (start + i)).toNat) % 18446744073709551616) 0

/-- `None` if the `n` bits run past the valid payload. -/
def optU (b : Bits) (start n : Nat) : Option Nat := if start + n ≤ b.validBits then some (b.u start n) else none

/-- Two's complement; `None` if the `n` bits run past the valid payload. -/
def optI (b : Bits) (start n : Nat) : Option Int :=
  (b.optU start n).map fun u => if u.testBit (n - 1) then asI64 (asI64 u - asI64 (2^n)) else asI64 u

/-- A 6-bit text field trimmed of `@` padding and whitespace; `None` if it runs past the payload or is
    empty. -/
def optText (b : Bits) (start bits : Nat) : Option Text :=
  if b.validBits < start + bits then none
  else
    let s := (List.range (bits / 6)).map fun i => sixbitAscii.getD (b.u (start + i * 6) 6) '@'
    let s := trimText (trimEndMatches (· == '@') s)
    if s.isEmpty then none else some s

end Bits

end AisModel

namespace AisProof

open BitString AisModel

theorem shifted_bit (value i : Nat) : ((value >>> i) &&& 1 == 1) = value.testBit i := by
  rw [Nat.testBit_eq_decide_div_mod_eq, Nat.and_one_is_mod, Nat.shiftRight_eq_div_pow, beq_eq_decide]

theorem written_u (b : FeedModel.Bits) (value : UInt64) (width : Nat) :
    (b.u value width).bits = b.bits ++ digits value.toNat width := by
  have same : (fun i => (value.toNat >>> i) &&& 1 == 1) = value.toNat.testBit := funext (shifted_bit value.toNat)
  rw [FeedModel.Bits.u, same]
  rfl

theorem foldl_number (f : Nat → Bool) (n : Nat) :
    (List.range n).foldl (fun six k => 2 * six + (f k).toNat) 0 = number ((List.range n).map f) := by
  rw [number, List.foldl_map]

theorem foldl_number_wrapping (f : Nat → Bool) {n : Nat} (fits : n ≤ 64) :
    (List.range n).foldl (fun val i => (2 * val + (f i).toNat) % 18446744073709551616) 0 =
      number ((List.range n).map f) := by
  induction n with
  | zero => rfl
  | succ n ih =>
    rw [List.range_succ, List.foldl_append, ih (by omega), List.map_append, List.map_singleton, number_concat]
    have small := number_lt ((List.range n).map f ++ [f n])
    rw [number_concat, List.length_append, List.length_map, List.length_range, List.length_singleton] at small
    have whole : 2^(n + 1) ≤ 2^64 := Nat.pow_le_pow_right (by omega) fits
    exact Nat.mod_eq_of_lt (by omega)

/-- The payload holds these bits and no others. -/
structure Holds (b : Bits) (bits : List Bool) : Prop where
  valid : b.validBits = bits.length
  bit : ∀ i, (inside : i < bits.length) → b.bit i = bits[i]

namespace Holds

variable {b : Bits} {bits : List Bool}

theorem window (holds : Holds b bits) {start n : Nat} (inside : start + n ≤ bits.length) :
    (List.range n).map (fun i => b.bit (start + i)) = (bits.drop start).take n := by
  apply List.ext_getElem
  · rw [List.length_map, List.length_range, List.length_take, List.length_drop]
    omega
  · intro i left right
    rw [List.length_map, List.length_range] at left
    rw [List.getElem_map, List.getElem_range, List.getElem_take, List.getElem_drop]
    exact holds.bit (start + i) (by omega)

theorem u (holds : Holds b bits) {start n : Nat} (inside : start + n ≤ bits.length) (fits : n ≤ 64) :
    b.u start n = number ((bits.drop start).take n) := by
  rw [Bits.u, foldl_number_wrapping _ fits, holds.window inside]

theorem optU_past (holds : Holds b bits) {start n : Nat} (past : bits.length < start + n) : b.optU start n = none := by
  rw [Bits.optU, if_neg (by rw [holds.valid]; omega)]

theorem optU (holds : Holds b bits) {start n : Nat} (inside : start + n ≤ bits.length) (fits : n ≤ 64) :
    b.optU start n = some (number ((bits.drop start).take n)) := by
  rw [Bits.optU, if_pos (by rw [holds.valid]; exact inside), holds.u inside fits]

theorem optI_past (holds : Holds b bits) {start n : Nat} (past : bits.length < start + n) : b.optI start n = none := by
  rw [Bits.optI, holds.optU_past past]
  rfl

theorem optText_past (holds : Holds b bits) {start n : Nat} (past : bits.length < start + n) :
    b.optText start n = none := by
  rw [Bits.optText, if_pos (by rw [holds.valid]; exact past)]

end Holds

theorem dearmour_armour : ∀ six < 64, Bits.dearmour (UInt8.ofNat (FeedModel.armour six)) = .ok six := by decide

theorem armour_byte : ∀ six < 64, String.utf8EncodeChar (Char.ofNat (FeedModel.armour six)) =
    [UInt8.ofNat (FeedModel.armour six)] := by decide

theorem sixAt_eq (bits : List Bool) (i : Nat) :
    FeedModel.Bits.sixAt bits i = number ((List.range 6).map fun k => bits.getD (i + k) false) :=
  foldl_number (fun k => bits.getD (i + k) false) 6

theorem sixAt_lt (bits : List Bool) (i : Nat) : FeedModel.Bits.sixAt bits i < 64 := by
  rw [sixAt_eq]
  simpa using number_lt ((List.range 6).map fun k => bits.getD (i + k) false)

theorem sixAt_bit (bits : List Bool) (i k : Nat) (inside : k < 6) :
    (FeedModel.Bits.sixAt bits i).testBit (5 - k) = bits.getD (i + k) false := by
  have bit := number_testBit ((List.range 6).map fun k => bits.getD (i + k) false) k (by simpa using inside)
  simp only [List.length_map, List.length_range, List.getElem_map, List.getElem_range] at bit
  rw [sixAt_eq]
  exact bit

theorem mapM_dearmour {sixes : List Nat} (small : ∀ six ∈ sixes, six < 64) :
    (Utf8.encodeText (sixes.map fun six => Char.ofNat (FeedModel.armour six))).mapM Bits.dearmour = .ok sixes := by
  induction sixes with
  | nil => rfl
  | cons six sixes ih =>
    have first := small six List.mem_cons_self
    rw [List.map_cons]
    change (String.utf8EncodeChar _ ++ Utf8.encodeText _).mapM Bits.dearmour = _
    rw [armour_byte six first, List.singleton_append, List.mapM_cons, dearmour_armour six first,
      ih fun other member => small other (List.mem_cons_of_mem _ member)]
    rfl

def sixesOf (bits : List Bool) : List Nat :=
  (List.range ((bits.length + 5) / 6)).map fun k => FeedModel.Bits.sixAt bits (6 * k)

theorem armoured_sixes (b : FeedModel.Bits) :
    b.armoured.1 = (sixesOf b.bits).map fun six => Char.ofNat (FeedModel.armour six) := by
  rw [sixesOf, List.map_map]
  rfl

theorem sixesOf_small (bits : List Bool) : ∀ six ∈ sixesOf bits, six < 64 := by
  intro six member
  rcases List.mem_map.mp member with ⟨k, _, rfl⟩
  exact sixAt_lt bits (6 * k)

/-- What the writer armoured is the payload the reader holds. -/
theorem fromPayload_armoured (b : FeedModel.Bits) :
    ∃ r, Bits.fromPayload b.armoured.1 b.armoured.2 = .ok r ∧ Holds r b.bits := by
  refine ⟨⟨sixesOf b.bits, (sixesOf b.bits).length * 6 - b.armoured.2⟩, ?_, ?_, ?_⟩
  · rw [Bits.fromPayload, armoured_sixes, mapM_dearmour (sixesOf_small b.bits)]
    rfl
  · simp only [sixesOf, FeedModel.Bits.armoured, List.length_map, List.length_range]
    omega
  · intro i inside
    rw [Bits.bit, shifted_bit, sixesOf, List.getD_eq_getElem?_getD, List.getElem?_map,
      List.getElem?_range (by omega), Option.map_some, Option.getD_some,
      sixAt_bit _ _ _ (Nat.mod_lt _ (by decide)), Nat.div_add_mod, List.getD_eq_getElem _ _ inside]

end AisProof
