import AjarConnectors.ByteString.BigEndian
import AjarConnectors.Klv.Acceptance

namespace KlvModel

open EventModel HttpModel
open Ber (Tag Length Item concat)

/-- A length in as few bytes as it needs, up to two behind their count. -/
def berLen (n : Nat) : Bytes :=
  if n < 0x80 then [UInt8.ofNat n]
  else if n ≤ 0xff then [0x81, UInt8.ofNat n]
  else [0x82, UInt8.ofNat (n >>> 8), UInt8.ofNat (n &&& 0xff)]

def tlv (tag : UInt8) (val : Bytes) : Bytes := [tag] ++ berLen val.length ++ val

/-- A valid ST 0601 set from body items, with a correct checksum appended. -/
def buildSet (items : List Bytes) : Bytes :=
  let inner := items.flatten ++ [0x01, 0x02]
  let pkt := uasLsKey ++ berLen (inner.length + 2) ++ inner
  pkt ++ ByteString.digits (bcc16 pkt).toNat 2

/-- The value of the last item of a tag. -/
def lastOf (items : List (UInt8 × Bytes)) (tag : Nat) : Option Bytes :=
  ((items.filter fun item => item.1.toNat = tag).getLast?).map Prod.snd

/-- A value of a fixed width whose number is not the one set aside for errors. -/
def fixedWidth {α : Type} (width : Nat) (reserved : Bytes → Prop) [DecidablePred reserved] (decode : Bytes → α)
    (value : Bytes) : Option α :=
  if value.length = width ∧ ¬reserved value then some (decode value) else none

section

variable (platform : Platform)

/-- A signed number scaled from its full range. -/
def scaled (most halfDeg : F64) (width : Nat) (value : Bytes) : F64 :=
  platform.div (platform.mul (platform.ofInt ((ByteString.number value : Int).bmod (256^width))) halfDeg) most

/-- What the items of a set say, each field by the last item of its tag. -/
def fieldsOf (items : List (UInt8 × Bytes)) : Fields where
  m :=
    { timestamp := (lastOf items 2).bind fun v =>
        (fixedWidth 8 (fun _ => False) ByteString.number v).bind platform.rfc3339FromMicros
      missionId := (lastOf items 3).bind ascii
      tailNumber := (lastOf items 4).bind ascii
      headingDeg := (lastOf items 5).bind (fixedWidth 2 (fun _ => False) fun v => heading platform (ByteString.number v))
      pitchDeg := (lastOf items 6).bind
        (fixedWidth 2 (· = [0x80, 0]) (scaled platform ⟨0x40dfffc000000000⟩ ⟨0x4034000000000000⟩ 2))
      rollDeg := (lastOf items 7).bind
        (fixedWidth 2 (· = [0x80, 0]) (scaled platform ⟨0x40dfffc000000000⟩ ⟨0x4049000000000000⟩ 2))
      designation := (lastOf items 10).bind ascii
      altM := (lastOf items 15).bind (fixedWidth 2 (fun _ => False) fun v => altitude platform (ByteString.number v))
      lsVersion := (lastOf items 65).bind List.head? }
  lat := (lastOf items 13).bind
    (fixedWidth 4 (· = [0x80, 0, 0, 0]) (scaled platform ⟨0x41dfffffffc00000⟩ ⟨0x4056800000000000⟩ 4))
  lon := (lastOf items 14).bind
    (fixedWidth 4 (· = [0x80, 0, 0, 0]) (scaled platform ⟨0x41dfffffffc00000⟩ ⟨0x4066800000000000⟩ 4))

end

end KlvModel

namespace KlvProof

open KlvModel EventModel HttpModel
open Ber (Tag Length Item concat)

theorem lastOf_same (items : List (UInt8 × Bytes)) {x : UInt8 × Bytes} {n : Nat} (same : x.1.toNat = n) :
    lastOf (items ++ [x]) n = some x.2 := by
  simp [lastOf, List.filter_append, same]

theorem lastOf_other (items : List (UInt8 × Bytes)) {x : UInt8 × Bytes} {n : Nat} (other : x.1.toNat ≠ n) :
    lastOf (items ++ [x]) n = lastOf items n := by
  simp [lastOf, List.filter_append, other]

/-! The decoders, each as the value's width and the number set aside. -/

theorem beUnsigned_eq (width : Nat) (v : Bytes) :
    beUnsigned width v = fixedWidth width (fun _ => False) ByteString.number v := by
  unfold beUnsigned fixedWidth
  simp only [not_false_eq_true, and_true]
  rfl

/-- The least number of a width is that of one value. -/
theorem reserved_iff {v reserved : Bytes} (same : v.length = reserved.length)
    (half : ByteString.number reserved * 2 = 256^reserved.length) :
    (ByteString.number v : Int).bmod (256^reserved.length : Nat) = -(ByteString.number reserved : Int) ↔ v = reserved := by
  have below := ByteString.number_lt v
  have least : (ByteString.number v : Int).bmod (256^reserved.length : Nat) = -(ByteString.number reserved : Int) ↔
      ByteString.number v = ByteString.number reserved := by
    rw [same, ← half] at below
    have small : (ByteString.number v : Int) % (ByteString.number reserved * 2 : Nat) = ByteString.number v :=
      Int.emod_eq_of_lt (by omega) (by omega)
    rw [Int.bmod_def, ← half, small]
    push_cast
    split
    · omega
    · omega
  rw [least]
  constructor
  · intro numbers
    rw [← ByteString.digits_number v, numbers, same, ByteString.digits_number]
  · rintro rfl
    rfl

section

variable (platform : Platform)

theorem scaled_eq (reserved : Bytes) (half : ByteString.number reserved * 2 = 256^reserved.length) (most halfDeg : F64)
    (v : Bytes) : (beSigned reserved.length v).bind (fun n => if n = -(ByteString.number reserved : Int) then none
        else some (platform.div (platform.mul (platform.ofInt n) halfDeg) most)) =
      fixedWidth reserved.length (· = reserved) (scaled platform most halfDeg reserved.length) v := by
  unfold beSigned fixedWidth
  by_cases width : v.length = reserved.length
  · have least := reserved_iff width half
    rw [if_pos width, Option.bind_some]
    change (if (ByteString.number v : Int).bmod (256^reserved.length) = _ then _ else _) = _
    by_cases aside : v = reserved
    · rw [if_pos (least.mpr aside), if_neg fun both => both.2 aside]
    · rw [if_neg fun lowest => aside (least.mp lowest), if_pos ⟨width, aside⟩]
      rfl
  · rw [if_neg width, if_neg fun both => width both.1]
    rfl

theorem i16Scaled_eq (halfDeg : F64) (v : Bytes) : (beI16 v).bind (fun n => i16Scaled platform n halfDeg) =
    fixedWidth 2 (· = [0x80, 0]) (scaled platform ⟨0x40dfffc000000000⟩ halfDeg 2) v :=
  scaled_eq platform [0x80, 0] (by decide) ⟨0x40dfffc000000000⟩ halfDeg v

theorem i32Angle_eq (halfDeg : F64) (v : Bytes) : (beI32 v).bind (fun n => i32Angle platform n halfDeg) =
    fixedWidth 4 (· = [0x80, 0, 0, 0]) (scaled platform ⟨0x41dfffffffc00000⟩ halfDeg 4) v :=
  scaled_eq platform [0x80, 0, 0, 0] (by decide) ⟨0x41dfffffffc00000⟩ halfDeg v

theorem fixedWidth_map {α β : Type} (width : Nat) (decode : Bytes → α) (g : α → β) (v : Bytes) :
    (fixedWidth width (fun _ => False) decode v).map g = fixedWidth width (fun _ => False) (fun v => g (decode v)) v := by
  unfold fixedWidth
  split
  · rfl
  · rfl

/-- An item more replaces what its tag said before. -/
theorem take_fieldsOf (items : List (UInt8 × Bytes)) (x : UInt8 × Bytes) :
    (fieldsOf platform items).take platform (UInt32.ofNat x.1.toNat) x.2 = fieldsOf platform (items ++ [x]) := by
  have byte : (UInt32.ofNat x.1.toNat).toNat = x.1.toNat := by
    have small := x.1.toNat_lt
    rw [UInt32.toNat_ofNat']
    omega
  unfold Fields.take
  rw [byte]
  have timestamp : beU64 x.2 = fixedWidth 8 (fun _ => False) ByteString.number x.2 := beUnsigned_eq 8 x.2
  have unsigned : beU16 x.2 = fixedWidth 2 (fun _ => False) ByteString.number x.2 := beUnsigned_eq 2 x.2
  unfold fieldsOf
  split
  all_goals
    simp (disch := omega) only [lastOf_same, lastOf_other, Option.bind_some, timestamp, unsigned, fixedWidth_map, i16Scaled_eq,
      i32Angle_eq]

/-- Taken in order, the last item of each tag remains. -/
theorem foldl_take (items : List (UInt8 × Bytes)) :
    items.foldl (fun f i => f.take platform (UInt32.ofNat i.1.toNat) i.2) {} = fieldsOf platform items := by
  induction items using List.reverseRecOn with
  | nil => rfl
  | append_singleton items x ih => rw [List.foldl_append, ih, List.foldl_cons, List.foldl_nil, take_fieldsOf]

end

/-! Built sets are local sets. -/

theorem berLen_length {n : Nat} (fits : n ≤ 65535) : ∃ l : Length, l.bytes = berLen n ∧ l.value = n := by
  unfold berLen
  by_cases one : n < 0x80
  · have byte : (UInt8.ofNat n).toNat = n := by
      rw [UInt8.toNat_ofNat']
      omega
    rw [if_pos one]
    exact ⟨.short (UInt8.ofNat n) (by omega), rfl, byte⟩
  · rw [if_neg one]
    by_cases two : n ≤ 0xff
    · have byte : (UInt8.ofNat n).toNat = n := by
        rw [UInt8.toNat_ofNat']
        omega
      rw [if_pos two]
      refine ⟨.long [UInt8.ofNat n] (by simp) (by simp), rfl, ?_⟩
      simp only [Length.value, ByteString.number, List.foldl_cons, List.foldl_nil]
      omega
    · have high : (UInt8.ofNat (n >>> 8)).toNat = n / 256 := by
        rw [UInt8.toNat_ofNat', Nat.shiftRight_eq_div_pow]
        omega
      have low : (UInt8.ofNat (n &&& 0xff)).toNat = n % 256 := by
        rw [UInt8.toNat_ofNat', Nat.and_two_pow_sub_one_eq_mod n 8]
        omega
      rw [if_neg two]
      refine ⟨.long [UInt8.ofNat (n >>> 8), UInt8.ofNat (n &&& 0xff)] (by simp) (by simp), rfl, ?_⟩
      rw [Length.value, ByteString.number_pair, high, low]
      omega

theorem tlv_item {tag : UInt8} (small : tag.toNat < 128) {val : Bytes} (fits : val.length ≤ 65535) :
    ∃ i : Item, i.bytes = tlv tag val ∧ i.tag.value = tag.toNat ∧ i.value = val := by
  obtain ⟨l, bytes, value⟩ := berLen_length fits
  refine ⟨⟨.one tag small, l, val, value⟩, ?_, Tag.one_value tag small, rfl⟩
  rw [Item.bytes, Tag.one_bytes, bytes, tlv]

theorem tlv_items {items : List (UInt8 × Bytes)} (tags : ∀ i ∈ items, i.1.toNat < 128)
    (fits : ∀ i ∈ items, i.2.length ≤ 65535) : ∃ list : List Item, concat list = (items.map fun i => tlv i.1 i.2).flatten ∧
      list.map (fun i => (i.tag.value, i.value)) = items.map fun i => (i.1.toNat, i.2) := by
  induction items with
  | nil => exact ⟨[], rfl, rfl⟩
  | cons x items ih =>
    rw [List.forall_mem_cons] at tags fits
    obtain ⟨list, bytes, values⟩ := ih tags.2 fits.2
    obtain ⟨i, item, tag, value⟩ := tlv_item tags.1 fits.1
    refine ⟨i :: list, ?_, ?_⟩
    · rw [Ber.concat_cons, item, bytes, List.map_cons, List.flatten_cons]
    · rw [List.map_cons, List.map_cons, values, tag, value]

theorem tlv_length {tag : UInt8} {val : Bytes} {items : List (UInt8 × Bytes)} (member : (tag, val) ∈ items) :
    val.length ≤ ((items.map fun i => tlv i.1 i.2).flatten).length := by
  have part : (tlv tag val).Sublist (items.map fun i => tlv i.1 i.2).flatten :=
    List.sublist_flatten_of_mem (List.mem_map.mpr ⟨(tag, val), member, rfl⟩)
  have size := part.length_le
  rw [tlv, List.length_append] at size
  omega

theorem takeAll_pairs (platform : Platform) (f : Fields) (list : List Item) : takeAll platform f list =
    (list.map fun i => (i.tag.value, i.value)).foldl (fun f i => f.take platform (UInt32.ofNat i.1) i.2) f := by
  rw [takeAll, List.foldl_map]

/-- A built set is a local set that ends in its checksum, and says what its items say. -/
theorem built_localSet {items : List (UInt8 × Bytes)} (tags : ∀ i ∈ items, i.1.toNat < 128)
    (fits : ((items.map fun i => tlv i.1 i.2).flatten).length + 4 ≤ 65535) :
    ∃ s : LocalSet, s.bytes = buildSet (items.map fun i => tlv i.1 i.2) ∧
      s.length.bytes = berLen (((items.map fun i => tlv i.1 i.2).flatten).length + 4) ∧ s.Summed ∧
      ∀ platform : Platform, takeAll platform {} s.items = fieldsOf platform items := by
  obtain ⟨list, flat, values⟩ := tlv_items tags fun i member => by
    have part := tlv_length member
    omega
  obtain ⟨inner, isInner⟩ : ∃ inner, inner = (items.map fun i => tlv i.1 i.2).flatten ++ [0x01, 0x02] := ⟨_, rfl⟩
  have size : inner.length = (items.map fun i => tlv i.1 i.2).flatten.length + 2 := by
    rw [isInner]
    exact List.length_append
  obtain ⟨l, bytes, value⟩ := berLen_length (n := inner.length + 2) (by omega)
  obtain ⟨pkt, isPkt⟩ : ∃ pkt, pkt = uasLsKey ++ berLen (inner.length + 2) ++ inner := ⟨_, rfl⟩
  have built : buildSet (items.map fun i => tlv i.1 i.2) = pkt ++ ByteString.digits (bcc16 pkt).toNat 2 := by
    rw [isPkt, isInner]
    rfl
  have sum : ByteString.number (ByteString.digits (bcc16 pkt).toNat 2) = (bcc16 pkt).toNat :=
    ByteString.number_digits_of_lt (UInt16.toNat_lt _)
  have two : (ByteString.digits (bcc16 pkt).toNat 2).length = 2 := ByteString.digits_length _ _
  let checksum : Item :=
    { tag := .one 1 (by decide), length := .short 2 (by decide), value := ByteString.digits (bcc16 pkt).toNat 2, measured := two.symm }
  have body : concat (list ++ [checksum]) = inner ++ ByteString.digits (bcc16 pkt).toNat 2 := by
    have split : concat (list ++ [checksum]) = concat list ++ checksum.bytes := by simp [concat]
    rw [split, flat, isInner, List.append_assoc]
    rfl
  have measured : l.value = (concat (list ++ [checksum])).length := by rw [value, body, List.length_append, two]
  let s : LocalSet := ⟨l, list ++ [checksum], measured, by rw [← measured, value]; omega⟩
  have whole : s.bytes = pkt ++ ByteString.digits (bcc16 pkt).toNat 2 := by
    simp only [s, LocalSet.bytes, body, bytes, isPkt, List.append_assoc]
  have four : inner.length + 2 = (items.map fun i => tlv i.1 i.2).flatten.length + 4 := by omega
  refine ⟨s, whole.trans built.symm, four ▸ bytes, ?_, fun platform => ?_⟩
  · unfold LocalSet.Summed LocalSet.covered
    rw [whole, List.length_append, two, Nat.add_sub_cancel, List.take_left, List.drop_left, sum, UInt16.ofNat_toNat]
  · have pairs : takeAll platform {} list = fieldsOf platform items := by
      rw [takeAll_pairs, values, List.foldl_map, foldl_take]
    rw [takeAll, List.foldl_append]
    change (takeAll platform {} list).take platform (UInt32.ofNat checksum.tag.value) checksum.value = _
    rw [pairs]
    rfl

/-! One byte changed. -/

theorem shift_injective (i : Nat) {b c : UInt8}
    (same : b.toUInt16 <<< UInt16.ofNat (8 * ((i + 1) % 2)) = c.toUInt16 <<< UInt16.ofNat (8 * ((i + 1) % 2))) : b = c := by
  have bounds := And.intro b.toNat_lt c.toNat_lt
  have numbers := congrArg UInt16.toNat same
  apply UInt8.toNat_inj.mp
  rcases Nat.mod_two_eq_zero_or_one (i + 1) with even | odd
  · simpa [even, Nat.shiftLeft_eq] using numbers
  · simp [odd, Nat.shiftLeft_eq] at numbers
    omega

theorem bcc16_set (bytes : Bytes) (i : Nat) (b : UInt8) (inside : i < bytes.length) (other : b ≠ bytes[i]) :
    bcc16 (bytes.set i b) ≠ bcc16 bytes := by
  apply ByteString.foldl_set_ne _ _ _ inside other
  · intro entry s t same
    exact (UInt16.add_left_inj _).mp same
  · intro s i b c different same
    exact different (shift_injective _ ((UInt16.add_right_inj _).mp same))

theorem pair_number_injective (v w : Bytes) (left : v.length = 2) (right : w.length = 2)
    (same : UInt16.ofNat (ByteString.number v) = UInt16.ofNat (ByteString.number w)) : v = w := by
  have below := ByteString.number_lt v
  have below' := ByteString.number_lt w
  have numbers := congrArg UInt16.toNat same
  rw [left] at below
  rw [right] at below'
  rw [UInt16.toNat_ofNat', UInt16.toNat_ofNat'] at numbers
  have alike : ByteString.number v = ByteString.number w := by omega
  exact ByteString.number_injective (left.trans right.symm) alike

theorem changed_byte_rejected (platform : Platform) {s : LocalSet} (summed : s.Summed) {i : Nat} {b : UInt8}
    (behind : 16 + s.length.bytes.length ≤ i) (inside : i < s.bytes.length) (other : b ≠ s.bytes[i]) (trailing : Bytes) :
    parseSet platform (s.bytes.set i b ++ trailing) = .error .badChecksum := by
  obtain ⟨changed, isChanged⟩ : ∃ changed, changed = s.bytes.set i b := ⟨_, rfl⟩
  have head : s.bytes = (uasLsKey ++ s.length.bytes) ++ concat s.items := (List.append_assoc _ _ _).symm
  have front : (uasLsKey ++ s.length.bytes).length = 16 + s.length.bytes.length := by
    rw [List.length_append, uasLsKey_length]
  have size : s.bytes.length = 16 + s.length.bytes.length + s.length.value := by
    rw [head, List.length_append, front, s.measured]
  have long := s.filled
  rw [← s.measured] at long
  -- The label and the length are the same.
  obtain ⟨body, shape, same⟩ : ∃ body, changed = uasLsKey ++ (s.length.bytes ++ body) ∧ body.length = s.length.value := by
    refine ⟨(concat s.items).set (i - (uasLsKey ++ s.length.bytes).length) b, ?_, ?_⟩
    · rw [isChanged, head, List.set_append_right _ _ (by omega), List.append_assoc]
    · rw [List.length_set, s.measured]
  have whole : (body ++ trailing).take s.length.value = body := by rw [← same, List.take_left]
  have fits : s.length.value ≤ (body ++ trailing).length := by
    rw [List.length_append]
    omega
  rw [← isChanged, shape, List.append_assoc, List.append_assoc, parseSet_header platform fits long, parseBody, take_set, whole,
    ← shape, ← size, if_pos]
  rw [isChanged]
  exact ByteString.sealed_changed bcc16_set pair_number_injective (by omega) summed inside other

/-- What is built is read back, whatever follows it in the frame, and no change of one byte behind the length is taken. -/
theorem built_set_is_read (platform : Platform) {items : List (UInt8 × Bytes)} (tags : ∀ i ∈ items, i.1.toNat < 128)
    (fits : ((items.map fun i => tlv i.1 i.2).flatten).length + 4 ≤ 65535) (trailing : Bytes) :
    parseSet platform (buildSet (items.map fun i => tlv i.1 i.2) ++ trailing) =
        .ok ((fieldsOf platform items).finish (buildSet (items.map fun i => tlv i.1 i.2))) ∧
      ∀ (i : Nat) (b : UInt8) (inside : i < (buildSet (items.map fun i => tlv i.1 i.2)).length),
        16 + (berLen (((items.map fun i => tlv i.1 i.2).flatten).length + 4)).length ≤ i →
        b ≠ (buildSet (items.map fun i => tlv i.1 i.2))[i] →
          parseSet platform ((buildSet (items.map fun i => tlv i.1 i.2)).set i b ++ trailing) = .error .badChecksum := by
  obtain ⟨s, bytes, length, summed, said⟩ := built_localSet tags fits
  rw [← said platform, ← length, ← bytes]
  constructor
  · exact (parseSet_ok_iff platform).mpr ⟨s, List.prefix_append _ _, summed, rfl⟩
  · intro i b inside behind other
    exact changed_byte_rejected platform summed behind inside other trailing

/-- A latitude given twice, a longitude, and two bytes after the set. -/
theorem latitude_given_twice_is_read :
    parseSet Platform.idle (buildSet ([(13, [0, 0, 0, 1]), (14, [0x5b, 0x53, 0x60, 0x4f]), (13, [0x55, 0x95, 0xb6, 0x6d])].map
        fun i => tlv i.1 i.2) ++ [0xff, 0xff]) =
      .ok ((fieldsOf Platform.idle [(13, [0, 0, 0, 1]), (14, [0x5b, 0x53, 0x60, 0x4f]), (13, [0x55, 0x95, 0xb6, 0x6d])]).finish
        (buildSet ([(13, [0, 0, 0, 1]), (14, [0x5b, 0x53, 0x60, 0x4f]), (13, [0x55, 0x95, 0xb6, 0x6d])].map
          fun i => tlv i.1 i.2))) :=
  (built_set_is_read Platform.idle (by decide) (by decide) [0xff, 0xff]).1

end KlvProof
