import AjarConnectors.Bursts.Detection
import AjarConnectors.Http.Requests
import AjarConnectors.Mavlink.Conservation

namespace MavlinkModel

/-- `(header_len, crc_start)` of a frame whose header can be read. -/
def sections (frame : Bytes) : Option (Nat × Nat) :=
  match header frame with
  | .error _ => none
  | .ok (len, headerLen, _, _) => some (headerLen, headerLen + len)

/-- One payload byte, two adjacent payload bytes, or the two CRC bytes of a frame are replaced. -/
inductive Corrupted (headerLen crcStart : Nat) (frame : Bytes) : Bytes → Prop where
  | payloadByte (i : Nat) (b : UInt8) :
      headerLen ≤ i → i < crcStart → Corrupted headerLen crcStart frame (frame.set i b)
  | payloadPair (i : Nat) (a b : UInt8) :
      headerLen ≤ i → i + 1 < crcStart → Corrupted headerLen crcStart frame ((frame.set i a).set (i + 1) b)
  | crcBytes (a b : UInt8) : Corrupted headerLen crcStart frame ((frame.set crcStart a).set (crcStart + 1) b)

/-- A frame of a decoded message with a valid CRC. -/
def ValidFrame (frame : Bytes) : Prop := ∃ f, readFrame frame = .ok f ∧ f.payload.isSome = true

/-- What one CRC step adds to the shifted register. -/
def spread (x : UInt8) : UInt16 :=
  let tmp := x ^^^ (x <<< 4)
  (tmp.toUInt16 <<< 8) ^^^ (tmp.toUInt16 <<< 3) ^^^ (tmp.toUInt16 >>> 4)

end MavlinkModel

namespace MavlinkProof

open MavlinkModel Bursts

theorem accum_spread (crc : UInt16) (b : UInt8) : accum crc b = (crc >>> 8) ^^^ spread (b ^^^ (crc &&& 0xff).toUInt8) := by
  unfold accum spread
  rw [UInt16.xor_assoc, UInt16.xor_assoc, UInt16.xor_assoc]

/-- The high byte of what a step adds tells which byte entered it. -/
theorem spread_high (x : UInt8) :
    (let h := (spread x >>> 8).toUInt8; let tmp := h ^^^ (h >>> 5); tmp ^^^ (tmp <<< 4)) = x := by
  revert x
  apply HttpProof.all_bytes
  decide +kernel

theorem shift_eight (crc : UInt16) : (crc >>> 8).toNat = crc.toNat / 256 := by
  rw [UInt16.toNat_shiftRight, Nat.shiftRight_eq_div_pow]
  rfl

theorem shifted_twice (crc : UInt16) : (crc >>> 8) >>> 8 = 0 := by
  apply UInt16.toNat_inj.mp
  have bound := crc.toNat_lt
  rw [shift_eight, shift_eight, UInt16.toNat_zero]
  omega

theorem low_byte (crc : UInt16) : (crc &&& 0xff).toUInt8.toNat = crc.toNat % 256 := by
  rw [UInt16.toNat_toUInt8, UInt16.toNat_and]
  change (crc.toNat &&& (2^8 - 1)) % 256 = crc.toNat % 256
  rw [Nat.and_two_pow_sub_one_eq_mod]
  omega

/-- A step tells what entered it and what it shifted. -/
theorem accum_inj {s t : UInt16} {a b : UInt8} (same : accum s a = accum t b) :
    a ^^^ (s &&& 0xff).toUInt8 = b ^^^ (t &&& 0xff).toUInt8 ∧ s >>> 8 = t >>> 8 := by
  rw [accum_spread, accum_spread] at same
  have high := congrArg (fun crc : UInt16 => crc >>> 8) same
  rw [UInt16.shiftRight_xor, UInt16.shiftRight_xor, shifted_twice, shifted_twice, UInt16.zero_xor, UInt16.zero_xor] at high
  have entered : a ^^^ (s &&& 0xff).toUInt8 = b ^^^ (t &&& 0xff).toUInt8 := by
    rw [← spread_high (a ^^^ (s &&& 0xff).toUInt8), ← spread_high (b ^^^ (t &&& 0xff).toUInt8), high]
  rw [entered] at same
  exact ⟨entered, (UInt16.xor_left_inj _).mp same⟩

theorem eq_of_halves {s t : UInt16} (low : (s &&& 0xff).toUInt8 = (t &&& 0xff).toUInt8) (high : s >>> 8 = t >>> 8) : s = t := by
  have lowNat := congrArg UInt8.toNat low
  have highNat := congrArg UInt16.toNat high
  rw [low_byte, low_byte] at lowNat
  rw [shift_eight, shift_eight] at highNat
  apply UInt16.toNat_inj.mp
  omega

theorem accum_high (crc : UInt16) (b : UInt8) : accum crc b >>> 8 = spread (b ^^^ (crc &&& 0xff).toUInt8) >>> 8 := by
  rw [accum_spread, UInt16.shiftRight_xor, shifted_twice, UInt16.zero_xor]

theorem accum_lossless : Lossless accum where
  state := by
    intro s t b same
    obtain ⟨entered, high⟩ := accum_inj same
    exact eq_of_halves ((UInt8.xor_right_inj b).mp entered) high
  pair := by
    intro s a b a' b' same
    obtain ⟨entered, high⟩ := accum_inj same
    have first : a = a' := by
      rw [accum_high, accum_high] at high
      apply (UInt8.xor_left_inj (s &&& 0xff).toUInt8).mp
      rw [← spread_high (a ^^^ (s &&& 0xff).toUInt8), ← spread_high (a' ^^^ (s &&& 0xff).toUInt8), high]
    subst first
    exact ⟨rfl, (UInt8.xor_left_inj _).mp entered⟩

theorem crc_lossless {data data' : Bytes} {extra : UInt8} (same : crc data extra = crc data' extra) :
    data.foldl accum 0xffff = data'.foldl accum 0xffff := accum_lossless.state same

theorem header_congr {frame frame' : Bytes} {len headerLen msgId : Nat} {sysid : UInt8}
    (headed : header frame = .ok (len, headerLen, sysid, msgId)) (length : frame'.length = frame.length)
    (same : ∀ j < headerLen, frame'[j]? = frame[j]?) : header frame' = header frame := by
  have first : ∀ {magic : UInt8} {rest : Bytes}, 0 < headerLen → frame = magic :: rest → ∃ rest', frame' = magic :: rest' := by
    intro magic rest some parts
    have found := same 0 some
    rw [parts] at found
    exact List.head?_eq_some_iff.mp (by rw [List.head?_eq_getElem?, found, List.getElem?_cons_zero])
  unfold header at headed
  split at headed
  · cases headed
  · rename_i rest
    split at headed
    · cases headed
    · rename_i long
      cases headed
      obtain ⟨rest', rfl⟩ := first (by decide) rfl
      unfold header byteAt
      simp only [length, List.getD_eq_getElem?_getD, same 1 (by decide), same 3 (by decide), same 5 (by decide)]
  · rename_i rest
    split at headed
    · cases headed
    · rename_i long
      cases headed
      obtain ⟨rest', rfl⟩ := first (by decide) rfl
      unfold header byteAt
      simp only [length, List.getD_eq_getElem?_getD, same 1 (by decide), same 5 (by decide), same 7 (by decide),
        same 8 (by decide), same 9 (by decide)]
  · cases headed

theorem headerLen_cases {frame : Bytes} {len headerLen msgId : Nat} {sysid : UInt8}
    (headed : header frame = .ok (len, headerLen, sysid, msgId)) : headerLen = 6 ∨ headerLen = 10 := by
  unfold header at headed
  split at headed
  · cases headed
  · split at headed
    · cases headed
    · cases headed
      exact Or.inl rfl
  · split at headed
    · cases headed
    · cases headed
      exact Or.inr rfl
  · cases headed

theorem covered_whole (frame : Bytes) {crcStart : Nat} (magic : 1 ≤ crcStart) :
    frame.take 1 ++ ((frame.take crcStart).drop 1 ++ frame.drop crcStart) = frame := by
  have first : frame.take 1 = (frame.take crcStart).take 1 := by rw [List.take_take, Nat.min_eq_left magic]
  rw [← List.append_assoc, first, List.take_append_drop, List.take_append_drop]

section

variable {frame frame' : Bytes} {headerLen crcStart : Nat}

theorem corrupted_length (corrupted : Corrupted headerLen crcStart frame frame') : frame'.length = frame.length := by
  cases corrupted <;> simp

theorem corrupted_header (corrupted : Corrupted headerLen crcStart frame frame') (after : headerLen ≤ crcStart) :
    ∀ j < headerLen, frame'[j]? = frame[j]? := by
  intro j inside
  cases corrupted with
  | payloadByte i b low high => exact List.getElem?_set_ne (by omega)
  | payloadPair i a b low high => rw [List.getElem?_set_ne (by omega), List.getElem?_set_ne (by omega)]
  | crcBytes a b => rw [List.getElem?_set_ne (by omega), List.getElem?_set_ne (by omega)]

/-- Changes behind the magic and ahead of the CRC are seen in the bytes that the CRC covers. -/
theorem same_of_covered (magic : 1 ≤ crcStart) (first : frame'.take 1 = frame.take 1)
    (covered : (frame'.take crcStart).drop 1 = (frame.take crcStart).drop 1) (last : frame'.drop crcStart = frame.drop crcStart) :
    frame' = frame := by
  rw [← covered_whole frame magic, ← covered_whole frame' magic, first, covered, last]

theorem u16le_congr {off : Nat} (low : frame'[off]? = frame[off]?) (high : frame'[off + 1]? = frame[off + 1]?) :
    u16le frame' off = u16le frame off := by
  unfold u16le byteAt
  rw [List.getD_eq_getElem?_getD, List.getD_eq_getElem?_getD, low, high, ← List.getD_eq_getElem?_getD,
    ← List.getD_eq_getElem?_getD]

theorem set_crc {a b : UInt8} (room : crcStart + 2 ≤ frame.length)
    (same : u16le ((frame.set crcStart a).set (crcStart + 1) b) crcStart = u16le frame crcStart) :
    (frame.set crcStart a).set (crcStart + 1) b = frame := by
  have low : crcStart < frame.length := by omega
  have high : crcStart + 1 < frame.length := by omega
  have smallA := a.toNat_lt
  have smallB := b.toNat_lt
  have smallLow := frame[crcStart].toNat_lt
  have smallHigh := frame[crcStart + 1].toNat_lt
  simp only [u16le, byteAt, List.getD_eq_getElem?_getD, List.getElem?_set_self (l := frame.set crcStart a)
    (by rw [List.length_set]; exact high), List.getElem?_set_ne (Nat.succ_ne_self crcStart),
    List.getElem?_set_self low, List.getElem?_eq_getElem low, List.getElem?_eq_getElem high, Option.getD_some] at same
  have sameA : a = frame[crcStart] := UInt8.toNat_inj.mp (by omega)
  have sameB : b = frame[crcStart + 1] := UInt8.toNat_inj.mp (by omega)
  rw [sameA, List.set_getElem_self, sameB, List.set_getElem_self]

theorem unchanged_of_crc (corrupted : Corrupted headerLen crcStart frame frame') (magic : 1 ≤ headerLen)
    (after : headerLen ≤ crcStart) (room : crcStart + 2 ≤ frame.length) {extra : UInt8}
    (valid : (crc ((frame.take crcStart).drop 1) extra).toNat = u16le frame crcStart)
    (right : (crc ((frame'.take crcStart).drop 1) extra).toNat = u16le frame' crcStart) : frame' = frame := by
  cases corrupted with
  | payloadByte i b low high =>
    have given : u16le (frame.set i b) crcStart = u16le frame crcStart :=
      u16le_congr (List.getElem?_set_ne (by omega)) (List.getElem?_set_ne (by omega))
    rw [given, ← valid] at right
    have register := crc_lossless (UInt16.toNat_inj.mp right)
    rw [List.take_set, List.drop_set, if_neg (by omega)] at register
    apply same_of_covered (Nat.le_trans magic after)
    · rw [List.take_set_of_le (by omega)]
    · rw [List.take_set, List.drop_set, if_neg (by omega)]
      exact accum_lossless.foldl_set register
    · rw [List.drop_set_of_lt (by omega)]
  | payloadPair i a b low high =>
    have given : u16le ((frame.set i a).set (i + 1) b) crcStart = u16le frame crcStart := by
      apply u16le_congr
      · rw [List.getElem?_set_ne (by omega), List.getElem?_set_ne (by omega)]
      · rw [List.getElem?_set_ne (by omega), List.getElem?_set_ne (by omega)]
    have next : i + 1 - 1 = i - 1 + 1 := by omega
    rw [given, ← valid] at right
    have register := crc_lossless (UInt16.toNat_inj.mp right)
    rw [List.take_set, List.take_set, List.drop_set, if_neg (by omega), List.drop_set, if_neg (by omega), next] at register
    apply same_of_covered (Nat.le_trans magic after)
    · rw [List.take_set_of_le (by omega), List.take_set_of_le (by omega)]
    · rw [List.take_set, List.take_set, List.drop_set, if_neg (by omega), List.drop_set, if_neg (by omega), next]
      exact accum_lossless.foldl_set_pair register
    · rw [List.drop_set_of_lt (by omega), List.drop_set_of_lt (by omega)]
  | crcBytes a b =>
    rw [List.take_set_of_le (by omega), List.take_set_of_le (by omega), valid] at right
    exact set_crc room right.symm

end

/-- A corrupted frame of a decoded message is refused for its CRC, and the parser stays as it was. -/
theorem corruption_is_caught (floats : MavFloats) (p : MavParser) (frame frame' : Bytes) (headerLen crcStart : Nat)
    (valid : ValidFrame frame) (found : sections frame = some (headerLen, crcStart))
    (corrupted : Corrupted headerLen crcStart frame frame') (changed : frame' ≠ frame) :
    p.parseFrame floats frame' = (.error .badCrc, p) := by
  obtain ⟨f, read, decoded⟩ := valid
  unfold sections at found
  unfold readFrame at read
  cases headed : header frame with
  | error e =>
    rw [headed] at read
    cases read
  | ok parts =>
    obtain ⟨len, headerLen', sysid, msgId⟩ := parts
    rw [headed] at found read
    cases found
    dsimp only at read
    have magic : 1 ≤ headerLen := by
      rcases headerLen_cases headed with six | ten <;> omega
    have length := corrupted_length corrupted
    have same := header_congr headed length (corrupted_header corrupted (Nat.le_add_right _ _))
    split at read
    · cases read
    · rename_i room
      cases known : crcExtraAndLen msgId with
      | none =>
        rw [known] at read
        cases read
        cases decoded
      | some entry =>
        rw [known] at read
        dsimp only at read
        split at read
        · cases read
        · rename_i right
          have refused : readFrame frame' = .error .badCrc := by
            unfold readFrame
            rw [same, headed]
            dsimp only
            rw [length, if_neg room, known]
            dsimp only
            apply if_pos
            intro match'
            exact changed (unchanged_of_crc corrupted magic (Nat.le_add_right _ _) (Nat.not_lt.mp room) (not_not.mp right) match')
          rw [MavParser.parseFrame, refused]

theorem heartbeat_valid : ValidFrame heartbeatFrame :=
  ⟨⟨1, 0, heartbeatFrame, some [0, 0, 0, 0, 2, 3, 129, 4, 3]⟩, rfl, rfl⟩

theorem disarmed_heartbeat_is_caught :
    (MavParser.parseFrame fewFloats { sourceId := "uav-1", hostility := none } (heartbeatFrame.set 12 1)).1 =
      .error .badCrc := by
  have caught := corruption_is_caught fewFloats { sourceId := "uav-1", hostility := none } heartbeatFrame
    (heartbeatFrame.set 12 1) 6 15 heartbeat_valid (by decide) (Corrupted.payloadByte 12 1 (by decide) (by decide))
    (by decide)
  rw [caught]

end MavlinkProof
