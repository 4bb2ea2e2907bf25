import AjarConnectors.Mavlink.Conservation

namespace MavlinkModel

/-- The header bytes that say nothing about the message. -/
structure Link where
  seq : UInt8
  compid : UInt8
  incompat : UInt8
  compat : UInt8

/-- A frame closed with its CRC, low byte first. -/
def finished (crcExtra : UInt8) (head payload : Bytes) : Bytes :=
  let sum := crc ((head ++ payload).drop 1) crcExtra
  head ++ payload ++ [sum.toUInt8, (sum >>> 8).toUInt8]

def v1Frame (link : Link) (sysid : UInt8) (msgId : Nat) (crcExtra : UInt8) (payload : Bytes) : Bytes :=
  finished crcExtra [0xfe, UInt8.ofNat payload.length, link.seq, sysid, link.compid, UInt8.ofNat msgId] payload

def v2Frame (link : Link) (sysid : UInt8) (msgId : Nat) (crcExtra : UInt8) (payload : Bytes) : Bytes :=
  finished crcExtra [0xfd, UInt8.ofNat payload.length, link.incompat, link.compat, link.seq, sysid, link.compid,
    UInt8.ofNat msgId, UInt8.ofNat (msgId / 256), UInt8.ofNat (msgId / 65536)] payload

/-- The payload length in MAVLink 1: only GPS_RAW_INT has extensions that are decoded. -/
def baseLen (msgId fullLen : Nat) : Nat := if msgId = 24 then 30 else fullLen

/-- The frames one payload is sent in: v2 with zeros trimmed from its end, or v1 without extensions that are zero. -/
inductive WireForm (sysid : UInt8) (msgId : Nat) (crcExtra : UInt8) (fullLen : Nat) (payload : Bytes) : Bytes → Prop
  | v2 (link : Link) (kept : Nat) :
      (∀ b ∈ payload.drop kept, b = 0) →
      WireForm sysid msgId crcExtra fullLen payload (v2Frame link sysid msgId crcExtra (payload.take kept))
  | v1 (link : Link) (kept : Nat) :
      baseLen msgId fullLen ≤ kept → (∀ b ∈ (payload.take fullLen).drop kept, b = 0) →
      WireForm sysid msgId crcExtra fullLen payload (v1Frame link sysid msgId crcExtra (payload.take kept))

/-- A position without the frames it carries. -/
def MavPosition.fields (pos : MavPosition) : MavPosition := { pos with raw := [], truncated := false }

variable (floats : MavFloats)

/-- What a payload says of a vehicle in a given state: its position, and its state after. -/
def decoded (sysid : UInt8) (msgId : Nat) (payload : Bytes) (state : VehicleState) : Option MavPosition × VehicleState :=
  let p : MavParser := { sourceId := "", hostility := none, vehicles := fun _ => some { state := state } }
  match msgId with
  | 0 => (none, heartbeat state payload)
  | 1 => (none, sysStatus floats state payload)
  | 30 => (none, attitude floats state payload)
  | 74 => (none, vfrHud floats state payload)
  | 147 => (none, batteryStatus floats state payload)
  | 33 => (some (p.globalPosition floats sysid payload).1, state)
  | 24 => (some (p.gpsRaw floats sysid payload).1, gpsQuality floats state payload)
  | _ => (none, state)

end MavlinkModel

namespace FeedModel

open MavlinkModel

/-- The feed's own CRC folds over the data and the CRC_EXTRA in one pass. -/
def mavCrc (data : Bytes) (extra : UInt8) : UInt16 := (data ++ [extra]).foldl accum 0xffff

/-- `Link::frame`: a v1 frame of system 1 with the payload padded to the message's full length. -/
def mavFrame (seq : UInt8) (msgId : Nat) (crcExtra : UInt8) (len : Nat) (payload : Bytes) : Bytes :=
  let out := [0xfe, UInt8.ofNat len, seq, 1, 1, UInt8.ofNat msgId] ++
    (payload.take len ++ List.replicate (len - payload.length) 0)
  let c := mavCrc (out.drop 1) crcExtra
  out ++ [c.toUInt8, (c >>> 8).toUInt8]

end FeedModel

namespace MavlinkProof

open MavlinkModel CarryForward

variable (floats : MavFloats)

section

variable (p : MavParser) (sysid other : UInt8)

theorem snapshot_set (v : Vehicle) :
    (p.set sysid v).snapshot other = if other = sysid then v.state else p.snapshot other := by
  change ((Function.update p.vehicles sysid (some v) other).getD {}).state = _
  by_cases same : other = sysid
  · subst same
    rw [if_pos rfl, Function.update_self, Option.getD_some]
  · rw [if_neg same, Function.update_of_ne same]
    rfl

theorem snapshot_mutate (f : VehicleState → VehicleState) :
    (p.mutate sysid f).snapshot other = if other = sysid then f (p.snapshot sysid) else p.snapshot other :=
  snapshot_set p sysid other _

theorem set_same_state {v : Vehicle} (same : v.state = p.snapshot sysid) :
    (p.set sysid v).snapshot other = p.snapshot other := by
  rw [snapshot_set]
  split
  · rename_i equal
    rw [same, equal]
  · rfl

theorem snapshot_carry (raw : Bytes) : (p.carry sysid raw).snapshot other = p.snapshot other :=
  set_same_state p sysid other rfl

theorem snapshot_drain : (p.drain sysid).2.2.snapshot other = p.snapshot other := set_same_state p sysid other rfl

end

theorem globalPosition_fields (p q : MavParser) (sysid : UInt8) (payload : Bytes) (same : p.snapshot sysid = q.snapshot sysid) :
    (p.globalPosition floats sysid payload).1.fields = (q.globalPosition floats sysid payload).1.fields := by
  unfold MavParser.globalPosition MavPosition.fields
  dsimp only
  rw [snapshot_drain, snapshot_drain, same]

theorem gpsRaw_fields (p q : MavParser) (sysid : UInt8) (payload : Bytes) (same : p.snapshot sysid = q.snapshot sysid) :
    (p.gpsRaw floats sysid payload).1.fields = (q.gpsRaw floats sysid payload).1.fields := by
  unfold MavParser.gpsRaw MavPosition.fields
  dsimp only
  rw [snapshot_drain, snapshot_drain, snapshot_mutate, snapshot_mutate, same]

theorem decoded_other (sysid : UInt8) (payload : Bytes) (state : VehicleState) {msgId : Nat} (heartbeat : msgId ≠ 0)
    (sysStatus : msgId ≠ 1) (attitude : msgId ≠ 30) (vfrHud : msgId ≠ 74) (batteryStatus : msgId ≠ 147)
    (globalPosition : msgId ≠ 33) (gpsRaw : msgId ≠ 24) : decoded floats sysid msgId payload state = (none, state) := by
  unfold decoded
  split
  all_goals first | contradiction | rfl

/-- Of a decoded frame, only its payload and the vehicle's state decide the position and the states after. -/
theorem parseFrame_decoded (p : MavParser) {frame : Bytes} {f : Frame} {payload : Bytes} (read : readFrame frame = .ok f)
    (body : f.payload = some payload) :
    (∃ pos, (p.parseFrame floats frame).1 = .ok pos ∧
      pos.map MavPosition.fields =
        (decoded floats f.sysid f.msgId payload (p.snapshot f.sysid)).1.map MavPosition.fields) ∧
    ∀ other, (p.parseFrame floats frame).2.snapshot other =
      if other = f.sysid then (decoded floats f.sysid f.msgId payload (p.snapshot f.sysid)).2 else p.snapshot other := by
  rcases f with ⟨sysid, msgId, raw, stored⟩
  dsimp only at body
  subst body
  have carried : ∀ other, (p.carry sysid raw).snapshot other = p.snapshot other := fun other => snapshot_carry p sysid other raw
  have same : ∀ other, p.snapshot other = if other = sysid then p.snapshot sysid else p.snapshot other := by
    intro other
    split
    · rename_i equal
      rw [equal]
    · rfl
  have mutated : ∀ (f : VehicleState → VehicleState) other, ((p.carry sysid raw).mutate sysid f).snapshot other =
      if other = sysid then f (p.snapshot sysid) else p.snapshot other := by
    intro f other
    rw [snapshot_mutate, carried, carried]
  rw [MavParser.parseFrame, read]
  dsimp only
  split
  · exact ⟨⟨none, rfl, rfl⟩, mutated fun s => heartbeat s payload⟩
  · exact ⟨⟨none, rfl, rfl⟩, mutated fun s => sysStatus floats s payload⟩
  · exact ⟨⟨none, rfl, rfl⟩, mutated fun s => attitude floats s payload⟩
  · exact ⟨⟨none, rfl, rfl⟩, mutated fun s => vfrHud floats s payload⟩
  · exact ⟨⟨none, rfl, rfl⟩, mutated fun s => batteryStatus floats s payload⟩
  · refine ⟨⟨_, rfl, congrArg some (globalPosition_fields floats _ _ sysid payload (carried sysid))⟩, ?_⟩
    intro other
    exact (snapshot_drain _ sysid other).trans ((carried other).trans (same other))
  · refine ⟨⟨_, rfl, congrArg some (gpsRaw_fields floats _ _ sysid payload (carried sysid))⟩, ?_⟩
    intro other
    exact (snapshot_drain _ sysid other).trans (mutated _ other)
  · rw [decoded_other floats _ _ _ (by assumption) (by assumption) (by assumption) (by assumption) (by assumption)
      (by assumption) (by assumption)]
    refine ⟨⟨none, rfl, rfl⟩, ?_⟩
    intro other
    exact (carried other).trans (same other)

theorem finished_crc (crcExtra : UInt8) (head payload : Bytes) :
    (crc (((finished crcExtra head payload).take (head ++ payload).length).drop 1) crcExtra).toNat =
      u16le (finished crcExtra head payload) (head ++ payload).length := by
  unfold finished
  dsimp only
  rw [List.take_left]
  generalize crc ((head ++ payload).drop 1) crcExtra = sum
  have bound := sum.toNat_lt
  unfold u16le byteAt
  rw [List.getD_eq_getElem?_getD, List.getD_eq_getElem?_getD, List.getElem?_append_right (Nat.le_refl _),
    List.getElem?_append_right (Nat.le_add_right _ 1), Nat.sub_self, Nat.add_sub_cancel_left]
  change sum.toNat = sum.toUInt8.toNat + 256 * (sum >>> 8).toUInt8.toNat
  rw [UInt16.toNat_toUInt8, UInt16.toNat_toUInt8, UInt16.toNat_shiftRight, Nat.shiftRight_eq_div_pow]
  change sum.toNat = sum.toNat % 256 + 256 * (sum.toNat / 256 % 256)
  omega

/-- A frame with its CRC is read with its payload zero-extended, whatever its header is. -/
theorem readFrame_finished {head payload : Bytes} {sysid crcExtra : UInt8} {msgId fullLen : Nat}
    (known : crcExtraAndLen msgId = some (crcExtra, fullLen))
    (headed : header (finished crcExtra head payload) = .ok (payload.length, head.length, sysid, msgId)) :
    ∃ raw, readFrame (finished crcExtra head payload) = .ok ⟨sysid, msgId, raw, some (zeroExtended payload fullLen)⟩ := by
  have length : (finished crcExtra head payload).length = head.length + payload.length + 2 := by
    unfold finished
    rw [List.length_append, List.length_append]
    rfl
  have body : ((finished crcExtra head payload).take (head.length + payload.length)).drop head.length = payload := by
    unfold finished
    rw [← List.length_append, List.take_left, List.drop_left]
  have sum := finished_crc crcExtra head payload
  rw [List.length_append] at sum
  have long : ¬ (finished crcExtra head payload).length < head.length + payload.length + 2 := by omega
  unfold readFrame
  rw [headed]
  dsimp only
  rw [if_neg long, known]
  dsimp only
  rw [if_neg (not_not.mpr sum), body]
  exact ⟨_, rfl⟩

theorem length_byte {payload : Bytes} (short : payload.length ≤ 255) : (UInt8.ofNat payload.length).toNat = payload.length :=
  UInt8.toNat_ofNat_of_lt' (Nat.lt_succ_of_le short)

theorem msgId_small {msgId fullLen : Nat} {crcExtra : UInt8} (known : crcExtraAndLen msgId = some (crcExtra, fullLen)) :
    msgId < 256 := by
  unfold crcExtraAndLen at known
  split at known <;> first | omega | cases known

theorem header_v1 (link : Link) (sysid : UInt8) {msgId : Nat} (crcExtra : UInt8) {payload : Bytes}
    (small : msgId < 256) (short : payload.length ≤ 255) :
    header (v1Frame link sysid msgId crcExtra payload) = .ok (payload.length, 6, sysid, msgId) := by
  have id : (UInt8.ofNat msgId).toNat = msgId := UInt8.toNat_ofNat_of_lt' small
  have length := length_byte short
  unfold v1Frame finished header
  dsimp only [List.cons_append]
  rw [if_neg (by simp)]
  simp only [byteAt, List.getD_cons_succ, List.getD_cons_zero, length, id]

theorem header_v2 (link : Link) (sysid : UInt8) {msgId : Nat} (crcExtra : UInt8) {payload : Bytes}
    (small : msgId < 256) (short : payload.length ≤ 255) :
    header (v2Frame link sysid msgId crcExtra payload) = .ok (payload.length, 10, sysid, msgId) := by
  have id : (UInt8.ofNat msgId).toNat = msgId := UInt8.toNat_ofNat_of_lt' small
  have middle : msgId / 256 = 0 := by omega
  have high : msgId / 65536 = 0 := by omega
  have length := length_byte short
  unfold v2Frame finished header
  dsimp only [List.cons_append]
  rw [if_neg (by simp)]
  simp only [byteAt, List.getD_cons_succ, List.getD_cons_zero, length, id, middle, high]
  rfl

/-- Zeros cut off from the end come back with the extension. -/
theorem zeroExtended_take (payload : Bytes) {kept fullLen : Nat} (zeros : ∀ b ∈ (payload.take fullLen).drop kept, b = 0) :
    zeroExtended (payload.take kept) fullLen = zeroExtended payload fullLen := by
  have cut := List.eq_replicate_of_mem zeros
  rw [List.length_drop, List.length_take] at cut
  have whole := (List.take_append_drop kept (payload.take fullLen)).symm
  unfold zeroExtended
  conv => rhs; rw [whole, cut, List.append_assoc, List.replicate_append_replicate]
  rw [List.take_take, List.take_take, Nat.min_comm, List.length_take]
  congr 2
  omega

theorem base_fits {msgId fullLen : Nat} {crcExtra : UInt8} (known : crcExtraAndLen msgId = some (crcExtra, fullLen)) :
    baseLen msgId fullLen ≤ fullLen := by
  unfold baseLen
  split
  · rename_i gps
    subst gps
    cases known
    decide
  · exact Nat.le_refl _

theorem readFrame_wireForm {sysid crcExtra : UInt8} {msgId fullLen : Nat} {payload frame : Bytes}
    (known : crcExtraAndLen msgId = some (crcExtra, fullLen)) (short : payload.length ≤ 255)
    (form : WireForm sysid msgId crcExtra fullLen payload frame) :
    ∃ raw, readFrame frame = .ok ⟨sysid, msgId, raw, some (zeroExtended payload fullLen)⟩ := by
  have small := msgId_small known
  cases form with
  | v2 link kept zeros =>
    have cut : (payload.take kept).length ≤ 255 := Nat.le_trans (List.length_take_le' _ _) short
    have trimmed : ∀ b ∈ (payload.take fullLen).drop kept, b = 0 := by
      intro b member
      rw [List.drop_take] at member
      exact zeros b (List.mem_of_mem_take member)
    rw [← zeroExtended_take payload trimmed]
    exact readFrame_finished known (header_v2 link sysid crcExtra small cut)
  | v1 link kept base zeros =>
    have cut : (payload.take kept).length ≤ 255 := Nat.le_trans (List.length_take_le' _ _) short
    rw [← zeroExtended_take payload zeros]
    exact readFrame_finished known (header_v1 link sysid crcExtra small cut)

/-- From the same vehicle states, all forms of a payload give the same position fields and vehicle states. -/
theorem wire_forms_agree (p q : MavParser) (start : ∀ sysid, p.snapshot sysid = q.snapshot sysid) (sysid crcExtra : UInt8)
    (msgId fullLen : Nat) (known : crcExtraAndLen msgId = some (crcExtra, fullLen)) (payload : Bytes)
    (short : payload.length ≤ 255) (frame frame' : Bytes) (form : WireForm sysid msgId crcExtra fullLen payload frame)
    (form' : WireForm sysid msgId crcExtra fullLen payload frame') :
    (∃ pos pos', (p.parseFrame floats frame).1 = .ok pos ∧ (q.parseFrame floats frame').1 = .ok pos' ∧
      pos.map MavPosition.fields = pos'.map MavPosition.fields) ∧
    ∀ other, (p.parseFrame floats frame).2.snapshot other = (q.parseFrame floats frame').2.snapshot other := by
  obtain ⟨raw, read⟩ := readFrame_wireForm known short form
  obtain ⟨raw', read'⟩ := readFrame_wireForm known short form'
  obtain ⟨⟨pos, parsed, fields⟩, states⟩ := parseFrame_decoded floats p read rfl
  obtain ⟨⟨pos', parsed', fields'⟩, states'⟩ := parseFrame_decoded floats q read' rfl
  constructor
  · refine ⟨pos, pos', parsed, parsed', ?_⟩
    rw [fields, fields', start]
  · intro other
    rw [states, states', start, start]

theorem mavCrc_crc (data : Bytes) (extra : UInt8) : FeedModel.mavCrc data extra = crc data extra :=
  List.foldl_append

theorem zeroExtended_length (payload : Bytes) (fullLen : Nat) : (zeroExtended payload fullLen).length = fullLen := by
  unfold zeroExtended
  rw [List.length_append, List.length_take, List.length_replicate]
  omega

theorem mavFrame_v1 (seq crcExtra : UInt8) (msgId len : Nat) (payload : Bytes) :
    FeedModel.mavFrame seq msgId crcExtra len payload =
      v1Frame ⟨seq, 1, 0, 0⟩ 1 msgId crcExtra (zeroExtended payload len) := by
  unfold FeedModel.mavFrame v1Frame finished
  dsimp only
  rw [mavCrc_crc, zeroExtended_length]
  rfl

/-- What the synthetic feed sends is a form of its payload, so all the forms agree with it. -/
theorem mavFrame_wireForm (seq : UInt8) {crcExtra : UInt8} {msgId len : Nat} (payload : Bytes)
    (known : crcExtraAndLen msgId = some (crcExtra, len)) :
    WireForm 1 msgId crcExtra len (zeroExtended payload len) (FeedModel.mavFrame seq msgId crcExtra len payload) := by
  have whole : (zeroExtended payload len).take len = zeroExtended payload len :=
    List.take_of_length_le (Nat.le_of_eq (zeroExtended_length payload len))
  have nothing : ∀ b ∈ ((zeroExtended payload len).take len).drop len, b = 0 := by
    rw [whole, List.drop_of_length_le (Nat.le_of_eq (zeroExtended_length payload len))]
    intro b member
    cases member
  have form : WireForm 1 msgId crcExtra len (zeroExtended payload len)
      (v1Frame ⟨seq, 1, 0, 0⟩ 1 msgId crcExtra ((zeroExtended payload len).take len)) :=
    WireForm.v1 ⟨seq, 1, 0, 0⟩ len (base_fits known) nothing
  rw [whole] at form
  rw [mavFrame_v1]
  exact form

def quietLink : Link := ⟨0, 1, 0, 0⟩

/-- GPS_RAW_INT with a 3D fix of nine satellites and no extensions. -/
def fixPayload : Bytes := List.replicate 28 0 ++ [3, 9] ++ List.replicate 22 0

theorem fix_forms_agree :
    ((MavParser.parseFrame fewFloats { sourceId := "uav-1", hostility := none }
        (v2Frame quietLink 7 24 24 (fixPayload.take 30))).2.snapshot 7).gpsSats =
      ((MavParser.parseFrame fewFloats { sourceId := "uav-1", hostility := none }
        (v1Frame quietLink 7 24 24 (fixPayload.take 30))).2.snapshot 7).gpsSats := by
  have zeros : ∀ b ∈ fixPayload.drop 30, b = 0 := by
    intro b member
    change b ∈ List.replicate 22 0 at member
    exact List.eq_of_mem_replicate member
  have agree := wire_forms_agree fewFloats { sourceId := "uav-1", hostility := none }
    { sourceId := "uav-1", hostility := none } (fun _ => rfl) 7 24 24 52 rfl fixPayload (by decide)
    (v2Frame quietLink 7 24 24 (fixPayload.take 30)) (v1Frame quietLink 7 24 24 (fixPayload.take 30))
    (WireForm.v2 quietLink 30 zeros) (WireForm.v1 quietLink 30 (by decide) zeros)
  rw [agree.2]

end MavlinkProof
