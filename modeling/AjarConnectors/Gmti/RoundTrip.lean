import AjarConnectors.Gmti.Checked
import AjarConnectors.Gmti.Wire

namespace GmtiModel

open EventModel ByteString HttpModel

/-- A segment of any type, its body behind type and size. -/
structure WireSegment where
  type : UInt8
  body : Bytes

def WireSegment.bytes (s : WireSegment) : Bytes := s.type :: digits (segmentHeaderLen + s.body.length) 4 ++ s.body

/-- The dwell segments among segments, each read from its own bytes; the first error stops. -/
def readDwells (segments : List WireSegment) : Except GmtiError (List Segment) :=
  (segments.filter fun s => s.type = segDwell).mapM fun s => readSegment s.bytes

/-- A packet header but for the packet size; `security` is P3 to P7. -/
structure PacketHeader where
  edition : UInt8
  known : edition = 2 ∨ edition = 3
  version : UInt8
  security : BitVec 64
  platform : Bytes
  ten : platform.length = 10
  missionId : BitVec 32
  jobId : BitVec 32

def PacketHeader.bytes (h : PacketHeader) (packetSize : Nat) : Bytes :=
  [h.edition, h.version] ++ (digits packetSize 4 ++ (digits h.security.toNat 8 ++ (h.platform ++
    (digits h.missionId.toNat 4 ++ digits h.jobId.toNat 4))))

def packetBytes (h : PacketHeader) (segments : List WireSegment) : Bytes :=
  h.bytes (packetHeaderLen + (segments.flatMap WireSegment.bytes).length) ++ segments.flatMap WireSegment.bytes

def PacketHeader.packet (h : PacketHeader) (segments : List Segment) : Packet :=
  { platform := trimText (Utf8.decodeLossy h.platform), jobId := h.jobId.toNat, segments := segments }

/-- What a sender puts in a packet: dwell segments by their fields, and segments of other types. -/
inductive Sent where
  | other (type : UInt8) (skipped : type ≠ segDwell) (body : Bytes)
  | dwell (fields : DwellFields)

def Sent.wire : Sent → WireSegment
  | .other type _ body => { type := type, body := body }
  | .dwell fields => { type := segDwell, body := fields.body }

/-- The raw numbers of a dwell segment and of its reports. -/
def Sent.raw : Sent → Option Segment
  | .other _ _ _ => none
  | .dwell fields => some { raw := (Sent.dwell fields).wire.bytes, dwell := fields.raw
                            reports := fields.reports.map (ReportFields.raw fields.mask) }

/-- Whether the reports of a segment have a position: an absolute one, or a delta from the dwell centre with its
    scales. -/
def DwellFields.positioned (d : DwellFields) : Bool :=
  (d.mask.getMsbD 31 && d.mask.getMsbD 32) ||
    (d.mask.getMsbD 33 && d.mask.getMsbD 34 && d.mask.getMsbD 8 && d.mask.getMsbD 9)

section

variable (floats : Floats)

def DwellFields.position (d : DwellFields) (r : ReportFields) : F64 × F64 :=
  if d.mask.getMsbD 31 && d.mask.getMsbD 32 then
    (sa32 floats r.hrLat.toInt, normLon floats (ba32 floats r.hrLon.toNat))
  else
    (floats.add (sa32 floats d.dwellCenterLat.toInt) (floats.mul (floats.ofInt r.deltaLat.toInt)
      (sa32 floats d.latScale.toInt)),
    normLon floats (floats.add (ba32 floats d.dwellCenterLon.toNat) (floats.mul (floats.ofInt r.deltaLon.toInt)
      (ba32 floats d.lonScale.toNat))))

/-- One target with the numbers that were sent. -/
def DwellFields.target (h : PacketHeader) (d : DwellFields) (r : ReportFields) : GmtiTarget :=
  { platform := trimText (Utf8.decodeLossy h.platform), jobId := h.jobId.toNat, dwellIndex := d.dwellIndex.toNat
    mtiIndex := given d.mask 30 r.mtiIndex.toNat, dwellTimeMs := d.dwellTimeMs.toInt
    sensorLat := sa32 floats d.sensorLat.toInt, sensorLon := normLon floats (ba32 floats d.sensorLon.toNat)
    lat := (d.position floats r).1, lon := (d.position floats r).2
    heightM := given d.mask 35 (floats.ofInt r.height.toInt)
    -- cm/s
    radialVelocityMps := given d.mask 36 (floats.div (floats.ofInt r.radialVelocity.toInt) ⟨0x4059000000000000⟩)
    snrDb := given d.mask 38 r.snr.toInt, classification := given d.mask 39 r.classification.toNat
    rcsDb := given d.mask 47 r.rcs.toInt, raw := (Sent.dwell d).wire.bytes }

/-- One target for each report of a segment, if they have a position. -/
def Sent.targets (h : PacketHeader) : Sent → List GmtiTarget
  | .other _ _ _ => []
  | .dwell d => if d.positioned then d.reports.map (d.target floats h) else []

end

/-- A packet as it is sent; its size is a field of four bytes. -/
structure SentPacket where
  header : PacketHeader
  segments : List Sent
  countable : packetHeaderLen + ((segments.map Sent.wire).flatMap WireSegment.bytes).length < 2^32

def SentPacket.bytes (p : SentPacket) : Bytes := packetBytes p.header (p.segments.map Sent.wire)

/-- What is sent is read back, number by number, and what is not sent is not read. -/
structure FieldTableInverted (floats : Floats) : Prop where
  raw : ∀ (p : SentPacket) after, readPacket (p.bytes ++ after) = .ok (p.header.packet (p.segments.filterMap Sent.raw))
  targets : ∀ (p : SentPacket) after, parsePacketChecked floats (p.bytes ++ after) =
    some (.ok (p.segments.flatMap (Sent.targets floats p.header)))
  ownBytes : ∀ h segments after, packetHeaderLen + (segments.flatMap WireSegment.bytes).length < 2^32 →
    readPacket (packetBytes h segments ++ after) = (readDwells segments).map h.packet
  total : ∀ frame, parsePacketChecked floats frame = some (parsePacket floats frame)

end GmtiModel

namespace GmtiProof

open EventModel ByteString HttpModel GmtiModel

theorem wire_length (s : WireSegment) : s.bytes.length = segmentHeaderLen + s.body.length := by
  rw [WireSegment.bytes, List.cons_append, List.length_cons, List.length_append, digits_length, segmentHeaderLen]
  omega

theorem segment_read (d : DwellFields) :
    readSegment (Sent.dwell d).wire.bytes =
      .ok { raw := (Sent.dwell d).wire.bytes, dwell := d.raw, reports := d.reports.map (ReportFields.raw d.mask) } := by
  have bits : ∀ n < 64, d.raw.bit n = d.mask.getMsbD n := fun n inside => bit_getMsbD inside
  let header : Bytes := segDwell :: digits (segmentHeaderLen + d.body.length) 4
  have five : header.length = segmentHeaderLen := by rw [List.length_cons, digits_length, segmentHeaderLen]
  have whole : (Sent.dwell d).wire.bytes =
      header ++ d.head ++ (d.reports.flatMap (ReportFields.bytes d.mask) ++ d.spare) := by
    simp only [header, Sent.wire, WireSegment.bytes, DwellFields.body, List.append_assoc]
  have dwell := dwell_reads d five [] (d.reports.flatMap (ReportFields.bytes d.mask) ++ d.spare)
  have reports := reports_read bits d.reports (header ++ d.head) d.spare
  rw [List.append_assoc (header ++ d.head)] at reports
  rw [List.nil_append, ← whole] at dwell
  rw [← whole] at reports
  rw [readSegment]
  change (readDwell { buf := _, pos := 0 } >>= _) = _
  rw [show (0 : Nat) = ([] : Bytes).length from rfl, dwell]
  change (readReports d.raw.bit d.reports.length _ >>= _) = _
  rw [reports]
  rfl

section

variable {s : WireSegment} (segments : List WireSegment)

theorem readDwells_dwell (dwell : s.type = segDwell) :
    readDwells (s :: segments) = (do
      let segment ← readSegment s.bytes
      let later ← readDwells segments
      return segment :: later) := by
  have kept : decide (s.type = segDwell) = true := decide_eq_true dwell
  simp only [readDwells, List.filter_cons, kept, if_true, List.mapM_cons]

theorem readDwells_other (other : s.type ≠ segDwell) : readDwells (s :: segments) = readDwells segments := by
  simp [readDwells, other]

end

section

variable {s : WireSegment} {frame rest : Bytes} {off : Nat} (place : frame.drop off = s.bytes ++ rest)

include place

theorem type_at : frame.getD off 0 = s.type := by
  have head : (frame.drop off)[0]? = some s.type := by
    rw [place]
    rfl
  rw [List.getElem?_drop, Nat.add_zero] at head
  rw [List.getD_eq_getElem?_getD, head, Option.getD_some]

theorem size_at (small : s.bytes.length < 2^32) : beNat ((frame.drop (off + 1)).take 4) = s.bytes.length := by
  have behind : frame.drop (off + 1) = digits s.bytes.length 4 ++ (s.body ++ rest) := by
    rw [← List.drop_drop, place, wire_length, WireSegment.bytes, List.cons_append, List.cons_append, List.drop_one,
      List.tail_cons, List.append_assoc]
  have four : (digits s.bytes.length 4).length = 4 := digits_length s.bytes.length 4
  rw [behind, List.take_left' four]
  exact number_digits_of_lt small

theorem slice_at : (frame.drop off).take s.bytes.length = s.bytes := by rw [place, List.take_left]

theorem place_behind : frame.drop (off + s.bytes.length) = rest := by rw [← List.drop_drop, place, List.drop_left]

end

/-- The loop of `parse_packet` reads what stands ahead of it, segment by segment. -/
theorem segments_read (segments : List WireSegment) {frame after : Bytes} {packetSize off steps : Nat}
    (place : frame.drop off = segments.flatMap WireSegment.bytes ++ after)
    (ends : off + (segments.flatMap WireSegment.bytes).length = packetSize) (small : packetSize < 2^32)
    (enough : segments.length < steps) : readSegments frame packetSize steps off = readDwells segments := by
  induction segments generalizing off steps with
  | nil =>
    cases steps with
    | zero => cases enough
    | succ steps =>
      have done : packetSize < off + segmentHeaderLen := by
        rw [← ends]
        simp [segmentHeaderLen]
      rw [readSegments, if_pos done]
      rfl
  | cons s segments ih =>
    cases steps with
    | zero => cases enough
    | succ steps =>
      have long := wire_length s
      rw [List.flatMap_cons, List.append_assoc] at place
      rw [List.flatMap_cons, List.length_append] at ends
      have later := ih (place_behind place) (by omega) (Nat.lt_of_succ_lt_succ enough)
      have more : ¬ packetSize < off + segmentHeaderLen := by omega
      have sized : ¬ (s.bytes.length < segmentHeaderLen ∨ packetSize < off + s.bytes.length) := by omega
      rw [readSegments, if_neg more, size_at place (by omega), type_at place]
      dsimp only
      rw [if_neg sized, slice_at place, later]
      by_cases dwell : s.type = segDwell
      · rw [readDwells_dwell segments dwell, if_pos dwell]
        rcases readSegment s.bytes with e | segment <;> rfl
      · rw [readDwells_other segments dwell, if_neg dwell]
        change (readDwells segments >>= fun later => pure ([] ++ later)) = _
        rw [show (fun later : List Segment => (pure ([] ++ later) : Except GmtiError _)) = pure from rfl, bind_pure]

theorem header_length (h : PacketHeader) (packetSize : Nat) : (h.bytes packetSize).length = packetHeaderLen := by
  simp only [PacketHeader.bytes, List.length_append, List.length_cons, List.length_nil, digits_length, h.ten,
    packetHeaderLen]

theorem segments_few (segments : List WireSegment) :
    segments.length * segmentHeaderLen ≤ (segments.flatMap WireSegment.bytes).length := by
  induction segments with
  | nil => exact Nat.zero_le _
  | cons s segments ih =>
    have long := wire_length s
    rw [List.length_cons, List.flatMap_cons, List.length_append, Nat.succ_mul]
    omega

section

variable (h : PacketHeader) (packetSize : Nat) (rest : Bytes)

theorem header_size : ((h.bytes packetSize ++ rest).drop 2).take 4 = digits packetSize 4 := by
  have four : (digits packetSize 4).length = 4 := digits_length packetSize 4
  rw [PacketHeader.bytes, List.append_assoc, List.append_assoc]
  exact List.take_left' four

theorem header_platform : ((h.bytes packetSize ++ rest).drop 14).take 10 = h.platform := by
  have whole : h.bytes packetSize ++ rest = [h.edition, h.version] ++ digits packetSize 4 ++ digits h.security.toNat 8 ++
      (h.platform ++ (digits h.missionId.toNat 4 ++ digits h.jobId.toNat 4 ++ rest)) := by
    simp only [PacketHeader.bytes, List.append_assoc]
  have ahead : ([h.edition, h.version] ++ digits packetSize 4 ++ digits h.security.toNat 8).length = 14 := by simp
  rw [whole, List.drop_left' ahead, List.take_left' h.ten]

theorem header_jobId : ((h.bytes packetSize ++ rest).drop 28).take 4 = digits h.jobId.toNat 4 := by
  have whole : h.bytes packetSize ++ rest = [h.edition, h.version] ++ digits packetSize 4 ++ digits h.security.toNat 8 ++
      h.platform ++ digits h.missionId.toNat 4 ++ (digits h.jobId.toNat 4 ++ rest) := by
    simp only [PacketHeader.bytes, List.append_assoc]
  have ahead : ([h.edition, h.version] ++ digits packetSize 4 ++ digits h.security.toNat 8 ++ h.platform ++
      digits h.missionId.toNat 4).length = 28 := by simp [h.ten]
  rw [whole, List.drop_left' ahead, List.take_left' (digits_length h.jobId.toNat 4)]

end

/-- Each dwell segment is read from its own bytes and from nothing else, whatever they are. -/
theorem packet_read (h : PacketHeader) (segments : List WireSegment)
    (small : packetHeaderLen + (segments.flatMap WireSegment.bytes).length < 2^32) (after : Bytes) :
    readPacket (packetBytes h segments ++ after) = (readDwells segments).map h.packet := by
  let rest := segments.flatMap WireSegment.bytes ++ after
  have few := segments_few segments
  have thirtyTwo := header_length h (packetHeaderLen + (segments.flatMap WireSegment.bytes).length)
  have whole : packetBytes h segments ++ after =
      h.bytes (packetHeaderLen + (segments.flatMap WireSegment.bytes).length) ++ rest := by
    rw [packetBytes, List.append_assoc]
  have long : (packetBytes h segments ++ after).length =
      packetHeaderLen + (segments.flatMap WireSegment.bytes).length + after.length := by
    rw [packetBytes, List.length_append, List.length_append, thirtyTwo]
  have edition : (packetBytes h segments ++ after).getD 0 0 = h.edition := rfl
  have known : ¬ (h.edition ≠ 2 ∧ h.edition ≠ 3) := fun unknown => h.known.elim unknown.1 unknown.2
  have size : beNat (((packetBytes h segments ++ after).drop 2).take 4) =
      packetHeaderLen + (segments.flatMap WireSegment.bytes).length := by
    rw [whole, header_size]
    exact number_digits_of_lt small
  have read : readSegments (packetBytes h segments ++ after) (packetHeaderLen + (segments.flatMap WireSegment.bytes).length)
      (packetHeaderLen + (segments.flatMap WireSegment.bytes).length) packetHeaderLen = readDwells segments := by
    apply segments_read segments _ rfl small
    · simp only [segmentHeaderLen, packetHeaderLen] at few ⊢
      omega
    · exact after
    · rw [whole, List.drop_left' thirtyTwo]
  have job : beNat (digits h.jobId.toNat 4) = h.jobId.toNat := beNat_digits h.jobId rfl
  rw [readPacket, if_neg (by omega)]
  dsimp only
  rw [edition, if_neg known, size, if_neg (by omega), read, whole, header_platform, header_jobId, job]
  rcases readDwells segments with e | read <;> rfl

theorem sent_read (segments : List Sent) : readDwells (segments.map Sent.wire) = .ok (segments.filterMap Sent.raw) := by
  induction segments with
  | nil => rfl
  | cons sent segments ih =>
    cases sent with
    | other type skipped body =>
      rw [List.map_cons, readDwells_other _ skipped, ih]
      rfl
    | dwell d =>
      rw [List.map_cons, readDwells_dwell _ rfl, segment_read, ih]
      rfl

theorem given_map {α β : Type} (f : α → β) (mask : BitVec 64) (n : Nat) (value : α) :
    (given mask n value).map f = given mask n (f value) := by
  rw [given, given]
  cases mask.getMsbD n <;> rfl

theorem position_raw (floats : Floats) (d : DwellFields) (r : ReportFields) :
    position floats d.raw (r.raw d.mask) = if d.positioned then some (d.position floats r) else none := by
  unfold position
  simp only [DwellFields.raw, ReportFields.raw, given]
  unfold DwellFields.positioned DwellFields.position
  cases d.mask.getMsbD 31 <;> cases d.mask.getMsbD 32 <;> cases d.mask.getMsbD 33 <;> cases d.mask.getMsbD 34 <;>
    cases d.mask.getMsbD 8 <;> cases d.mask.getMsbD 9 <;> rfl

section

variable (floats : Floats) (h : PacketHeader) (d : DwellFields)

theorem locate_raw (reports : List Report) (r : ReportFields) :
    locate floats (trimText (Utf8.decodeLossy h.platform)) h.jobId.toNat ⟨(Sent.dwell d).wire.bytes, d.raw, reports⟩
      (r.raw d.mask) = if d.positioned then some (d.target floats h r) else none := by
  rw [locate, position_raw]
  cases d.positioned with
  | false => rfl
  | true =>
    simp only [if_true, Option.map_some, DwellFields.target, DwellFields.raw, ReportFields.raw, given_map]

theorem located_raw (reports : List Report) (sent : List ReportFields) :
    (sent.map (ReportFields.raw d.mask)).filterMap (locate floats (trimText (Utf8.decodeLossy h.platform)) h.jobId.toNat
      ⟨(Sent.dwell d).wire.bytes, d.raw, reports⟩) = if d.positioned then sent.map (d.target floats h) else [] := by
  induction sent with
  | nil => cases d.positioned <;> rfl
  | cons r sent ih =>
    rw [List.map_cons, List.filterMap_cons, ih, locate_raw]
    cases d.positioned <;> rfl

/-- The targets of what was read are those of what was sent. -/
theorem targets_raw (segments : List Sent) :
    (h.packet (segments.filterMap Sent.raw)).targets floats = segments.flatMap (Sent.targets floats h) := by
  change (segments.filterMap Sent.raw).flatMap (fun s =>
    s.reports.filterMap (locate floats (trimText (Utf8.decodeLossy h.platform)) h.jobId.toNat s)) = _
  induction segments with
  | nil => rfl
  | cons sent segments ih =>
    cases sent with
    | other type skipped body => exact ih
    | dwell d =>
      have here : (Sent.dwell d :: segments).filterMap Sent.raw = ⟨(Sent.dwell d).wire.bytes, d.raw,
          d.reports.map (ReportFields.raw d.mask)⟩ :: segments.filterMap Sent.raw := rfl
      rw [here, List.flatMap_cons, List.flatMap_cons, ih, located_raw]
      rfl

end

theorem field_table_is_inverted (floats : Floats) : FieldTableInverted floats := by
  have raw : ∀ (p : SentPacket) after,
      readPacket (p.bytes ++ after) = .ok (p.header.packet (p.segments.filterMap Sent.raw)) := by
    intro p after
    rw [SentPacket.bytes, packet_read p.header _ p.countable, sent_read]
    rfl
  apply FieldTableInverted.mk raw
  · intro p after
    rw [parsePacketChecked_eq, parsePacket, raw, Except.map, targets_raw]
  · intro h segments after small
    exact packet_read h segments small after
  · exact parsePacketChecked_eq floats

end GmtiProof
