import AjarConnectors.ByteString.BigEndian
import AjarConnectors.Gmti.Parser

namespace GmtiModel

open EventModel ByteString HttpModel

/-- What a sender puts in a target report, D32.1 to D32.18. -/
structure ReportFields where
  mtiIndex : BitVec 16
  hrLat : BitVec 32
  hrLon : BitVec 32
  deltaLat : BitVec 16
  deltaLon : BitVec 16
  height : BitVec 16
  radialVelocity : BitVec 16
  snr : BitVec 8
  classification : BitVec 8
  rcs : BitVec 8
  /-- The fields that are not read, by their mask bits. -/
  other : Nat → Nat

/-- What a sender puts in a dwell segment, and bytes left over behind its last report. -/
structure DwellFields where
  mask : BitVec 64
  revisit : BitVec 16
  dwellIndex : BitVec 16
  lastDwell : BitVec 8
  dwellTimeMs : BitVec 32
  sensorLat : BitVec 32
  sensorLon : BitVec 32
  sensorAltCm : BitVec 32
  latScale : BitVec 32
  lonScale : BitVec 32
  dwellCenterLat : BitVec 32
  dwellCenterLon : BitVec 32
  rangeHalfExtent : BitVec 16
  angleHalfExtent : BitVec 16
  other : Nat → Nat
  reports : List ReportFields
  spare : Bytes
  /-- Their count is a field of two bytes. -/
  countable : reports.length < 2^16

/-- Fields one after the other; one with a mask bit is written if its bit is set, one without is mandatory. Bit 0 is the
    most significant. -/
def written (mask : BitVec 64) : List (Option Nat × Bytes) → Bytes
  | [] => []
  | (none, bytes) :: fields => bytes ++ written mask fields
  | (some n, bytes) :: fields => (if mask.getMsbD n then bytes else []) ++ written mask fields

/-- D1 to D11. -/
def DwellFields.leading (d : DwellFields) : List (Option Nat × Bytes) :=
  [(none, digits d.mask.toNat 8), (none, digits d.revisit.toNat 2), (none, digits d.dwellIndex.toNat 2),
    (none, digits d.lastDwell.toNat 1), (none, digits d.reports.length 2), (none, digits d.dwellTimeMs.toNat 4),
    (none, digits d.sensorLat.toNat 4), (none, digits d.sensorLon.toNat 4), (none, digits d.sensorAltCm.toNat 4),
    (some 8, digits d.latScale.toNat 4), (some 9, digits d.lonScale.toNat 4)]

/-- D12 to D23. -/
def DwellFields.sensor (d : DwellFields) : List (Option Nat × Bytes) :=
  [(some 10, digits (d.other 10) 4), (some 11, digits (d.other 11) 4), (some 12, digits (d.other 12) 2),
    (some 13, digits (d.other 13) 2), (some 14, digits (d.other 14) 4), (some 15, digits (d.other 15) 1),
    (some 16, digits (d.other 16) 1), (some 17, digits (d.other 17) 2), (some 18, digits (d.other 18) 2),
    (some 19, digits (d.other 19) 2), (some 20, digits (d.other 20) 2), (some 21, digits (d.other 21) 2)]

/-- D24 to D27. -/
def DwellFields.area (d : DwellFields) : List (Option Nat × Bytes) :=
  [(none, digits d.dwellCenterLat.toNat 4), (none, digits d.dwellCenterLon.toNat 4),
    (none, digits d.rangeHalfExtent.toNat 2), (none, digits d.angleHalfExtent.toNat 2)]

/-- D28 to D31. -/
def DwellFields.orientation (d : DwellFields) : List (Option Nat × Bytes) :=
  [(some 26, digits (d.other 26) 2), (some 27, digits (d.other 27) 2), (some 28, digits (d.other 28) 2),
    (some 29, digits (d.other 29) 1)]

/-- D32.1 to D32.10. -/
def ReportFields.measured (r : ReportFields) : List (Option Nat × Bytes) :=
  [(some 30, digits r.mtiIndex.toNat 2), (some 31, digits r.hrLat.toNat 4), (some 32, digits r.hrLon.toNat 4),
    (some 33, digits r.deltaLat.toNat 2), (some 34, digits r.deltaLon.toNat 2), (some 35, digits r.height.toNat 2),
    (some 36, digits r.radialVelocity.toNat 2), (some 37, digits (r.other 37) 2), (some 38, digits r.snr.toNat 1),
    (some 39, digits r.classification.toNat 1)]

/-- D32.11 to D32.17. -/
def ReportFields.uncertainty (r : ReportFields) : List (Option Nat × Bytes) :=
  [(some 40, digits (r.other 40) 1), (some 41, digits (r.other 41) 2), (some 42, digits (r.other 42) 2),
    (some 43, digits (r.other 43) 1), (some 44, digits (r.other 44) 2), (some 45, digits (r.other 45) 1),
    (some 46, digits (r.other 46) 4)]

/-- D32.18. -/
def ReportFields.crossSection (r : ReportFields) : List (Option Nat × Bytes) := [(some 47, digits r.rcs.toNat 1)]

def ReportFields.bytes (mask : BitVec 64) (r : ReportFields) : Bytes :=
  written mask (r.measured ++ r.uncertainty ++ r.crossSection)

/-- D1 to D31, in order. -/
def DwellFields.head (d : DwellFields) : Bytes := written d.mask (d.leading ++ d.sensor ++ d.area ++ d.orientation)

/-- A dwell segment behind its segment header. -/
def DwellFields.body (d : DwellFields) : Bytes := d.head ++ d.reports.flatMap (ReportFields.bytes d.mask) ++ d.spare

def given {α : Type} (mask : BitVec 64) (n : Nat) (value : α) : Option α := if mask.getMsbD n then some value else none

/-- The raw numbers of a report's fields, as far as its mask gives them. -/
def ReportFields.raw (mask : BitVec 64) (r : ReportFields) : Report :=
  { mtiIndex := given mask 30 r.mtiIndex.toNat, hrLat := given mask 31 r.hrLat.toInt
    hrLon := given mask 32 r.hrLon.toNat, deltaLat := given mask 33 r.deltaLat.toInt
    deltaLon := given mask 34 r.deltaLon.toInt, heightM := given mask 35 r.height.toInt
    radialVelocity := given mask 36 r.radialVelocity.toInt, snrDb := given mask 38 r.snr.toInt
    classification := given mask 39 r.classification.toNat, rcsDb := given mask 47 r.rcs.toInt }

def DwellFields.raw (d : DwellFields) : Dwell :=
  { mask := d.mask.toNat, revisit := d.revisit.toNat, dwellIndex := d.dwellIndex.toNat
    lastDwell := d.lastDwell.toNat, targetCount := d.reports.length, dwellTimeMs := d.dwellTimeMs.toInt
    sensorLat := d.sensorLat.toInt, sensorLon := d.sensorLon.toNat, sensorAltCm := d.sensorAltCm.toInt
    latScale := given d.mask 8 d.latScale.toInt, lonScale := given d.mask 9 d.lonScale.toNat
    dwellCenterLat := d.dwellCenterLat.toInt, dwellCenterLon := d.dwellCenterLon.toNat }

/-- At the front of what is left, a reader takes just these bytes and gives this value. -/
def Reads {α : Type} (m : Reading α) (bytes : Bytes) (value : α) : Prop :=
  ∀ before after, m { buf := before ++ bytes ++ after, pos := before.length } =
    .ok (value, { buf := before ++ bytes ++ after, pos := (before ++ bytes).length })

end GmtiModel

namespace GmtiProof

open EventModel ByteString HttpModel GmtiModel

section

variable {α β : Type} {mask : BitVec 64}

theorem reads_pure (value : α) : Reads (pure value) [] value := by
  intro before after
  rw [List.append_nil]
  rfl

theorem reads_bind {m : Reading α} {f : α → Reading β} {first second : Bytes} {a : α} {b : β}
    (here : Reads m first a) (later : Reads (f a) second b) : Reads (m >>= f) (first ++ second) b := by
  intro before after
  have firstRun := here before (second ++ after)
  have secondRun := later (before ++ first) after
  simp only [List.append_assoc] at firstRun secondRun ⊢
  change (m _ >>= fun p => f p.1 p.2) = _
  rw [firstRun]
  exact secondRun

theorem reads_map {m : Reading α} {bytes : Bytes} {a : α} (g : α → β) (reads : Reads m bytes a) :
    Reads (m >>= fun value => pure (g value)) bytes (g a) := by
  have mapped := reads_bind (f := fun value => pure (g value)) reads (reads_pure (g a))
  rw [List.append_nil] at mapped
  exact mapped

theorem take_reads (bytes : Bytes) : Reads (take bytes.length) bytes bytes := by
  intro before after
  have room : before.length + bytes.length ≤ (before ++ bytes ++ after).length := by
    simp only [List.length_append]
    omega
  have here : (before ++ bytes ++ after).drop before.length = bytes ++ after := by
    rw [List.append_assoc, List.drop_left]
  rw [take, if_pos room]
  dsimp only
  rw [here, List.take_left, List.length_append]

theorem take_digits (value n : Nat) : Reads (take n) (digits value n) (digits value n) := by
  have reads := take_reads (digits value n)
  rw [digits_length] at reads
  exact reads

theorem skip_reads (bytes : Bytes) : Reads (skip bytes.length) bytes () := reads_map (fun _ => ()) (take_reads bytes)

theorem skip_digits (value n : Nat) : Reads (skip n) (digits value n) () := reads_map (fun _ => ()) (take_digits value n)

section

variable {n w : Nat} (value : BitVec w) (width : 2^w = 256^n)

include width

theorem beNat_digits : beNat (digits value.toNat n) = value.toNat := number_digits_of_lt (width ▸ value.isLt)

theorem unsigned_reads : Reads (unsigned n) (digits value.toNat n) value.toNat := by
  have reads := reads_map beNat (take_digits value.toNat n)
  rw [beNat_digits value width] at reads
  exact reads

theorem signed_reads : Reads (signed n) (digits value.toNat n) value.toInt := by
  have reads := reads_map (fun bytes => (beNat bytes : Int).bmod (256^n)) (take_digits value.toNat n)
  have twos : (value.toNat : Int).bmod (256^n) = value.toInt := by rw [BitVec.toInt_eq_toNat_bmod, width]
  rw [beNat_digits value width, twos] at reads
  exact reads

end

/-- Counted from the most significant, as the parser counts. -/
theorem bit_getMsbD {n : Nat} (inside : n < 64) : mask.toNat.testBit (63 - n) = mask.getMsbD n := by
  rw [BitVec.getMsbD_eq_getLsbD, BitVec.testBit_toNat]
  simp [inside]

theorem present_reads {m : Reading α} {bytes : Bytes} {a : α} (n : Nat) (reads : Reads m bytes a) :
    Reads (present (mask.getMsbD n) m) (if mask.getMsbD n then bytes else []) (given mask n a) := by
  cases set : mask.getMsbD n with
  | false =>
    rw [present, given, set]
    exact reads_pure none
  | true =>
    rw [present, given, set]
    exact reads_map some reads

theorem written_append (first second : List (Option Nat × Bytes)) :
    written mask (first ++ second) = written mask first ++ written mask second := by
  induction first with
  | nil => rfl
  | cons field first ih =>
    obtain ⟨bit | n, bytes⟩ := field <;> simp [written, ih]

/-- A field that is only skipped, ahead of the rest. -/
theorem skipIf_reads (bit : Bool) (value len : Nat) {m : Reading β} {bytes : Bytes} {b : β} (later : Reads m bytes b) :
    Reads (if bit then skip len >>= fun _ => m else m) ((if bit then digits value len else []) ++ bytes) b := by
  cases bit with
  | false => exact later
  | true => exact reads_bind (skip_digits value len) later

section

variable {bit : Nat → Bool} (same : ∀ n < 64, bit n = mask.getMsbD n)

include same

theorem skipPresent_reads (other : Nat → Nat) (fields : List (Nat × Nat)) (inside : ∀ field ∈ fields, field.1 < 64) :
    Reads (skipPresent bit fields) (written mask (fields.map fun field => (some field.1, digits (other field.1) field.2)))
      () := by
  induction fields with
  | nil => exact reads_pure ()
  | cons field fields ih =>
    obtain ⟨n, len⟩ := field
    have later := ih fun field member => inside field (List.mem_cons_of_mem _ member)
    have here : bit n = mask.getMsbD n := same n (inside (n, len) List.mem_cons_self)
    rw [skipPresent, here]
    exact skipIf_reads (mask.getMsbD n) (other n) len later

theorem report_reads (r : ReportFields) :
    Reads (readReport bit) (r.bytes mask) (r.raw mask) := by
  have uncertainty := skipPresent_reads same r.other targetUncertaintyFields (by decide)
  rw [ReportFields.bytes, written_append, written_append, List.append_assoc]
  unfold readReport
  simp only [same 30 (by decide), same 31 (by decide), same 32 (by decide), same 33 (by decide), same 34 (by decide),
    same 35 (by decide), same 36 (by decide), same 37 (by decide), same 38 (by decide), same 39 (by decide),
    same 47 (by decide)]
  simp only [ReportFields.measured, written, List.append_assoc, List.nil_append]
  apply reads_bind (present_reads 30 (unsigned_reads r.mtiIndex rfl))
  apply reads_bind (present_reads 31 (signed_reads r.hrLat rfl))
  apply reads_bind (present_reads 32 (unsigned_reads r.hrLon rfl))
  apply reads_bind (present_reads 33 (signed_reads r.deltaLat rfl))
  apply reads_bind (present_reads 34 (signed_reads r.deltaLon rfl))
  apply reads_bind (present_reads 35 (signed_reads r.height rfl))
  apply reads_bind (present_reads 36 (signed_reads r.radialVelocity rfl))
  apply skipIf_reads
  apply reads_bind (present_reads 38 (signed_reads r.snr rfl))
  apply reads_bind (present_reads 39 (unsigned_reads r.classification rfl))
  apply reads_bind uncertainty
  simp only [ReportFields.crossSection, written]
  apply reads_bind (present_reads 47 (signed_reads r.rcs rfl))
  apply reads_pure

theorem reports_read (reports : List ReportFields) :
    Reads (readReports bit reports.length) (reports.flatMap (ReportFields.bytes mask))
      (reports.map (ReportFields.raw mask)) := by
  induction reports with
  | nil => exact reads_pure []
  | cons r reports ih =>
    rw [List.length_cons, readReports, List.flatMap_cons, List.map_cons]
    exact reads_bind (report_reads same r) (reads_map _ ih)

end

theorem dwell_reads (d : DwellFields) {header : Bytes} (five : header.length = segmentHeaderLen) :
    Reads readDwell (header ++ d.head) d.raw := by
  have bits : ∀ n < 64, d.mask.toNat.testBit (63 - n) = d.mask.getMsbD n := fun n inside => bit_getMsbD inside
  have sensor := skipPresent_reads bits d.other sensorFields (by decide)
  have orientation := skipPresent_reads bits d.other orientationFields (by decide)
  have extents := skip_reads (digits d.rangeHalfExtent.toNat 2 ++ digits d.angleHalfExtent.toNat 2)
  rw [List.length_append, digits_length, digits_length] at extents
  have count := unsigned_reads (n := 2) (BitVec.ofNat 16 d.reports.length) rfl
  rw [BitVec.toNat_ofNat, Nat.mod_eq_of_lt d.countable] at count
  rw [DwellFields.head, written_append, written_append, written_append]
  simp only [DwellFields.leading, DwellFields.area, written, List.append_assoc, List.nil_append]
  unfold readDwell
  rw [← five]
  apply reads_bind (skip_reads header)
  apply reads_bind (unsigned_reads d.mask rfl)
  dsimp only
  rw [bits 8 (by decide), bits 9 (by decide)]
  apply reads_bind (unsigned_reads d.revisit rfl)
  apply reads_bind (unsigned_reads d.dwellIndex rfl)
  apply reads_bind (unsigned_reads d.lastDwell rfl)
  apply reads_bind count
  apply reads_bind (signed_reads d.dwellTimeMs rfl)
  apply reads_bind (signed_reads d.sensorLat rfl)
  apply reads_bind (unsigned_reads d.sensorLon rfl)
  apply reads_bind (signed_reads d.sensorAltCm rfl)
  apply reads_bind (present_reads 8 (signed_reads d.latScale rfl))
  apply reads_bind (present_reads 9 (unsigned_reads d.lonScale rfl))
  apply reads_bind sensor
  apply reads_bind (signed_reads d.dwellCenterLat rfl)
  apply reads_bind (unsigned_reads d.dwellCenterLon rfl)
  rw [← List.append_assoc (digits d.rangeHalfExtent.toNat 2)]
  apply reads_bind extents
  exact reads_map _ orientation

end

end GmtiProof
