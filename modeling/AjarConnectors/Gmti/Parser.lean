import AjarConnectors.Builder.Optional
import AjarConnectors.Event.Floats
import AjarConnectors.Http.Server
import AjarConnectors.Utf8.Lossy

namespace GmtiModel

open EventModel BuilderModel HttpModel

def packetHeaderLen : Nat := 32

/-- Segment type (1 byte) and size (4 bytes). -/
def segmentHeaderLen : Nat := 5

def segDwell : UInt8 := 2

/-- Existence-mask bit and byte size of the dwell fields this parser skips between the sensor position and the
    dwell area. -/
def sensorFields : List (Nat × Nat) :=
  [(10, 4), (11, 4), (12, 2), (13, 2), (14, 4), (15, 1), (16, 1), (17, 2), (18, 2), (19, 2), (20, 2), (21, 2)]

/-- Dwell fields skipped after the dwell area. -/
def orientationFields : List (Nat × Nat) := [(26, 2), (27, 2), (28, 2), (29, 1)]

/-- Target report fields skipped between classification and RCS. -/
def targetUncertaintyFields : List (Nat × Nat) := [(40, 1), (41, 2), (42, 2), (43, 1), (44, 2), (45, 1), (46, 4)]

inductive GmtiError where
  | notGmti
  | truncated
  | badSegment
  | build (error : BuildError)
  deriving DecidableEq

def beNat (bytes : Bytes) : Nat := bytes.foldl (fun value b => value * 256 + b.toNat) 0

/-- A bounds-checked big-endian reader. -/
structure Reader where
  buf : Bytes
  pos : Nat := 0

abbrev Reading := StateT Reader (Except GmtiError)

def take (n : Nat) : Reading Bytes := fun r =>
  if r.pos + n ≤ r.buf.length then .ok ((r.buf.drop r.pos).take n, { r with pos := r.pos + n }) else .error .truncated

def skip (n : Nat) : Reading Unit := do
  let _ ← take n

def unsigned (n : Nat) : Reading Nat := do
  let bytes ← take n
  return beNat bytes

def signed (n : Nat) : Reading Int := do
  let bytes ← take n
  return (beNat bytes : Int).bmod (256 ^ n)

/-- A field that is there if its mask bit is set. -/
def present {α : Type} (bit : Bool) (field : Reading α) : Reading (Option α) :=
  if bit then do
    let value ← field
    return some value
  else return none

def skipPresent (bit : Nat → Bool) : List (Nat × Nat) → Reading Unit
  | [] => return ()
  | (n, len) :: fields => do
    if bit n then skip len
    skipPresent bit fields

/-- What a dwell segment says ahead of its target reports, as it stands on the wire. -/
structure Dwell where
  mask : Nat
  revisit : Nat
  dwellIndex : Nat
  lastDwell : Nat
  targetCount : Nat
  dwellTimeMs : Int
  sensorLat : Int
  sensorLon : Nat
  sensorAltCm : Int
  latScale : Option Int
  lonScale : Option Nat
  dwellCenterLat : Int
  dwellCenterLon : Nat

def Dwell.bit (d : Dwell) (n : Nat) : Bool := d.mask.testBit (63 - n)

/-- The fields of one target report that are read. -/
structure Report where
  mtiIndex : Option Nat
  hrLat : Option Int
  hrLon : Option Nat
  deltaLat : Option Int
  deltaLon : Option Int
  heightM : Option Int
  radialVelocity : Option Int
  snrDb : Option Int
  classification : Option Nat
  rcsDb : Option Int

def readDwell : Reading Dwell := do
  skip segmentHeaderLen
  let mask ← unsigned 8
  let bit := fun n => mask.testBit (63 - n)
  let revisit ← unsigned 2
  let dwellIndex ← unsigned 2
  let lastDwell ← unsigned 1
  let targetCount ← unsigned 2
  let dwellTimeMs ← signed 4
  let sensorLat ← signed 4
  let sensorLon ← unsigned 4
  let sensorAltCm ← signed 4
  let latScale ← present (bit 8) (signed 4)
  let lonScale ← present (bit 9) (unsigned 4)
  skipPresent bit sensorFields
  let dwellCenterLat ← signed 4
  let dwellCenterLon ← unsigned 4
  -- D26 dwell range half extent, D27 dwell angle half extent
  skip 4
  skipPresent bit orientationFields
  return { mask := mask, revisit := revisit, dwellIndex := dwellIndex, lastDwell := lastDwell,
           targetCount := targetCount, dwellTimeMs := dwellTimeMs, sensorLat := sensorLat, sensorLon := sensorLon,
           sensorAltCm := sensorAltCm, latScale := latScale, lonScale := lonScale, dwellCenterLat := dwellCenterLat,
           dwellCenterLon := dwellCenterLon }

def readReport (bit : Nat → Bool) : Reading Report := do
  let mtiIndex ← present (bit 30) (unsigned 2)
  let hrLat ← present (bit 31) (signed 4)
  let hrLon ← present (bit 32) (unsigned 4)
  let deltaLat ← present (bit 33) (signed 2)
  let deltaLon ← present (bit 34) (signed 2)
  let heightM ← present (bit 35) (signed 2)
  let radialVelocity ← present (bit 36) (signed 2)
  -- D32.8 wrap velocity
  if bit 37 then skip 2
  let snrDb ← present (bit 38) (signed 1)
  let classification ← present (bit 39) (unsigned 1)
  skipPresent bit targetUncertaintyFields
  let rcsDb ← present (bit 47) (signed 1)
  return { mtiIndex := mtiIndex, hrLat := hrLat, hrLon := hrLon, deltaLat := deltaLat, deltaLon := deltaLon,
           heightM := heightM, radialVelocity := radialVelocity, snrDb := snrDb, classification := classification,
           rcsDb := rcsDb }

def readReports (bit : Nat → Bool) : Nat → Reading (List Report)
  | 0 => return []
  | n + 1 => do
    let report ← readReport bit
    let reports ← readReports bit n
    return report :: reports

/-- A dwell segment with its reports, as `parse_dwell` reads it. -/
structure Segment where
  raw : Bytes
  dwell : Dwell
  reports : List Report

def readSegment (seg : Bytes) : Except GmtiError Segment := do
  let (dwell, r) ← readDwell { buf := seg }
  let (reports, _) ← readReports dwell.bit dwell.targetCount r
  return ⟨seg, dwell, reports⟩

/-- The dwell segments from `off` on; other segment types are skipped by size. Every segment is at least its header
    long, so `packetSize` steps are enough. -/
def readSegments (frame : Bytes) (packetSize : Nat) : Nat → Nat → Except GmtiError (List Segment)
  | 0, _ => return []
  | steps + 1, off =>
    if packetSize < off + segmentHeaderLen then return []
    else do
      let segSize := beNat ((frame.drop (off + 1)).take 4)
      if segSize < segmentHeaderLen ∨ packetSize < off + segSize then throw .badSegment
      let here ←
        if frame.getD off 0 = segDwell then do
          let segment ← readSegment ((frame.drop off).take segSize)
          pure [segment]
        else pure []
      let rest ← readSegments frame packetSize steps (off + segSize)
      return here ++ rest

/-- The platform and job of a packet, and its dwell segments. -/
structure Packet where
  platform : Text
  jobId : Nat
  segments : List Segment

/-- GMTI has no magic number; the edition byte and a sane packet size are the only format check. -/
def readPacket (frame : Bytes) : Except GmtiError Packet := do
  if frame.length < packetHeaderLen then throw .truncated
  let edition := frame.getD 0 0
  if edition ≠ 2 ∧ edition ≠ 3 then throw .notGmti
  let packetSize := beNat ((frame.drop 2).take 4)
  if packetSize < packetHeaderLen ∨ frame.length < packetSize then throw .truncated
  let segments ← readSegments frame packetSize packetSize packetHeaderLen
  return { platform := trimText (Utf8.decodeLossy ((frame.drop 14).take 10))
           jobId := beNat ((frame.drop 28).take 4)
           segments := segments }

/-- One located target report with its dwell context. -/
structure GmtiTarget where
  platform : Text
  jobId : Nat
  dwellIndex : Nat
  mtiIndex : Option Nat
  dwellTimeMs : Int
  sensorLat : F64
  sensorLon : F64
  lat : F64
  lon : F64
  heightM : Option F64
  radialVelocityMps : Option F64
  snrDb : Option Int
  classification : Option Nat
  rcsDb : Option Int
  raw : Bytes

section

variable (floats : Floats)

/-- STANAG 4607 SA32 signed binary angle to degrees: `v * 1.406_25 / 33_554_432.0`. -/
def sa32 (v : Int) : F64 := floats.div (floats.mul (floats.ofInt v) ⟨0x3ff6800000000000⟩) ⟨0x4180000000000000⟩

/-- STANAG 4607 BA32 binary angle to degrees in 0..360: `v * 1.406_25 / 16_777_216.0`. -/
def ba32 (v : Nat) : F64 := floats.div (floats.mul (floats.ofInt v) ⟨0x3ff6800000000000⟩) ⟨0x4170000000000000⟩

/-- A 0..360 longitude to -180..180; 360.0 is subtracted by adding its negative. -/
def normLon (deg : F64) : F64 := if Rust.oneEighty.lt deg then floats.add deg ⟨0xc076800000000000⟩ else deg

/-- Absolute hi-res position, else the delta from the dwell centre times the scale factors. -/
def position (d : Dwell) (r : Report) : Option (F64 × F64) :=
  match r.hrLat, r.hrLon with
  | some la, some lo => some (sa32 floats la, normLon floats (ba32 floats lo))
  | _, _ => match r.deltaLat, r.deltaLon, d.latScale, d.lonScale with
    | some dla, some dlo, some ls, some los =>
      some (floats.add (sa32 floats d.dwellCenterLat) (floats.mul (floats.ofInt dla) (sa32 floats ls)),
        normLon floats (floats.add (ba32 floats d.dwellCenterLon) (floats.mul (floats.ofInt dlo) (ba32 floats los))))
    | _, _, _, _ => none

/-- A report without a position is dropped. -/
def locate (platform : Text) (jobId : Nat) (s : Segment) (r : Report) : Option GmtiTarget :=
  (position floats s.dwell r).map fun (lat, lon) =>
    { platform := platform, jobId := jobId, dwellIndex := s.dwell.dwellIndex, mtiIndex := r.mtiIndex,
      dwellTimeMs := s.dwell.dwellTimeMs, sensorLat := sa32 floats s.dwell.sensorLat,
      sensorLon := normLon floats (ba32 floats s.dwell.sensorLon), lat := lat, lon := lon,
      heightM := r.heightM.map floats.ofInt
      radialVelocityMps := r.radialVelocity.map fun v => floats.div (floats.ofInt v) ⟨0x4059000000000000⟩
      snrDb := r.snrDb, classification := r.classification, rcsDb := r.rcsDb, raw := s.raw }

def Packet.targets (p : Packet) : List GmtiTarget :=
  p.segments.flatMap fun s => s.reports.filterMap (locate floats p.platform p.jobId s)

/-- One target per located report across all dwell segments. -/
def parsePacket (frame : Bytes) : Except GmtiError (List GmtiTarget) := (readPacket frame).map (Packet.targets floats)

end

/-- `platform:job:dwell:report`. -/
def sourceUid (t : GmtiTarget) : String :=
  let report := match t.mtiIndex with
    | some i => toString i
    | none => "na"
  String.ofList t.platform ++ ":" ++ toString t.jobId ++ ":" ++ toString t.dwellIndex ++ ":" ++ report

structure GmtiParser where
  sourceId : String
  hostility : Option String

/-- The calls of `base_builder`; `new_id` takes the id it is given. -/
def baseBuilder (floats : Floats) (hostility : Option String) (id : String) (t : GmtiTarget) : List Call :=
  [.id id] ++ [.location t.lat t.lon (t.heightM.getD .zero)] ++ [.payload t.raw] ++
  [.metadata "source_uid" (sourceUid t)] ++ [.metadata "platform" (String.ofList t.platform)] ++
  [.metadata "job_id" (toString t.jobId)] ++ [.metadata "dwell_index" (toString t.dwellIndex)] ++
  [.metadata "dwell_time_ms" (toString t.dwellTimeMs)] ++
  [.metadata "sensor_lat" (floats.fixed 6 t.sensorLat)] ++ [.metadata "sensor_lon" (floats.fixed 6 t.sensorLon)] ++
  ifGiven t.mtiIndex (fun i => [.metadata "mti_report_index" (toString i)]) ++
  ifGiven hostility (fun aff => [.attribute "hostility" aff]) ++
  ifGiven t.radialVelocityMps (fun v => [.attribute "radial_velocity" (floats.fixed 2 v)]) ++
  ifGiven t.snrDb (fun s => [.attribute "snr_db" (toString s)]) ++
  ifGiven t.classification (fun c => [.attribute "classification_code" (toString c)]) ++
  ifGiven t.rcsDb (fun rcs => [.attribute "rcs_db" (toString rcs)])

/-- A frame, with the id and the time of receipt that each of its events is given. -/
structure Arrival where
  frame : Bytes
  id : Nat → String
  clock : Nat → String

def GmtiParser.build (floats : Floats) (p : GmtiParser) (a : Arrival) (i : Nat) (t : GmtiTarget) : Except GmtiError Event :=
  match Rust.run p.sourceId "mim:object" (baseBuilder floats p.hostility (a.id i) t ++ [.timestamp (a.clock i)]) with
  | .error e => .error (.build e)
  | .ok event => .ok event

/-- All events of a packet, or the first error. -/
def GmtiParser.parse (floats : Floats) (p : GmtiParser) (a : Arrival) : Except GmtiError (List Event) :=
  match parsePacket floats a.frame with
  | .error e => .error e
  | .ok targets => targets.zipIdx.mapM fun (t, i) => p.build floats a i t

end GmtiModel
