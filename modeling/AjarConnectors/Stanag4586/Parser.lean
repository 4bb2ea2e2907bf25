import AjarConnectors.Builder.Optional
import AjarConnectors.ByteString.BigEndian
import AjarConnectors.Event.Floats

namespace Stanag4586Model

open EventModel BuilderModel

/-- IDD version and five 32-bit fields. -/
def header : Nat := 30

def checksum : Nat := 4

def msgInertialStates : UInt32 := 101

def inertialBodyLen : Nat := 89

inductive S4586Error where
  | checksum (messageType : UInt32)
  | truncated (what : String)
  | build (error : BuildError)
  deriving DecidableEq

/-- A 32-bit float by its bit pattern. -/
structure F32 where
  bits : UInt32
  deriving DecidableEq

/-- Float work, and the RFC 3339 text of a time in nanoseconds since 1970, if it has one. -/
structure Platform extends Sphere where
  widen : F32 → F64
  hypot : F32 → F32 → F32
  round : F64 → F64
  toI128 : F64 → Int
  rfc3339FromNanos : Int → Option String

/-- Message #101 Inertial States in canonical units. -/
structure Inertial where
  timestampS : F64
  vehicleId : Int
  cucsId : Int
  lat : F64
  lon : F64
  altitudeM : F64
  altitudeType : UInt8
  northMps : F32
  eastMps : F32
  downMps : F32
  rollDeg : F64
  pitchDeg : F64
  yawDeg : F64
  magvarDeg : F64

/-- `b.get(off..off + n)`. -/
def getRange (b : List UInt8) (off n : Nat) : Option (List UInt8) :=
  if off + n ≤ b.length then some ((b.drop off).take n) else none

/-- 0 when out of range. -/
def beU32 (b : List UInt8) (off : Nat) : UInt32 := (getRange b off 4).elim 0 fun s => UInt32.ofNat (ByteString.number s)

/-- 0.0 when out of range. -/
def beF32 (b : List UInt8) (off : Nat) : F32 := ⟨beU32 b off⟩

/-- 0.0 when out of range. -/
def beF64 (b : List UInt8) (off : Nat) : F64 := (getRange b off 8).elim .zero fun s => ⟨UInt64.ofNat (ByteString.number s)⟩

/-- `as i32`. -/
def asI32 (v : UInt32) : Int := (v.toNat : Int).bmod (2^32)

/-- `&b[start..stop]`; none where it panics. -/
def slice (b : List UInt8) (start stop : Nat) : Option (List UInt8) :=
  if start ≤ stop ∧ stop ≤ b.length then some ((b.drop start).take (stop - start)) else none

/-- STANAG 4586 altitude type (I0101.07). -/
def altitudeType (v : UInt8) : String :=
  match v.toNat with
  | 0 => "pressure"
  | 1 => "baro"
  | 2 => "agl"
  | 3 => "wgs84"
  | _ => "unknown"

/-- What an event takes from its surroundings: a fresh id and the time of day. -/
structure Draw where
  newId : String
  now : String

structure S4586Parser where
  sourceId : String
  hostility : Option String
  entityType : String

section

variable (platform : Platform)

/-- Seconds since 1970 as RFC 3339, when they are finite and in range. -/
def rfc3339FromUnixSecs (secs : F64) : Option String :=
  if !secs.isFinite then none
  else
    let nanos := platform.round (platform.mul secs ⟨0x41cdcd6500000000⟩)
    if F64.le ⟨0x47e0000000000000⟩ nanos.abs then none else platform.rfc3339FromNanos (platform.toI128 nanos)

/-- `to_degrees().rem_euclid(360.0)`. -/
def fullCircle (radians : F64) : F64 := platform.remEuclid (platform.toDegrees radians) ⟨0x4076800000000000⟩

/-- The fields of a body; none where indexing it panics. -/
def readInertial (body : List UInt8) : Option Inertial := do
  let altitudeType ← body[36]?
  return {
    timestampS := beF64 body 0
    vehicleId := asI32 (beU32 body 8)
    cucsId := asI32 (beU32 body 12)
    lat := platform.toDegrees (beF64 body 16)
    lon := platform.toDegrees (beF64 body 24)
    altitudeM := platform.widen (beF32 body 32)
    altitudeType := altitudeType
    northMps := beF32 body 37
    eastMps := beF32 body 41
    downMps := beF32 body 45
    -- 49..61 are the accelerations, left in the payload.
    rollDeg := platform.toDegrees (platform.widen (beF32 body 61))
    pitchDeg := platform.toDegrees (platform.widen (beF32 body 65))
    yawDeg := fullCircle platform (platform.widen (beF32 body 69))
    magvarDeg := platform.toDegrees (platform.widen (beF32 body 85)) }

/-- What the builder is told of a message. -/
def S4586Parser.calls (p : S4586Parser) (draw : Draw) (s : Inertial) (raw : List UInt8) : List Call :=
  let speedMps := platform.widen (platform.hypot s.northMps s.eastMps)
  let courseDeg := fullCircle platform (platform.atan2 (platform.widen s.eastMps) (platform.widen s.northMps))
  let climbMps := (platform.widen s.downMps).neg
  [.id draw.newId, .payload raw, .location s.lat s.lon s.altitudeM,
    .metadata "source_uid" ("s4586:vehicle:" ++ toString s.vehicleId), .metadata "cucs_id" (toString s.cucsId),
    .metadata "altitude_type" (altitudeType s.altitudeType), .attribute "speed" (platform.fixed 2 speedMps),
    .attribute "course" (platform.fixed 1 courseDeg), .attribute "heading" (platform.fixed 1 s.yawDeg),
    .attribute "vertical_rate" (platform.fixed 2 climbMps), .metadata "roll_deg" (platform.fixed 2 s.rollDeg),
    .metadata "pitch_deg" (platform.fixed 2 s.pitchDeg),
    .metadata "magnetic_variation_deg" (platform.fixed 3 s.magvarDeg),
    .timestamp ((rfc3339FromUnixSecs platform s.timestampS).getD draw.now),
    .metadata "timestamp_s" (platform.fixed 3 s.timestampS)] ++
    ifGiven p.hostility (fun aff => [.attribute "hostility" aff])

/-- No result where it panics. -/
def S4586Parser.decodeInertial (p : S4586Parser) (draw : Draw) (body raw : List UInt8) :
    Option (Except S4586Error Event) :=
  if body.length < inertialBodyLen then some (.error (.truncated "Inertial States body"))
  else (readInertial platform body).map fun s =>
    (Rust.run p.sourceId p.entityType (p.calls platform draw s raw)).mapError .build

/-- The sum of bytes in 32 bits. -/
def byteSum (bytes : List UInt8) : UInt32 := bytes.foldl (fun a b => a + b.toUInt32) 0

/-- The messages from `off` on, behind the events so far; no result where it panics, and none where it does not come to
    an end in so many turns. A message end past the end of `usize` is past that of the frame as well. -/
def S4586Parser.walk (p : S4586Parser) (draws : Nat → Draw) (frame : List UInt8) :
    Nat → Nat → List Event → Option (Except S4586Error (List Event))
  | 0, _, _ => none
  | turns + 1, off, events =>
    if off + header + checksum ≤ frame.length then
      let bodyLen := (beU32 frame (off + 18)).toNat
      let msgEnd := off + header + bodyLen + checksum
      if frame.length < msgEnd then some (.ok events)
      else
        match slice frame off (msgEnd - checksum) with
        | none => none
        | some covered =>
          let messageType := beU32 frame (off + 14)
          if byteSum covered ≠ beU32 frame (msgEnd - checksum) then some (.error (.checksum messageType))
          else if messageType = msgInertialStates then
            match slice frame (off + header) (off + header + bodyLen), slice frame off msgEnd with
            | some body, some raw =>
              match p.decodeInertial platform (draws events.length) body raw with
              | none => none
              | some (.error e) => some (.error e)
              | some (.ok event) => walk p draws frame turns msgEnd (events ++ [event])
            | _, _ => none
          else walk p draws frame turns msgEnd events
    else some (.ok events)

/-- One event per decoded message in the datagram. A declared length past the end of the datagram stops the walk and
    keeps the events decoded so far. Every message is longer than nothing, so as many turns as bytes are enough. -/
def S4586Parser.toEvents (p : S4586Parser) (draws : Nat → Draw) (frame : List UInt8) :
    Option (Except S4586Error (List Event)) :=
  p.walk platform draws frame (frame.length + 1) 0 []

end

end Stanag4586Model
