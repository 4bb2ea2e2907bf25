import AjarConnectors.Event.Floats

namespace MavlinkModel

open EventModel

abbrev Bytes := List UInt8

/-- The float operations of the message decoders, over those all connectors use. -/
structure MavFloats extends Floats where
  ofF32 : UInt32 → F64
  toDegrees : F64 → F64
  remEuclid : F64 → F64 → F64
  sqrt : F64 → F64
  neg : F64 → F64

/-- CRC_EXTRA and full (untruncated) payload length. -/
def crcExtraAndLen (msgId : Nat) : Option (UInt8 × Nat) :=
  match msgId with
  | 0 => some (50, 9)
  | 1 => some (124, 31)
  | 24 => some (24, 52)
  | 30 => some (39, 28)
  | 33 => some (104, 28)
  | 74 => some (20, 20)
  | 147 => some (154, 36)
  | _ => none

def accum (crc : UInt16) (b : UInt8) : UInt16 :=
  let tmp := b ^^^ (crc &&& 0xff).toUInt8
  let tmp := tmp ^^^ (tmp <<< 4)
  (crc >>> 8) ^^^ (tmp.toUInt16 <<< 8) ^^^ (tmp.toUInt16 <<< 3) ^^^ (tmp.toUInt16 >>> 4)

/-- CRC-16/MCRF4XX over `data`, finished with the message's CRC_EXTRA. -/
def crc (data : Bytes) (extra : UInt8) : UInt16 := accum (data.foldl accum 0xffff) extra

def byteAt (b : Bytes) (off : Nat) : Nat := (b.getD off 0).toNat

def u16le (b : Bytes) (off : Nat) : Nat := byteAt b off + 256 * byteAt b (off + 1)

def u32le (b : Bytes) (off : Nat) : Nat := u16le b off + 65536 * u16le b (off + 2)

def i8at (b : Bytes) (off : Nat) : Int := (byteAt b off : Int).bmod 256

def i16le (b : Bytes) (off : Nat) : Int := (u16le b off : Int).bmod 65536

def i32le (b : Bytes) (off : Nat) : Int := (u32le b off : Int).bmod 4294967296

/-- Latest non-positional telemetry of one vehicle. -/
structure VehicleState where
  vehicleType : Option String := none
  status : Option String := none
  armed : Option Bool := none
  mode : Option String := none
  customMode : Option Nat := none
  rollDeg : Option F64 := none
  pitchDeg : Option F64 := none
  yawDeg : Option F64 := none
  airspeedMps : Option F64 := none
  throttlePct : Option Nat := none
  climbMps : Option F64 := none
  batteryVoltageV : Option F64 := none
  batteryCurrentA : Option F64 := none
  batteryRemainingPct : Option Int := none
  batteryConsumedMah : Option Int := none
  batteryTempC : Option F64 := none
  cpuLoadPct : Option F64 := none
  gpsFix : Option String := none
  gpsSats : Option Nat := none
  gpsHdop : Option F64 := none
  gpsHAccM : Option F64 := none
  gpsVAccM : Option F64 := none
  gpsVelAccMps : Option F64 := none
  gpsHdgAccDeg : Option F64 := none

/-- MAV_TYPE subset to category. -/
def vehicleType (t : Nat) : Option String :=
  match t with
  | 1 => some "fixed-wing"
  | 2 | 3 | 13 | 14 | 15 => some "multirotor"
  | 4 => some "helicopter"
  | 7 | 8 => some "airship"
  | 10 => some "ground-vehicle"
  | 11 => some "surface-vessel"
  | 12 => some "submarine"
  | 19 | 20 | 21 | 22 | 23 => some "vtol"
  | _ => none

def mavState (s : Nat) : Option String :=
  match s with
  | 0 => some "uninitialised"
  | 1 => some "booting"
  | 2 => some "calibrating"
  | 3 => some "standby"
  | 4 => some "active"
  | 5 => some "critical"
  | 6 => some "emergency"
  | 7 => some "powering-off"
  | 8 => some "terminating"
  | _ => none

/-- Coarse flight mode from the MAV_MODE_FLAG bits, most specific first. -/
def baseFlagMode (baseMode : Nat) : Option String :=
  ([(0x04, "auto"), (0x08, "guided"), (0x10, "stabilize"), (0x40, "manual")].find? fun entry =>
    baseMode &&& entry.1 != 0).map Prod.snd

def gpsFix (t : Nat) : Option String :=
  match t with
  | 0 => some "no-gps"
  | 1 => some "no-fix"
  | 2 => some "2d"
  | 3 => some "3d"
  | 4 => some "dgps"
  | 5 => some "rtk-float"
  | 6 => some "rtk-fixed"
  | 7 => some "static"
  | 8 => some "ppp"
  | _ => none

def heartbeat (s : VehicleState) (p : Bytes) : VehicleState :=
  let baseMode := byteAt p 6
  { s with
    vehicleType := vehicleType (byteAt p 4)
    status := mavState (byteAt p 7)
    armed := some (baseMode &&& 0x80 != 0)
    mode := baseFlagMode baseMode
    customMode := if baseMode &&& 0x01 != 0 then some (u32le p 0) else none }

section

variable (floats : MavFloats)

/-- `value as f64 / scale`. -/
def scaled (value : Int) (scale : Int) : F64 := floats.div (floats.ofInt value) (floats.ofInt scale)

/-- 0xFFFF and -1 mean unknown. -/
def sysStatus (s : VehicleState) (p : Bytes) : VehicleState :=
  { s with
    cpuLoadPct := if u16le p 12 ≠ 65535 then some (scaled floats (u16le p 12) 10) else s.cpuLoadPct
    batteryVoltageV := if u16le p 14 ≠ 65535 then some (scaled floats (u16le p 14) 1000) else s.batteryVoltageV
    batteryCurrentA := if i16le p 16 ≠ -1 then some (scaled floats (i16le p 16) 100) else s.batteryCurrentA
    batteryRemainingPct := if i8at p 30 ≠ -1 then some (i8at p 30) else s.batteryRemainingPct }

def f32le (b : Bytes) (off : Nat) : F64 := floats.ofF32 (UInt32.ofNat (u32le b off))

/-- Radians on the wire. -/
def attitude (s : VehicleState) (p : Bytes) : VehicleState :=
  { s with
    rollDeg := some (floats.toDegrees (f32le floats p 4))
    pitchDeg := some (floats.toDegrees (f32le floats p 8))
    yawDeg := some (floats.remEuclid (floats.toDegrees (f32le floats p 12)) (floats.ofInt 360)) }

def vfrHud (s : VehicleState) (p : Bytes) : VehicleState :=
  { s with
    airspeedMps := some (f32le floats p 0)
    climbMps := some (f32le floats p 12)
    throttlePct := some (u16le p 18) }

/-- Overrides the SYS_STATUS battery figures when both are sent. -/
def batteryStatus (s : VehicleState) (p : Bytes) : VehicleState :=
  { s with
    batteryConsumedMah := if i32le p 0 ≠ -1 then some (i32le p 0) else s.batteryConsumedMah
    batteryTempC := if i16le p 8 ≠ 32767 then some (scaled floats (i16le p 8) 100) else s.batteryTempC
    batteryVoltageV := if u16le p 10 ≠ 65535 then some (scaled floats (u16le p 10) 1000) else s.batteryVoltageV
    batteryCurrentA := if i16le p 30 ≠ -1 then some (scaled floats (i16le p 30) 100) else s.batteryCurrentA
    batteryRemainingPct := if i8at p 35 ≠ -1 then some (i8at p 35) else s.batteryRemainingPct }

/-- MAVLink 2 extensions; zero and the all-ones sentinel mean not known. -/
def extension (p : Bytes) (off : Nat) : Option F64 :=
  ((some (u32le p off)).filter fun v => v != 0 && v != 4294967295).map fun (v : Nat) => floats.ofInt v

/-- The fix quality of GPS_RAW_INT. -/
def gpsQuality (s : VehicleState) (p : Bytes) : VehicleState :=
  { s with
    gpsFix := gpsFix (byteAt p 28)
    gpsSats := if byteAt p 29 ≠ 255 then some (byteAt p 29) else none
    gpsHdop := if u16le p 20 ≠ 65535 then some (scaled floats (u16le p 20) 100) else none
    gpsHAccM := (extension floats p 34).map fun mm => floats.div mm (floats.ofInt 1000)
    gpsVAccM := (extension floats p 38).map fun mm => floats.div mm (floats.ofInt 1000)
    gpsVelAccMps := (extension floats p 42).map fun mms => floats.div mms (floats.ofInt 1000)
    gpsHdgAccDeg := ((extension floats p 46).map fun de5 => floats.div de5 (floats.ofInt 100000)).filter fun deg =>
      deg.le (floats.ofInt 360) }

end

end MavlinkModel
