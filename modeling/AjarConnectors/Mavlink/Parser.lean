import AjarConnectors.Builder.Optional
import AjarConnectors.CarryForward.Ledger
import AjarConnectors.Mavlink.Messages

namespace MavlinkModel

open EventModel BuilderModel CarryForward

inductive MavError where
  | notMavlink
  | truncated
  | badCrc
  | build (error : BuildError)
  deriving DecidableEq

def carryCaps : Caps := ⟨128, 32 * 1024⟩

/-- A position message with the vehicle's latest cached telemetry. -/
structure MavPosition where
  sysid : UInt8
  msgId : Nat
  lat : F64
  lon : F64
  altM : F64
  relativeAltM : Option F64
  headingDeg : Option F64
  courseDeg : Option F64
  sogMps : Option F64
  verticalSpeedMps : Option F64
  state : VehicleState
  raw : Bytes
  truncated : Bool

structure Vehicle where
  state : VehicleState := {}
  carry : Buffer Bytes := {}

structure MavParser where
  sourceId : String
  hostility : Option String
  vehicles : UInt8 → Option Vehicle := fun _ => none
  dropped : Nat := 0

/-- `entry(sysid).or_default()`. -/
def MavParser.vehicle (p : MavParser) (sysid : UInt8) : Vehicle := (p.vehicles sysid).getD {}

def MavParser.set (p : MavParser) (sysid : UInt8) (v : Vehicle) : MavParser :=
  { p with vehicles := Function.update p.vehicles sysid (some v) }

/-- What is read of a frame before any state is touched; the payload only if its id is in the table. -/
structure Frame where
  sysid : UInt8
  msgId : Nat
  raw : Bytes
  payload : Option Bytes

/-- `(len, header_len, sysid, msg_id)`. -/
def header (frame : Bytes) : Except MavError (Nat × Nat × UInt8 × Nat) :=
  match frame with
  | [] => .error .truncated
  | 0xfe :: _ =>
    if frame.length < 6 then .error .truncated
    else .ok (byteAt frame 1, 6, frame.getD 3 0, byteAt frame 5)
  | 0xfd :: _ =>
    if frame.length < 10 then .error .truncated
    else .ok (byteAt frame 1, 10, frame.getD 5 0, byteAt frame 7 + 256 * byteAt frame 8 + 65536 * byteAt frame 9)
  | _ => .error .notMavlink

/-- v2 trims trailing zero bytes; zero-extend to the full payload. -/
def zeroExtended (body : Bytes) (fullLen : Nat) : Bytes :=
  body.take fullLen ++ List.replicate (fullLen - body.length) 0

def readFrame (frame : Bytes) : Except MavError Frame :=
  match header frame with
  | .error e => .error e
  | .ok (len, headerLen, sysid, msgId) =>
    let crcStart := headerLen + len
    if frame.length < crcStart + 2 then .error .truncated
    else
      let raw := frame.take (crcStart + 2)
      match crcExtraAndLen msgId with
      | none => .ok ⟨sysid, msgId, raw, none⟩
      | some (crcExtra, fullLen) =>
        if (crc ((frame.take crcStart).drop 1) crcExtra).toNat ≠ u16le frame crcStart then .error .badCrc
        else .ok ⟨sysid, msgId, raw, some (zeroExtended ((frame.take crcStart).drop headerLen) fullLen)⟩

namespace MavParser

variable (floats : MavFloats)

def mutate (p : MavParser) (sysid : UInt8) (f : VehicleState → VehicleState) : MavParser :=
  p.set sysid { p.vehicle sysid with state := f (p.vehicle sysid).state }

def carry (p : MavParser) (sysid : UInt8) (raw : Bytes) : MavParser :=
  let (buffer, dropped) := (p.vehicle sysid).carry.pushRaw carryCaps List.length raw
  { p.set sysid { p.vehicle sysid with carry := buffer } with dropped := p.dropped + dropped }

/-- The pending frames concatenated, and whether any were dropped. -/
def drain (p : MavParser) (sysid : UInt8) : Bytes × Bool × MavParser :=
  let (frames, truncated, buffer) := (p.vehicle sysid).carry.drain
  (frames.flatten, truncated, p.set sysid { p.vehicle sysid with carry := buffer })

def snapshot (p : MavParser) (sysid : UInt8) : VehicleState := (p.vehicle sysid).state

/-- GLOBAL_POSITION_INT (33). -/
def globalPosition (p : MavParser) (sysid : UInt8) (b : Bytes) : MavPosition × MavParser :=
  let vxCms := floats.ofInt (i16le b 20)
  let vyCms := floats.ofInt (i16le b 22)
  let climbMps := floats.div (floats.neg (floats.ofInt (i16le b 24))) (floats.ofInt 100)
  let (raw, truncated, p) := p.drain sysid
  ({ sysid := sysid
     msgId := 33
     lat := scaled floats (i32le b 4) 10000000
     lon := scaled floats (i32le b 8) 10000000
     altM := scaled floats (i32le b 12) 1000
     relativeAltM := some (scaled floats (i32le b 16) 1000)
     headingDeg := if u16le b 26 ≠ 65535 then some (scaled floats (u16le b 26) 100) else none
     courseDeg := none
     sogMps := some (floats.div (floats.sqrt (floats.add (floats.mul vxCms vxCms) (floats.mul vyCms vyCms)))
       (floats.ofInt 100))
     -- negative zero is normalised so a level aircraft reads "0.0"
     verticalSpeedMps := some (if climbMps.le .zero && F64.zero.le climbMps then .zero else climbMps)
     state := p.snapshot sysid
     raw := raw
     truncated := truncated }, p)

/-- GPS_RAW_INT (24). The fix quality is also cached for later events. -/
def gpsRaw (p : MavParser) (sysid : UInt8) (b : Bytes) : MavPosition × MavParser :=
  let p := p.mutate sysid fun s => gpsQuality floats s b
  let (raw, truncated, p) := p.drain sysid
  ({ sysid := sysid
     msgId := 24
     lat := scaled floats (i32le b 8) 10000000
     lon := scaled floats (i32le b 12) 10000000
     altM := scaled floats (i32le b 16) 1000
     relativeAltM := none
     headingDeg := none
     courseDeg := if u16le b 26 ≠ 65535 then some (scaled floats (u16le b 26) 100) else none
     sogMps := if u16le b 24 ≠ 65535 then some (scaled floats (u16le b 24) 100) else none
     verticalSpeedMps := none
     state := p.snapshot sysid
     raw := raw
     truncated := truncated }, p)

def parseFrame (p : MavParser) (frame : Bytes) : Except MavError (Option MavPosition) × MavParser :=
  match readFrame frame with
  | .error e => (.error e, p)
  | .ok f =>
    let p := p.carry f.sysid f.raw
    match f.payload with
    | none => (.ok none, p)
    | some payload => match f.msgId with
      | 0 => (.ok none, p.mutate f.sysid fun s => heartbeat s payload)
      | 1 => (.ok none, p.mutate f.sysid fun s => sysStatus floats s payload)
      | 30 => (.ok none, p.mutate f.sysid fun s => attitude floats s payload)
      | 74 => (.ok none, p.mutate f.sysid fun s => vfrHud floats s payload)
      | 147 => (.ok none, p.mutate f.sysid fun s => batteryStatus floats s payload)
      | 33 =>
        let (pos, p) := p.globalPosition floats f.sysid payload
        (.ok (some pos), p)
      | 24 =>
        let (pos, p) := p.gpsRaw floats f.sysid payload
        (.ok (some pos), p)
      | _ => (.ok none, p)

end MavParser

variable (floats : MavFloats)

def fixedAttribute (digits : Nat) (key : String) (value : Option F64) : List Call :=
  ifGiven value fun v => [.attribute key (floats.fixed digits v)]

def textAttribute (key : String) (value : Option String) : List Call := ifGiven value fun v => [.attribute key v]

/-- The calls of `base_builder`; `new_id` takes the id it is given. -/
def baseBuilder (hostility : Option String) (id : String) (p : MavPosition) : List Call :=
  [.id id] ++ [.location p.lat p.lon p.altM] ++ [.payload p.raw] ++ [.metadata "source_uid" (toString p.sysid.toNat)] ++
  [.metadata "mav_sysid" (toString p.sysid.toNat)] ++ identity "MAVLink" (toString p.sysid.toNat) ++
  (if p.truncated then [.metadata "payload_truncated" "true"] else []) ++
  textAttribute "hostility" hostility ++
  fixedAttribute floats 1 "speed" p.sogMps ++
  fixedAttribute floats 1 "heading" p.headingDeg ++
  fixedAttribute floats 1 "course" p.courseDeg ++
  fixedAttribute floats 1 "vertical_rate" (p.verticalSpeedMps.or p.state.climbMps) ++
  fixedAttribute floats 1 "relative_altitude" p.relativeAltM ++
  textAttribute "vehicle_type" p.state.vehicleType ++
  textAttribute "status" p.state.status ++
  textAttribute "armed" (p.state.armed.map fun a => if a then "true" else "false") ++
  textAttribute "mode" p.state.mode ++
  fixedAttribute floats 1 "roll" p.state.rollDeg ++
  fixedAttribute floats 1 "pitch" p.state.pitchDeg ++
  fixedAttribute floats 1 "yaw" p.state.yawDeg ++
  fixedAttribute floats 1 "airspeed" p.state.airspeedMps ++
  textAttribute "throttle" (p.state.throttlePct.map toString) ++
  fixedAttribute floats 2 "battery_voltage" p.state.batteryVoltageV ++
  fixedAttribute floats 2 "battery_current" p.state.batteryCurrentA ++
  textAttribute "battery" (p.state.batteryRemainingPct.map toString) ++
  textAttribute "battery_consumed" (p.state.batteryConsumedMah.map toString) ++
  fixedAttribute floats 1 "battery_temp" p.state.batteryTempC ++
  fixedAttribute floats 0 "cpu_load" p.state.cpuLoadPct ++
  textAttribute "gps_fix" p.state.gpsFix ++
  textAttribute "gps_satellites" (p.state.gpsSats.map toString) ++
  fixedAttribute floats 2 "gps_hdop" p.state.gpsHdop ++
  -- the receiver's uncertainty rides only on the GPS_RAW_INT that stated it
  (if p.msgId = 24 then
    fixedAttribute floats 2 "position_accuracy_h_m" p.state.gpsHAccM ++
    fixedAttribute floats 2 "position_accuracy_v_m" p.state.gpsVAccM ++
    fixedAttribute floats 2 "speed_accuracy" p.state.gpsVelAccMps ++
    fixedAttribute floats 2 "angle_accuracy" p.state.gpsHdgAccDeg
  else []) ++
  ifGiven p.state.customMode fun cm => [.metadata "custom_mode" (toString cm)]

/-- A frame, with the id `new_id` draws and the time `now` stamps. -/
structure Arrival where
  frame : Bytes
  id : String
  clock : String

def MavParser.parse (p : MavParser) (a : Arrival) : Except MavError (List Event) × MavParser :=
  match p.parseFrame floats a.frame with
  | (.error e, p) => (.error e, p)
  | (.ok none, p) => (.ok [], p)
  | (.ok (some pos), p) =>
    match Rust.run p.sourceId "mim:aircraft" (baseBuilder floats p.hostility a.id pos ++ [.timestamp a.clock]) with
    | .error e => (.error (.build e), p)
    | .ok event => (.ok [event], p)

end MavlinkModel
