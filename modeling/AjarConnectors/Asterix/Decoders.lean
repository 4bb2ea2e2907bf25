import AjarConnectors.Asterix.Checked
import AjarConnectors.Event.Floats
import AjarConnectors.Partial.Loops
import AjarConnectors.Text.Strings

namespace AsterixModel

open EventModel TextModel

def knotsToMps : F64 := ⟨0x3fe076534373f317⟩

def nmToM : F64 := ⟨0x409cf00000000000⟩

def ftToM : F64 := ⟨0x3fd381d7dbf487fd⟩

/-- `be_uint`, which fails where it indexes past the end. -/
def beUintChecked (data : Bytes) (start n : Nat) : Option Nat :=
  (List.range n).foldlM (fun v i => data[start + i]?.map fun octet => v * 256 + octet.toNat) 0

/-- `u16::from_be_bytes([data[start], data[start + 1]])`. -/
def u16Checked (data : Bytes) (start : Nat) : Option Nat := beUintChecked data start 2

/-- `i16::from_be_bytes` of the same two octets. -/
def i16Checked (data : Bytes) (start : Nat) : Option Int := (u16Checked data start).map fun v => signExtend v 16

def signedChecked (floats : Floats) (data : Bytes) (start n : Nat) : Option F64 :=
  (beUintChecked data start n).map fun v => floats.ofInt (signExtend v (n * 8))

def timeOfDaySChecked (floats : Floats) (item : Bytes) : Option F64 :=
  (beUintChecked item 0 3).map fun v => floats.div (floats.ofInt v) ⟨0x4060000000000000⟩

/-- The Mode 3/A code in the low 12 bits, as four octal digits. -/
def mode3a (v : Nat) : String :=
  let code := v &&& 0x0fff
  String.ofList [Nat.digitChar ((code >>> 9) &&& 7), Nat.digitChar ((code >>> 6) &&& 7),
    Nat.digitChar ((code >>> 3) &&& 7), Nat.digitChar (code &&& 7)]

def idChar (c : Nat) : Char :=
  if 1 ≤ c ∧ c ≤ 26 then Char.ofNat ('A'.toNat + c - 1) else if 48 ≤ c ∧ c ≤ 57 then Char.ofNat c else ' '

/-- Eight ICAO 6-bit characters from six octets, trailing padding trimmed. -/
def aircraftIdChecked (item : Bytes) : Option (Option String) :=
  if item.length < 6 then some none
  else (beUintChecked item 0 6).map fun v =>
    let s := trim (String.ofList ((List.range 8).map fun k => idChar ((v >>> (42 - 6 * k)) &&& 0x3f)))
    if s = "" then none else some s

/-- `item.get(1..7).and_then(aircraft_id)`. -/
def idBehindStatus (item : Bytes) : Option (Option String) :=
  match slice item 1 7 with
  | none => some none
  | some characters => aircraftIdChecked characters

/-- One decoded track report; items the category does not carry stay unset. -/
structure TrackReport extends AsterixTarget where
  category : UInt8
  sac : UInt8 := 0
  sic : UInt8 := 0
  track : Option Nat := none
  icao : Option Nat := none
  lon : Option F64 := none
  reportType : Option String := none
  vehicleFleet : Option String := none
  size : Option (F64 × Option F64 × Option F64) := none
  positionSdM : Option (F64 × F64) := none
  accuracyVM : Option F64 := none
  velocitySdMps : Option (F64 × F64) := none
  altFt : Option F64 := none
  groundSpeedKn : Option F64 := none
  trackAngleDeg : Option F64 := none
  verticalRateFtmin : Option F64 := none
  squawk : Option String := none
  callsign : Option String := none
  emitter : Option String := none
  timeOfDayS : Option F64 := none
  simulated : Bool := false
  testTarget : Bool := false
  fieldMonitor : Bool := false

def quarter : F64 := ⟨0x3fd0000000000000⟩

def twentyFive : F64 := ⟨0x4039000000000000⟩

def sixAndQuarter : F64 := ⟨0x4019000000000000⟩

/-- LSB of a 2^-14 NM/s ground speed, knots. -/
def speedLsbKn : F64 := ⟨0x3fcc200000000000⟩

section

variable (floats : Sphere)

def forwardGeodetic (lat lon bearingDeg distM : F64) : F64 × F64 := floats.destination lat lon bearingDeg distM

/-- `x.atan2(y).to_degrees().rem_euclid(360.0)`. -/
def bearing (x y : F64) : F64 := floats.remEuclid (floats.toDegrees (floats.atan2 x y)) ⟨0x4076800000000000⟩

/-- `(x * x + y * y).sqrt()`. -/
def magnitude (x y : F64) : F64 := floats.sqrt (floats.add (floats.mul x x) (floats.mul y y))

namespace TrackReport

def setPos (t : TrackReport) (lat lon : F64) : TrackReport := { t with lat := some lat, lon := some lon }

/-- The data source of every category. -/
def readSource (t : TrackReport) (item : Bytes) : Option TrackReport := do
  let sac ← item[0]?
  let sic ← item[1]?
  some { t with sac := sac, sic := sic }

/-- A WGS-84 position of two coordinates of `n` octets each. -/
def readPos (t : TrackReport) (lsb : F64) (n : Nat) (item : Bytes) : Option TrackReport := do
  let lat ← signedChecked floats.toFloats item 0 n
  let lon ← signedChecked floats.toFloats item n n
  some (t.setPos (floats.mul lat lsb) (floats.mul lon lsb))

/-- A ground speed and a track angle. -/
def readVector (t : TrackReport) (item : Bytes) : Option TrackReport := do
  let gs ← u16Checked item 0
  let hd ← u16Checked item 2
  some { t with
    groundSpeedKn := some (floats.mul (floats.ofInt gs) speedLsbKn)
    trackAngleDeg := some (floats.mul (floats.ofInt hd) angle16) }

/-- A Mode-3/A code; one with V (invalid) or G (garbled) set is omitted. -/
def readSquawk (t : TrackReport) (item : Bytes) : Option TrackReport := do
  let w ← u16Checked item 0
  some (if w &&& 0xc000 = 0 then { t with squawk := some (mode3a w) } else t)

/-- V/G as for Mode-3/A, then 14-bit two's complement, LSB 25 ft. -/
def readLevel (t : TrackReport) (item : Bytes) : Option TrackReport := do
  let first : UInt8 ← item[0]?
  if first &&& 0xc0 = 0 then
    let raw ← u16Checked item 0
    some { t with altFt := some (floats.mul (floats.ofInt (signExtend (raw &&& 0x3fff) 14)) twentyFive) }
  else some t

def readAddress (t : TrackReport) (item : Bytes) : Option TrackReport := do
  some { t with icao := some (← beUintChecked item 0 3) }

end TrackReport

namespace Cat010

/-- I010/041 latitude and longitude LSB, degrees. -/
def lsb041 : F64 := ⟨0x3e76800000000000⟩

def reportType (typ : Nat) : String :=
  match typ with
  | 0 => "ssr-multilateration"
  | 1 => "mode-s-multilateration"
  | 2 => "ads-b"
  | 3 => "psr"
  | 4 => "magnetic-loop"
  | 5 => "hf-multilateration"
  | _ => "other"

/-- I010/300 Vehicle Fleet Identification. -/
def vehicleFleet (code : Nat) : Option String :=
  match code with
  | 1 => some "atc-equipment-maintenance"
  | 2 => some "airport-maintenance"
  | 3 => some "fire"
  | 4 => some "bird-scarer"
  | 5 => some "snow-plough"
  | 6 => some "runway-sweeper"
  | 7 => some "emergency"
  | 8 => some "police"
  | 9 => some "bus"
  | 10 => some "tug"
  | 11 => some "grass-cutter"
  | 12 => some "fuel"
  | 13 => some "baggage"
  | 14 => some "catering"
  | 15 => some "aircraft-maintenance"
  | 16 => some "flyco"
  | _ => none

/-- The descriptor bits of the first extension. -/
def readExtension (t : TrackReport) (ext : UInt8) : TrackReport :=
  { t with simulated := ext &&& 0x80 != 0, testTarget := ext &&& 0x40 != 0, fieldMonitor := ext &&& 0x20 != 0 }

def decodeItem (t : TrackReport) (entry : Item × Bytes) : Option TrackReport :=
  let item := entry.2
  let half (octet : UInt8) : F64 := floats.ofInt (octet >>> 1).toNat
  match entry.1.number with
  | 10 => t.readSource item
  | 0 => do some { t with messageType := some (← item[0]?) }
  | 20 => do
    -- TYP in bits 8-6; SIM, TST and RAB in the first extension.
    let first : UInt8 ← item[0]?
    let t := { t with reportType := some (reportType (first >>> 5).toNat) }
    some (if first &&& 0x01 != 0 then item[1]?.elim t (readExtension t) else t)
  | 140 => do some { t with timeOfDayS := some (← timeOfDaySChecked floats.toFloats item) }
  | 41 => t.readPos floats lsb041 4 item
  | 40 => do
    -- RHO in metres, stored in NM.
    let rhoM ← u16Checked item 0
    let theta ← u16Checked item 2
    some { t with polar := some (floats.div (floats.ofInt rhoM) nmToM, floats.mul (floats.ofInt theta) angle16) }
  | 42 => do
    let x ← signedChecked floats.toFloats item 0 2
    let y ← signedChecked floats.toFloats item 2 2
    some { t with cartesianM := some (x, y) }
  | 200 => t.readVector floats item
  | 202 => do
    -- Vx east and Vy north, LSB 0.25 m/s.
    let vx := floats.mul (← signedChecked floats.toFloats item 0 2) quarter
    let vy := floats.mul (← signedChecked floats.toFloats item 2 2) quarter
    let speedMps := magnitude floats vx vy
    let t := { t with groundSpeedKn := some (floats.div speedMps knotsToMps) }
    some (if F64.zero.lt speedMps then { t with trackAngleDeg := some (bearing floats vx vy) } else t)
  | 161 => do some { t with track := some ((← u16Checked item 0) &&& 0x0fff) }
  | 60 => t.readSquawk item
  | 220 => t.readAddress item
  | 245 => (idBehindStatus item).map fun id => { t with callsign := id }
  | 300 => do some { t with vehicleFleet := vehicleFleet (← item[0]?).toNat }
  | 90 => t.readLevel floats item
  | 91 => do some { t with altFt := some (floats.mul (← signedChecked floats.toFloats item 0 2) sixAndQuarter) }
  | 270 => do
    let length := half (← item[0]?)
    let orientation := item[1]?.map fun o =>
      floats.div (floats.mul (half o) ⟨0x4076800000000000⟩) ⟨0x4060000000000000⟩
    some { t with size := some (length, item[2]?.map half, orientation) }
  | 500 => do
    let x ← item[0]?
    let y ← item[1]?
    let sd := (floats.mul (floats.ofInt x.toNat) quarter, floats.mul (floats.ofInt y.toNat) quarter)
    some { t with positionSdM := some sd }
  | _ => some t

/-- A report without a position of its own is placed against the sensor site. -/
def place (t : TrackReport) : Option Sensor → TrackReport
  | none => t
  | some s =>
    if t.lat.isSome then t
    else match t.polar, t.cartesianM with
      | some (rhoNm, theta), _ =>
        let (lat, lon) := forwardGeodetic floats s.lat s.lon theta (floats.mul rhoNm nmToM)
        t.setPos lat lon
      | none, some (x, y) =>
        let (lat, lon) := forwardGeodetic floats s.lat s.lon (bearing floats x y) (magnitude floats x y)
        t.setPos lat lon
      | none, none => t

def decode (items : Items) (sensor : Option Sensor) : Option TrackReport :=
  (items.foldlM (decodeItem floats) { category := 10 }).map fun t => place floats t sensor

end Cat010

namespace Cat021

/-- I021/130 latitude and longitude LSB, degrees. -/
def lsb130 : F64 := ⟨0x3ef6800000000000⟩

/-- I021/131 latitude and longitude LSB, degrees. -/
def lsb131 : F64 := ⟨0x3e86800000000000⟩

/-- I021/020 Emitter Category. -/
def emitterCategory (code : Nat) : Option String :=
  match code with
  | 1 => some "light"
  | 2 => some "small"
  | 3 => some "medium"
  | 4 => some "high-vortex"
  | 5 => some "heavy"
  | 6 => some "high-performance"
  | 7 => some "rotorcraft"
  | 10 => some "glider"
  | 11 => some "lighter-than-air"
  | 12 => some "uav"
  | 13 => some "space"
  | 20 => some "emergency-vehicle"
  | 21 => some "service-vehicle"
  | _ => none

def decodeItem (t : TrackReport) (entry : Item × Bytes) : Option TrackReport :=
  let item := entry.2
  match entry.1.number with
  | 10 => t.readSource item
  | 161 => do some { t with track := some (← u16Checked item 0) }
  | 130 => t.readPos floats lsb130 3 item
  | 131 => t.readPos floats lsb131 4 item
  | 80 => t.readAddress item
  | 140 => do some { t with altFt := some (floats.mul (floats.ofInt (← i16Checked item 0)) sixAndQuarter) }
  | 70 => do some { t with squawk := some (mode3a (← u16Checked item 0)) }
  | 145 => do
    let level := floats.mul (floats.ofInt (← i16Checked item 0)) twentyFive
    some { t with altFt := t.altFt.or (some level) }
  | 160 => t.readVector floats item
  | 170 => (aircraftIdChecked item).map fun id => { t with callsign := id }
  | 20 => do some { t with emitter := emitterCategory (← item[0]?).toNat }
  | _ => some t

def decode (items : Items) : Option TrackReport := items.foldlM (decodeItem floats) { category := 21 }

end Cat021

namespace Cat048

def decodeItem (t : TrackReport) (entry : Item × Bytes) : Option TrackReport :=
  let item := entry.2
  match entry.1.number with
  | 10 => t.readSource item
  | 140 => do some { t with timeOfDayS := some (← timeOfDaySChecked floats.toFloats item) }
  | 20 => do
    -- SIM and RAB in the first octet, TST in the first extension.
    let o1 : UInt8 ← item[0]?
    let t := { t with simulated := o1 &&& 0x10 != 0, fieldMonitor := o1 &&& 0x02 != 0 }
    some (if o1 &&& 0x01 != 0 then item[1]?.elim t fun (ext : UInt8) => { t with testTarget := ext &&& 0x80 != 0 } else t)
  | 40 => do
    -- RHO LSB 1/256 NM.
    let rho ← u16Checked item 0
    let theta ← u16Checked item 2
    let polar := (floats.div (floats.ofInt rho) ⟨0x4070000000000000⟩, floats.mul (floats.ofInt theta) angle16)
    some { t with polar := some polar }
  | 70 => t.readSquawk item
  | 90 => t.readLevel floats item
  | 220 => t.readAddress item
  | 240 => (aircraftIdChecked item).map fun id => { t with callsign := id }
  | 161 => do some { t with track := some ((← u16Checked item 0) &&& 0x0fff) }
  | 200 => t.readVector floats item
  | _ => some t

/-- Slant range to ground range, with pressure altitude in place of geometric height; a return steeper than vertical
    lands on the site. -/
def place (t : TrackReport) (sensor : Option Sensor) : TrackReport :=
  match t.polar, sensor with
  | some (rhoNm, theta), some s =>
    let slantM := floats.mul rhoNm nmToM
    let heightM := (t.altFt.map fun ft => floats.sub (floats.mul ft ftToM) s.altM).getD .zero
    let groundM := if heightM.abs.lt slantM
      then floats.sqrt (floats.sub (floats.mul slantM slantM) (floats.mul heightM heightM)) else .zero
    let (lat, lon) := forwardGeodetic floats s.lat s.lon theta groundM
    t.setPos lat lon
  | _, _ => t

def decode (items : Items) (sensor : Option Sensor) : Option TrackReport :=
  (items.foldlM (decodeItem floats) { category := 48 }).map fun t => place floats t sensor

end Cat048

namespace Cat062

/-- I062/105 latitude and longitude LSB, degrees. -/
def lsb105 : F64 := ⟨0x3ed6800000000000⟩

def decodeDerived (t : TrackReport) (part : Nat × Bytes) : Option TrackReport :=
  match part.1 with
  | 0 => t.readAddress part.2
  | 1 => (aircraftIdChecked part.2).map fun id => { t with callsign := id }
  | _ => some t

/-- APC, ABA and ATV; AGA describes a geometric altitude that is not emitted. -/
def decodeAccuracy (t : TrackReport) (part : Nat × Bytes) : Option TrackReport :=
  let bytes := part.2
  match part.1 with
  | 0 => do
    let sx ← u16Checked bytes 0
    let sy ← u16Checked bytes 2
    let half : F64 := ⟨0x3fe0000000000000⟩
    some { t with positionSdM := some (floats.mul (floats.ofInt sx) half, floats.mul (floats.ofInt sy) half) }
  | 4 => do
    let level ← bytes[0]?
    some { t with accuracyVM := some (floats.mul (floats.mul (floats.ofInt level.toNat) twentyFive) ftToM) }
  | 5 => do
    let vx ← bytes[0]?
    let vy ← bytes[1]?
    let sd := (floats.mul (floats.ofInt vx.toNat) quarter, floats.mul (floats.ofInt vy.toNat) quarter)
    some { t with velocitySdMps := some sd }
  | _ => some t

def decodeItem (t : TrackReport) (entry : Item × Bytes) : Option TrackReport :=
  let item := entry.2
  match entry.1.number with
  | 10 => t.readSource item
  | 70 => do some { t with timeOfDayS := some (← timeOfDaySChecked floats.toFloats item) }
  | 105 => t.readPos floats lsb105 4 item
  | 185 => do
    -- Vx east and Vy north, LSB 0.25 m/s.
    let vx := floats.mul (floats.ofInt (← i16Checked item 0)) quarter
    let vy := floats.mul (floats.ofInt (← i16Checked item 2)) quarter
    some { t with
      groundSpeedKn := some (floats.div (magnitude floats vx vy) knotsToMps)
      trackAngleDeg := some (bearing floats vx vy) }
  | 60 => do some { t with squawk := some (mode3a (← u16Checked item 0)) }
  | 245 => (idBehindStatus item).map fun id => { t with callsign := id }
  | 380 => (walkCompoundChecked sub380 item).bind fun parts => parts.foldlM decodeDerived t
  | 40 => do some { t with track := some (← u16Checked item 0) }
  | 136 => do some { t with altFt := some (floats.mul (floats.ofInt (← i16Checked item 0)) twentyFive) }
  | 220 => do some { t with verticalRateFtmin := some (floats.mul (floats.ofInt (← i16Checked item 0)) sixAndQuarter) }
  | 500 => (walkCompoundChecked sub500 item).bind fun parts => parts.foldlM (decodeAccuracy floats) t
  | _ => some t

def decode (items : Items) : Option TrackReport := items.foldlM (decodeItem floats) { category := 62 }

end Cat062

end

namespace Cat034

/-- `decodeStatus`, which fails on a subfield without an octet. -/
def decodeStatusChecked (s : RadarStatus) (sub : Nat × Bytes) : Option RadarStatus :=
  if sub.1 = 0 ∨ sub.1 = 3 ∨ sub.1 = 4 ∨ sub.1 = 5 then sub.2[0]?.map fun octet => decodeStatus s (sub.1, [octet])
  else some s

def decodeItemChecked (floats : Floats) (r : ServiceReport) (entry : Item × Bytes) : Option ServiceReport :=
  let item := entry.2
  let part (start : Nat) : Option F64 := (u16Checked item start).map fun (v : Nat) => floats.ofInt v
  match entry.1.number with
  | 10 => do
    let sac ← item[0]?
    let sic ← item[1]?
    some { r with sac := sac, sic := sic }
  | 0 => item[0]?.map fun type => { r with messageType := type }
  | 30 => do some { r with timeOfDayS := some (← timeOfDaySChecked floats item) }
  | 20 => do some { r with sector := some (← item[0]?) }
  | 41 => do some { r with rotationPeriodS := some (floats.div (← part 0) ⟨0x4060000000000000⟩) }
  | 50 => do
    let status ← (← walkCompoundChecked sub050 item).foldlM decodeStatusChecked r.status
    some { r with status := status }
  | 100 => do
    let rhoStart := floats.div (← part 0) ⟨0x4070000000000000⟩
    let rhoEnd := floats.div (← part 2) ⟨0x4070000000000000⟩
    let thetaStart := floats.mul (← part 4) angle16
    let thetaEnd := floats.mul (← part 6) angle16
    some { r with window := some (rhoStart, rhoEnd, thetaStart, thetaEnd) }
  | 120 => do
    let heightM ← signedChecked floats item 0 2
    let lat := floats.mul (← signedChecked floats item 2 3) lsb120
    let lon := floats.mul (← signedChecked floats item 5 3) lsb120
    some { r with position := some (lat, lon, heightM) }
  | _ => some r

def decodeChecked (floats : Floats) (items : Items) : Option ServiceReport :=
  items.foldlM (decodeItemChecked floats) {}

end Cat034

end AsterixModel

namespace AsterixProof

open EventModel AsterixModel

theorem beUintChecked_inside {data : Bytes} {start n : Nat} (inside : start + n ≤ data.length) :
    beUintChecked data start n = some (beUint data start n) := by
  unfold beUintChecked beUint
  induction n with
  | zero => rfl
  | succ n ih =>
    have place : n < (data.drop start).length := by
      rw [List.length_drop]
      omega
    rw [List.range_succ, List.foldlM_append, ih (by omega), List.take_succ_eq_append_getElem place, List.foldl_append,
      List.getElem_drop]
    simp [List.getElem?_eq_getElem (show start + n < data.length by omega)]

section

variable {data : Bytes} {start : Nat}

theorem u16Checked_inside (inside : start + 2 ≤ data.length) : u16Checked data start = some (beUint data start 2) :=
  beUintChecked_inside inside

theorem i16Checked_inside (inside : start + 2 ≤ data.length) :
    i16Checked data start = some (signExtend (beUint data start 2) 16) := by
  rw [i16Checked, u16Checked_inside inside]
  rfl

theorem signedChecked_inside (floats : Floats) {n : Nat} (inside : start + n ≤ data.length) :
    signedChecked floats data start n = some (signed floats data start n) := by
  rw [signedChecked, beUintChecked_inside inside]
  rfl

theorem timeOfDaySChecked_inside (floats : Floats) (inside : 3 ≤ data.length) :
    timeOfDaySChecked floats data = some (timeOfDayS floats data) := by
  rw [timeOfDaySChecked, beUintChecked_inside (by omega)]
  rfl

/-- `aircraft_id` asks for its six octets itself. -/
theorem aircraftIdChecked_returns (item : Bytes) : ∃ id, aircraftIdChecked item = some id := by
  rw [aircraftIdChecked]
  split
  · exact ⟨none, rfl⟩
  · rename_i long
    rw [beUintChecked_inside (by omega)]
    exact ⟨_, rfl⟩

theorem idBehindStatus_returns (item : Bytes) : ∃ id, idBehindStatus item = some id := by
  rw [idBehindStatus]
  cases slice item 1 7 with
  | none => exact ⟨none, rfl⟩
  | some characters => exact aircraftIdChecked_returns characters

end

section

variable {floats : Sphere} {t : TrackReport} {item : Bytes}

theorem readSource_returns (long : 2 ≤ item.length) : ∃ t', t.readSource item = some t' := by
  rw [TrackReport.readSource, List.getElem?_eq_getElem (by omega), List.getElem?_eq_getElem (by omega)]
  exact ⟨_, rfl⟩

theorem readPos_returns {lsb : F64} {n : Nat} (long : n + n ≤ item.length) : ∃ t', t.readPos floats lsb n item = some t' := by
  rw [TrackReport.readPos, signedChecked_inside floats.toFloats (by omega), signedChecked_inside floats.toFloats long]
  exact ⟨_, rfl⟩

theorem readVector_returns (long : 4 ≤ item.length) : ∃ t', t.readVector floats item = some t' := by
  rw [TrackReport.readVector, u16Checked_inside (by omega), u16Checked_inside (by omega)]
  exact ⟨_, rfl⟩

theorem readSquawk_returns (long : 2 ≤ item.length) : ∃ t', t.readSquawk item = some t' := by
  rw [TrackReport.readSquawk, u16Checked_inside (by omega)]
  exact ⟨_, rfl⟩

theorem readLevel_returns (long : 2 ≤ item.length) : ∃ t', t.readLevel floats item = some t' := by
  rw [TrackReport.readLevel, List.getElem?_eq_getElem (by omega), u16Checked_inside (by omega)]
  simp only [Option.bind_eq_bind, Option.bind_some]
  split <;> exact ⟨_, rfl⟩

theorem readAddress_returns (long : 3 ≤ item.length) : ∃ t', t.readAddress item = some t' := by
  rw [TrackReport.readAddress, beUintChecked_inside (by omega)]
  exact ⟨_, rfl⟩

end

end AsterixProof
