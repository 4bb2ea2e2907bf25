import AjarConnectors.Asterix.Field
import AjarConnectors.Event.Floats
import Mathlib.Algebra.Ring.Int.Defs
import Mathlib.Algebra.Ring.Nat
import Mathlib.Logic.Function.Basic

namespace AsterixModel

open EventModel

namespace Cat010

def uap : Uap :=
  [(⟨10⟩, .fixed 2), (⟨0⟩, .fixed 1), (⟨20⟩, .extended 1), (⟨140⟩, .fixed 3), (⟨41⟩, .fixed 8), (⟨40⟩, .fixed 4),
    (⟨42⟩, .fixed 4), (⟨200⟩, .fixed 4), (⟨202⟩, .fixed 4), (⟨161⟩, .fixed 2), (⟨170⟩, .extended 1), (⟨60⟩, .fixed 2),
    (⟨220⟩, .fixed 3), (⟨245⟩, .fixed 7), (⟨250⟩, .repetitive 8), (⟨300⟩, .fixed 1), (⟨90⟩, .fixed 2), (⟨91⟩, .fixed 2),
    (⟨270⟩, .extended 1), (⟨550⟩, .fixed 1), (⟨310⟩, .fixed 1), (⟨500⟩, .fixed 4), (⟨280⟩, .repetitive 2),
    (⟨131⟩, .fixed 1), (⟨210⟩, .fixed 2), (.spare, .spare), (.sp, .explicit), (.re, .explicit)]

def targetReport : UInt8 := 1

end Cat010

namespace Cat021

def uap : Uap :=
  [(⟨10⟩, .fixed 2), (⟨40⟩, .extended 1), (⟨161⟩, .fixed 2), (⟨15⟩, .fixed 1), (⟨71⟩, .fixed 3), (⟨130⟩, .fixed 6),
    (⟨131⟩, .fixed 8), (⟨72⟩, .fixed 3), (⟨150⟩, .fixed 2), (⟨151⟩, .fixed 2), (⟨80⟩, .fixed 3), (⟨73⟩, .fixed 3),
    (⟨74⟩, .fixed 4), (⟨75⟩, .fixed 3), (⟨76⟩, .fixed 4), (⟨140⟩, .fixed 2), (⟨90⟩, .extended 1), (⟨210⟩, .fixed 1),
    (⟨70⟩, .fixed 2), (⟨230⟩, .fixed 2), (⟨145⟩, .fixed 2), (⟨152⟩, .fixed 2), (⟨200⟩, .fixed 1), (⟨155⟩, .fixed 2),
    (⟨157⟩, .fixed 2), (⟨160⟩, .fixed 4), (⟨165⟩, .fixed 2), (⟨77⟩, .fixed 3), (⟨170⟩, .fixed 6), (⟨20⟩, .fixed 1),
    (⟨220⟩, .opaqueField), (⟨146⟩, .fixed 2), (⟨148⟩, .fixed 2), (⟨110⟩, .opaqueField), (⟨16⟩, .fixed 1), (⟨8⟩, .fixed 1),
    (⟨271⟩, .extended 1), (⟨132⟩, .fixed 1), (⟨250⟩, .repetitive 8), (⟨260⟩, .fixed 7), (⟨400⟩, .fixed 1),
    (⟨295⟩, .opaqueField), (.re, .explicit), (.sp, .explicit)]

end Cat021

namespace Cat034

/-- Subfields COM, spare, spare, PSR, SSR, MDS, spare. -/
def sub050 : List Field := [.fixed 1, .spare, .spare, .fixed 1, .fixed 1, .fixed 2, .spare]

def sub060 : List Field := [.fixed 1, .spare, .spare, .fixed 1, .fixed 1, .fixed 1, .spare]

def uap : Uap :=
  [(⟨10⟩, .fixed 2), (⟨0⟩, .fixed 1), (⟨30⟩, .fixed 3), (⟨20⟩, .fixed 1), (⟨41⟩, .fixed 2), (⟨50⟩, .compound sub050),
    (⟨60⟩, .compound sub060), (⟨70⟩, .repetitive 2), (⟨100⟩, .fixed 8), (⟨110⟩, .fixed 1), (⟨120⟩, .fixed 8),
    (⟨90⟩, .fixed 2), (.re, .explicit), (.sp, .explicit)]

end Cat034

namespace Cat048

def sub130 : List Field := List.replicate 7 (.fixed 1)

def sub120 : List Field := [.fixed 2, .repetitive 6]

def uap : Uap :=
  [(⟨10⟩, .fixed 2), (⟨140⟩, .fixed 3), (⟨20⟩, .extended 1), (⟨40⟩, .fixed 4), (⟨70⟩, .fixed 2), (⟨90⟩, .fixed 2),
    (⟨130⟩, .compound sub130), (⟨220⟩, .fixed 3), (⟨240⟩, .fixed 6), (⟨250⟩, .repetitive 8), (⟨161⟩, .fixed 2),
    (⟨42⟩, .fixed 4), (⟨200⟩, .fixed 4), (⟨170⟩, .extended 1), (⟨210⟩, .fixed 4), (⟨30⟩, .extended 1), (⟨80⟩, .fixed 2),
    (⟨100⟩, .fixed 4), (⟨110⟩, .fixed 2), (⟨120⟩, .compound sub120), (⟨230⟩, .fixed 2), (⟨260⟩, .fixed 7),
    (⟨55⟩, .fixed 1), (⟨50⟩, .fixed 2), (⟨65⟩, .fixed 1), (⟨60⟩, .fixed 2), (.sp, .explicit), (.re, .explicit)]

end Cat048

namespace Cat062

def sub380 : List Field :=
  [.fixed 3, .fixed 6, .fixed 2, .fixed 2, .fixed 2, .fixed 2, .fixed 2, .extended 1, .repetitive 15, .fixed 2, .fixed 2,
    .fixed 7, .fixed 2, .fixed 2, .fixed 2, .fixed 2, .fixed 2, .fixed 2, .fixed 1, .fixed 8, .fixed 1, .fixed 6, .fixed 2,
    .fixed 1, .repetitive 8, .fixed 2, .fixed 2, .fixed 2]

def sub290 : List Field :=
  [.fixed 1, .fixed 1, .fixed 1, .fixed 1, .fixed 2, .fixed 1, .fixed 1, .fixed 1, .fixed 1, .fixed 1] ++
    List.replicate 4 .spare

def sub295 : List Field := List.replicate 31 (.fixed 1) ++ List.replicate 4 .spare

def sub500 : List Field :=
  [.fixed 4, .fixed 2, .fixed 4, .fixed 1, .fixed 1, .fixed 2, .fixed 2, .fixed 1] ++ List.replicate 6 .spare

def sub340 : List Field := [.fixed 2, .fixed 4, .fixed 2, .fixed 2, .fixed 2, .fixed 1, .spare]

def sub110 : List Field := [.fixed 1, .fixed 4, .fixed 6, .fixed 2, .fixed 2, .fixed 1, .fixed 1]

def sub390 : List Field :=
  [.fixed 2, .fixed 7, .fixed 4, .fixed 1, .fixed 4, .fixed 1, .fixed 4, .fixed 4, .fixed 3, .fixed 2, .fixed 2,
    .repetitive 4, .fixed 6, .fixed 1, .fixed 7, .fixed 7, .fixed 2, .fixed 7, .spare, .spare, .spare]

def uap : Uap :=
  [(⟨10⟩, .fixed 2), (.spare, .opaqueField), (⟨15⟩, .fixed 1), (⟨70⟩, .fixed 3), (⟨105⟩, .fixed 8), (⟨100⟩, .fixed 6),
    (⟨185⟩, .fixed 4), (⟨210⟩, .fixed 2), (⟨60⟩, .fixed 2), (⟨245⟩, .fixed 7), (⟨380⟩, .compound sub380),
    (⟨40⟩, .fixed 2), (⟨80⟩, .extended 1), (⟨290⟩, .compound sub290), (⟨200⟩, .fixed 1), (⟨295⟩, .compound sub295),
    (⟨136⟩, .fixed 2), (⟨130⟩, .fixed 2), (⟨135⟩, .fixed 2), (⟨220⟩, .fixed 2), (⟨390⟩, .compound sub390),
    (⟨270⟩, .extended 1), (⟨300⟩, .fixed 1), (⟨110⟩, .compound sub110), (⟨120⟩, .fixed 2), (⟨510⟩, .extended 3),
    (⟨500⟩, .compound sub500), (⟨340⟩, .compound sub340), (.spare, .opaqueField), (.spare, .opaqueField),
    (.spare, .opaqueField), (.spare, .opaqueField), (.spare, .opaqueField), (.re, .explicit), (.sp, .explicit)]

end Cat062

/-- A radar's self-reported health. A field is `none` until the radar has reported it. -/
structure RadarStatus where
  nogo : Option Bool := none
  rdpOverload : Option Bool := none
  xmtOverload : Option Bool := none
  monitoringDisconnected : Option Bool := none
  timeSourceInvalid : Option Bool := none
  psrOverload : Option Bool := none
  ssrOverload : Option Bool := none
  mdsOverload : Option Bool := none
  deriving DecidableEq

namespace RadarStatus

/-- Overwrites each field the other reports. -/
def merge (known other : RadarStatus) : RadarStatus where
  nogo := other.nogo.or known.nogo
  rdpOverload := other.rdpOverload.or known.rdpOverload
  xmtOverload := other.xmtOverload.or known.xmtOverload
  monitoringDisconnected := other.monitoringDisconnected.or known.monitoringDisconnected
  timeSourceInvalid := other.timeSourceInvalid.or known.timeSourceInvalid
  psrOverload := other.psrOverload.or known.psrOverload
  ssrOverload := other.ssrOverload.or known.ssrOverload
  mdsOverload := other.mdsOverload.or known.mdsOverload

/-- NOGO or any overload reported. -/
def degraded (s : RadarStatus) : Bool :=
  [s.nogo, s.rdpOverload, s.xmtOverload, s.psrOverload, s.ssrOverload, s.mdsOverload].contains (some true)

end RadarStatus

/-- One decoded CAT034 record. -/
structure ServiceReport where
  sac : UInt8 := 0
  sic : UInt8 := 0
  messageType : UInt8 := 0
  timeOfDayS : Option F64 := none
  sector : Option UInt8 := none
  rotationPeriodS : Option F64 := none
  position : Option (F64 × F64 × F64) := none
  status : RadarStatus := {}
  window : Option (F64 × F64 × F64 × F64) := none
  raw : Bytes := []
  deriving DecidableEq

/-- A big-endian unsigned integer from `n` octets. The items a decoder reads have the length its UAP
    gives them. -/
def beUint (data : Bytes) (start n : Nat) : Nat :=
  ((data.drop start).take n).foldl (fun v octet => v * 256 + octet.toNat) 0

/-- The low bits of a number as a signed integer. -/
def signExtend (v bits : Nat) : Int := if 2^(bits - 1) ≤ v then (v : Int) - (2 : Int)^bits else v

def signed (floats : Floats) (data : Bytes) (start n : Nat) : F64 :=
  floats.ofInt (signExtend (beUint data start n) (n * 8))

def timeOfDayS (floats : Floats) (item : Bytes) : F64 :=
  floats.div (floats.ofInt (beUint item 0 3)) ⟨0x4060000000000000⟩

/-- LSB of a 16-bit binary angle, degrees. -/
def angle16 : F64 := ⟨0x3f76800000000000⟩

namespace Cat034

def northMarker : UInt8 := 1

def sectorCrossing : UInt8 := 2

def jammingStrobe : UInt8 := 4

def ssrJammingStrobe : UInt8 := 6

def modeSJammingStrobe : UInt8 := 7

/-- I034/120 latitude and longitude LSB, degrees. -/
def lsb120 : F64 := ⟨0x3ef6800000000000⟩

/-- What one subfield of I034/050 says of the radar. -/
def decodeStatus (s : RadarStatus) (sub : Nat × Bytes) : RadarStatus :=
  let octet := sub.2.getD 0 0
  match sub.1 with
  | 0 => { s with
      nogo := some (octet &&& 0x80 != 0)
      rdpOverload := some (octet &&& 0x10 != 0)
      xmtOverload := some (octet &&& 0x08 != 0)
      monitoringDisconnected := some (octet &&& 0x04 != 0)
      timeSourceInvalid := some (octet &&& 0x02 != 0) }
  | 3 => { s with psrOverload := some (octet &&& 0x10 != 0) }
  | 4 => { s with ssrOverload := some (octet &&& 0x10 != 0) }
  | 5 => { s with mdsOverload := some (octet &&& 0x10 != 0) }
  | _ => s

def decodeItem (floats : Floats) (r : ServiceReport) (entry : Item × Bytes) : ServiceReport :=
  let item := entry.2
  let part (start : Nat) : F64 := floats.ofInt (beUint item start 2)
  match entry.1.number with
  | 10 => { r with sac := item.getD 0 0, sic := item.getD 1 0 }
  | 0 => { r with messageType := item.getD 0 0 }
  | 30 => { r with timeOfDayS := some (timeOfDayS floats item) }
  | 20 => { r with sector := some (item.getD 0 0) }
  | 41 => { r with rotationPeriodS := some (floats.div (part 0) ⟨0x4060000000000000⟩) }
  | 50 => { r with status := (walkCompound sub050 item).foldl decodeStatus r.status }
  | 100 => { r with window := some (floats.div (part 0) ⟨0x4070000000000000⟩, floats.div (part 2) ⟨0x4070000000000000⟩,
      floats.mul (part 4) angle16, floats.mul (part 6) angle16) }
  | 120 => { r with position := some (floats.mul (signed floats item 2 3) lsb120,
      floats.mul (signed floats item 5 3) lsb120, signed floats item 0 2) }
  | _ => r

def decode (floats : Floats) (items : Items) : ServiceReport := items.foldl (decodeItem floats) {}

end Cat034

/-- What `parse_block` reads of a decoded track report. -/
structure AsterixTarget where
  messageType : Option UInt8 := none
  lat : Option F64 := none
  polar : Option (F64 × F64) := none
  cartesianM : Option (F64 × F64) := none
  raw : Bytes := []
  deriving DecidableEq

structure Sensor where
  lat : F64
  lon : F64
  altM : F64

/-- The track decoders of the categories, which see a record only after it is walked. -/
structure Decoders where
  cat010 : Items → Option Sensor → AsterixTarget
  cat021 : Items → AsterixTarget
  cat048 : Items → Option Sensor → AsterixTarget
  cat062 : Items → AsterixTarget

/-- What the parser keeps between datagrams: merged status per radar, and its counters. -/
structure AsterixParser where
  sensor : Option Sensor := none
  radarStatus : UInt8 × UInt8 → Option RadarStatus := fun _ => none
  ignoredBlocks : Nat := 0
  northMarkers : Nat := 0
  sectorCrossings : Nat := 0
  jammingStrobes : Nat := 0
  radarDegraded : Nat := 0

/-- The `while off < len` loop of `parse_block` and `parse_service_block`. Every record takes at least
    its FSPEC octet, so as many turns as the block has octets are enough. -/
def walkRecords {σ : Type} (cat : UInt8) (uap : Uap) (block : Bytes) (visit : σ → Items → Bytes → σ) :
    Nat → Nat → σ → σ × Except AsterixError Unit
  | 0, _, state => (state, .ok ())
  | fuel + 1, off, state =>
    if block.length ≤ off then (state, .ok ())
    else match walkRecord cat uap block off with
      | .error e => (state, .error e)
      | .ok (items, next) =>
        walkRecords cat uap block visit fuel next (visit state items ((block.take next).drop off))

/-- The UAP and decoder of a track category. -/
def Decoders.find (decoders : Decoders) (sensor : Option Sensor) (cat : UInt8) :
    Option (Uap × (Items → AsterixTarget)) :=
  match cat with
  | 10 => some (Cat010.uap, (decoders.cat010 · sensor))
  | 21 => some (Cat021.uap, decoders.cat021)
  | 48 => some (Cat048.uap, (decoders.cat048 · sensor))
  | 62 => some (Cat062.uap, decoders.cat062)
  | _ => none

/-- One turn of the loop of `parse_block`. -/
def takeTarget (cat : UInt8) (decode : Items → AsterixTarget) (targets : List AsterixTarget) (items : Items)
    (raw : Bytes) : List AsterixTarget :=
  let t := decode items
  let isReport := cat != 10 || t.messageType == some Cat010.targetReport
  let positioned := t.lat.isSome || t.polar.isSome || t.cartesianM.isSome
  if isReport && positioned then targets ++ [{ t with raw := raw }] else targets

/-- One turn of the loop of `parse_service_block`. -/
def takeReport (floats : Floats) (state : AsterixParser × List ServiceReport) (items : Items) (raw : Bytes) :
    AsterixParser × List ServiceReport :=
  let (p, reports) := state
  let r := Cat034.decode floats items
  let known := ((p.radarStatus (r.sac, r.sic)).getD {}).merge r.status
  let p := { p with radarStatus := Function.update p.radarStatus (r.sac, r.sic) (some known) }
  let p :=
    if r.messageType = Cat034.northMarker then { p with northMarkers := p.northMarkers + 1 }
    else if r.messageType = Cat034.sectorCrossing then { p with sectorCrossings := p.sectorCrossings + 1 }
    else if r.messageType = Cat034.jammingStrobe ∨ r.messageType = Cat034.ssrJammingStrobe ∨
        r.messageType = Cat034.modeSJammingStrobe then { p with jammingStrobes := p.jammingStrobes + 1 }
    else p
  let p := if r.messageType = Cat034.northMarker ∧ known.degraded then { p with radarDegraded := p.radarDegraded + 1 } else p
  (p, reports ++ [{ r with status := known, raw := raw }])

namespace AsterixParser

variable (floats : Floats) (decoders : Decoders)

/-- Every track in one CAT010, CAT021, CAT048 or CAT062 data block; empty for any other category. -/
def parseBlock (p : AsterixParser) (frame : Bytes) : Except AsterixError (List AsterixTarget) :=
  match blockHeader frame with
  | .error e => .error e
  | .ok (cat, len) =>
    match decoders.find p.sensor cat with
    | none => .ok []
    | some (uap, decode) =>
      match walkRecords cat uap (frame.take len) (takeTarget cat decode) len 3 [] with
      | (_, .error e) => .error e
      | (targets, .ok ()) => .ok targets

/-- Every CAT034 record in one data block, each merged into its radar's status; empty for any other
    category. -/
def parseServiceBlock (p : AsterixParser) (frame : Bytes) : AsterixParser × Except AsterixError (List ServiceReport) :=
  match blockHeader frame with
  | .error e => (p, .error e)
  | .ok (cat, len) =>
    if cat ≠ 34 then (p, .ok [])
    else match walkRecords cat Cat034.uap (frame.take len) (takeReport floats) len 3 (p, []) with
      | ((p, _), .error e) => (p, .error e)
      | ((p, reports), .ok ()) => (p, .ok reports)

/-- The `while !rest.is_empty()` loop of `parse_datagram`. Every block takes at least its header, so as
    many turns as the datagram has octets are enough. -/
def parseBlocks : Nat → Bytes → AsterixParser → List AsterixTarget → List ServiceReport →
    AsterixParser × Except AsterixError (List AsterixTarget × List ServiceReport)
  | 0, _, p, targets, reports => (p, .ok (targets, reports))
  | fuel + 1, rest, p, targets, reports =>
    if rest = [] then (p, .ok (targets, reports))
    else match blockHeader rest with
      | .error e => (p, .error e)
      | .ok (cat, len) =>
        if cat = 10 ∨ cat = 21 ∨ cat = 48 ∨ cat = 62 then
          match p.parseBlock decoders (rest.take len) with
          | .error e => (p, .error e)
          | .ok found => parseBlocks fuel (rest.drop len) p (targets ++ found) reports
        else if cat = 34 then
          match p.parseServiceBlock floats (rest.take len) with
          | (p, .error e) => (p, .error e)
          | (p, .ok found) => parseBlocks fuel (rest.drop len) p targets (reports ++ found)
        else parseBlocks fuel (rest.drop len) { p with ignoredBlocks := p.ignoredBlocks + 1 } targets reports

/-- The tracks and service reports in every data block of one datagram. -/
def parseDatagram (p : AsterixParser) (frame : Bytes) :
    AsterixParser × Except AsterixError (List AsterixTarget × List ServiceReport) :=
  parseBlocks floats decoders frame.length frame p [] []

end AsterixParser

end AsterixModel
