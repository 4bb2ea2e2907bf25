import AjarConnectors.Ais.Nmea
import AjarConnectors.Builder.Optional
import AjarConnectors.CarryForward.Ledger
import AjarConnectors.Event.Floats

namespace AisModel

open EventModel BuilderModel HttpModel CarryForward

def maxVessels : Nat := 10000

def carryCaps : Caps := ⟨64, 16 * 1024⟩

/-- Per-MMSI state; the oldest vessel is evicted first. -/
structure MmsiCache (V : Type) where
  map : Nat → Option V := fun _ => none
  order : List Nat := []

namespace MmsiCache

variable {V : Type}

def get (c : MmsiCache V) (mmsi : Nat) : Option V := c.map mmsi

def evict (c : MmsiCache V) : MmsiCache V :=
  if maxVessels ≤ c.order.length then
    match c.order with
    | [] => c
    | oldest :: rest => ⟨Function.update c.map oldest none, rest⟩
  else c

/-- `entry` makes room for the vessel, and `value` is what the reference it returns points at. -/
def entry (c : MmsiCache V) (mmsi : Nat) (fresh : V) : MmsiCache V :=
  if (c.map mmsi).isNone then ⟨Function.update c.evict.map mmsi (some fresh), c.evict.order ++ [mmsi]⟩ else c

def value (c : MmsiCache V) (mmsi : Nat) (fresh : V) : V := (c.map mmsi).getD fresh

def set (c : MmsiCache V) (mmsi : Nat) (v : V) : MmsiCache V := { c with map := Function.update c.map mmsi (some v) }

end MmsiCache

/-- What a vessel advertises in its static messages. -/
structure Identity where
  name : Option Text := none
  callsign : Option Text := none
  shipType : Option String := none
  imo : Option Nat := none

abbrev Carry := Buffer Bytes

def Carry.pushRaw (c : Carry) (raw : Bytes) : Carry × Nat := Buffer.pushRaw carryCaps List.length c raw

/-- The pending sentences followed by `tail`, newline-joined, and whether any was dropped. -/
def Carry.drainWith (c : Carry) (tail : List Bytes) : Bytes × Bool × Carry :=
  ([10].intercalate (c.drain.1 ++ tail), c.drain.2.1, c.drain.2.2)

/-- Class A (types 1-3) and class B (18, 19) place the kinematic fields at different offsets. -/
inductive Layout where
  | classA
  | classB (extended : Bool)
  deriving DecidableEq

/-- `(sog, lon, lat, cog, heading)` bit offsets. -/
def Layout.offsets : Layout → Nat × Nat × Nat × Nat × Nat
  | .classA => (50, 61, 89, 116, 128)
  | .classB _ => (46, 57, 85, 112, 124)

def navStatus (code : Nat) : Option String :=
  match code with
  | 0 => some "under-way-using-engine"
  | 1 => some "at-anchor"
  | 2 => some "not-under-command"
  | 3 => some "restricted-manoeuvrability"
  | 4 => some "constrained-by-draught"
  | 5 => some "moored"
  | 6 => some "aground"
  | 7 => some "engaged-in-fishing"
  | 8 => some "under-way-sailing"
  | 9 | 10 | 11 | 12 | 13 => some "reserved"
  | 14 => some "ais-sart"
  | _ => none

/-- Ship-type code (0-99) to category. -/
def shipType (code : Nat) : Option String :=
  if 20 ≤ code ∧ code ≤ 29 then some "wing-in-ground"
  else if code = 30 then some "fishing"
  else if code = 31 ∨ code = 32 then some "towing"
  else if code = 33 then some "dredging"
  else if code = 34 then some "diving-ops"
  else if code = 35 then some "military-ops"
  else if code = 36 then some "sailing"
  else if code = 37 then some "pleasure-craft"
  else if 40 ≤ code ∧ code ≤ 49 then some "high-speed-craft"
  else if code = 50 then some "pilot-vessel"
  else if code = 51 then some "search-and-rescue"
  else if code = 52 then some "tug"
  else if code = 53 then some "port-tender"
  else if code = 54 then some "anti-pollution"
  else if code = 55 then some "law-enforcement"
  else if code = 58 then some "medical-transport"
  else if 60 ≤ code ∧ code ≤ 69 then some "passenger"
  else if 70 ≤ code ∧ code ≤ 79 then some "cargo"
  else if 80 ≤ code ∧ code ≤ 89 then some "tanker"
  else if 90 ≤ code ∧ code ≤ 99 then some "other-vessel"
  else none

/-- A position report with the vessel's cached identity. -/
structure AisPosition where
  msgType : Nat
  mmsi : Nat
  lat : Option F64
  lon : Option F64
  cogDeg : Option F64
  sogKn : Option F64
  headingDeg : Option F64
  rotDegmin : Option F64
  navStatus : Option String
  shipType : Option String
  name : Option Text
  callsign : Option Text
  imo : Option Nat
  raw : Bytes
  truncated : Bool

/-- A tracked radar target, as `TtmState::handle` hands it over. -/
structure RadarTarget where
  number : String
  position : Option (F64 × F64)
  rangeM : F64
  bearingDeg : Option F64
  speedMps : Option F64
  courseDeg : Option F64
  name : Option String
  cpaM : Option F64
  tcpaMin : Option F64
  raw : Bytes

/-- The radar side of the bus: own-ship fixes and targets, over a state of its own. -/
structure Radar (ρ : Type) where
  handle : List Text → Bytes → ρ → Except AisError (Option RadarTarget) × ρ

structure Parser (ρ : Type) where
  sourceId : String
  hostility : Option String
  radar : ρ
  pending : Reassembly := fun _ => none
  identities : MmsiCache Identity := {}
  carry : MmsiCache Carry := {}
  dropped : Nat := 0

/-- `AisParser::new`, with the radar as it starts. -/
def Parser.new {ρ : Type} (sourceId : String) (hostility : Option String) (radar : ρ) : Parser ρ :=
  { sourceId := sourceId, hostility := hostility, radar := radar }

section

variable {ρ : Type} (floats : Floats)

/-- Rate-of-turn indicator to degrees per minute; -128 is not available. -/
def decodeRot (raw : Int) : Option F64 :=
  if raw ≤ -128 ∨ 127 < raw then none
  else
    let s := floats.div (floats.ofInt raw) ⟨0x4012ee978d4fdf3b⟩
    some (floats.mul (floats.mul s s) (floats.ofInt raw.sign))

/-- Fold newly seen fields into the cache; an empty field never overwrites. -/
def Parser.mergeIdentity (p : Parser ρ) (mmsi : Nat) (name callsign : Option Text) (shipType : Option String)
    (imo : Option Nat) : Parser ρ :=
  let cache := p.identities.entry mmsi {}
  let e := cache.value mmsi {}
  let e := { e with
    name := (name.filter fun v => !v.isEmpty).or e.name
    callsign := (callsign.filter fun v => !v.isEmpty).or e.callsign
    shipType := shipType.or e.shipType
    imo := imo.or e.imo }
  { p with identities := cache.set mmsi e }

/-- Type 5: class A static and voyage data. -/
def Parser.staticClassA (p : Parser ρ) (bits : Bits) (mmsi : Nat) : Parser ρ :=
  p.mergeIdentity mmsi (bits.optText 112 120) (bits.optText 70 42) ((bits.optU 232 8).bind shipType)
    ((bits.optU 40 30).filter (· != 0))

/-- Type 24: class B static data. -/
def Parser.staticClassB (p : Parser ρ) (bits : Bits) (mmsi : Nat) : Parser ρ :=
  match bits.optU 38 2 with
  | some 0 => p.mergeIdentity mmsi (bits.optText 40 120) none none none
  | some 1 => p.mergeIdentity mmsi none (bits.optText 90 42) ((bits.optU 40 8).bind shipType) none
  | _ => p

def degrees (low high : F64) (v : Option Int) : Option F64 :=
  (v.map fun v => floats.div (floats.ofInt v) (floats.ofInt 600000)).filter (F64.between low high)

/-- A position report, with the vessel's cached identity. -/
def Parser.position (p : Parser ρ) (bits : Bits) (msgType mmsi : Nat) (layout : Layout) : AisPosition × Parser ρ :=
  let (sogOff, lonOff, latOff, cogOff, hdgOff) := layout.offsets
  let p := if layout = .classB true then
      p.mergeIdentity mmsi (bits.optText 143 120) none ((bits.optU 263 8).bind shipType) none
    else p
  let id := (p.identities.get mmsi).getD {}
  ({ msgType := msgType
     mmsi := mmsi
     lat := degrees floats Rust.minusNinety Rust.ninety (bits.optI latOff 27)
     lon := degrees floats Rust.minusOneEighty Rust.oneEighty (bits.optI lonOff 28)
     sogKn := ((bits.optU sogOff 10).filter (· != 1023)).map fun (v : Nat) => floats.div (floats.ofInt v) (floats.ofInt 10)
     cogDeg := ((bits.optU cogOff 12).filter (· != 3600)).map fun (v : Nat) => floats.div (floats.ofInt v) (floats.ofInt 10)
     headingDeg := ((bits.optU hdgOff 9).filter (· != 511)).map fun (v : Nat) => floats.ofInt v
     rotDegmin := if layout = .classA then (bits.optI 42 8).bind (decodeRot floats) else none
     navStatus := if layout = .classA then (bits.optU 38 4).bind AisModel.navStatus else none
     shipType := id.shipType
     name := id.name
     callsign := id.callsign
     imo := id.imo
     raw := []
     truncated := false }, p)

def layoutOf (msgType : Nat) : Option Layout :=
  if 1 ≤ msgType ∧ msgType ≤ 3 then some .classA
  else if msgType = 18 then some (.classB false)
  else if msgType = 19 then some (.classB true)
  else none

/-- Static data is cached before the message is carried. -/
def Parser.noteStatic (p : Parser ρ) (bits : Bits) (msgType mmsi : Nat) : Parser ρ :=
  if msgType = 5 then p.staticClassA bits mmsi
  else if msgType = 24 then p.staticClassB bits mmsi
  else p

def Parser.pushRaw (p : Parser ρ) (mmsi : Nat) (raw : Bytes) : Parser ρ :=
  let (carry, dropped) := Carry.pushRaw (p.carry.value mmsi {}) raw
  { p with carry := p.carry.set mmsi carry, dropped := p.dropped + dropped }

def Parser.decode (p : Parser ρ) (bits : Bits) (raws : List Bytes) :
    Except AisError (Option AisPosition) × Parser ρ :=
  if bits.validBits < 38 then (.error .truncated, p)
  else
    let msgType := bits.u 0 6
    let mmsi := bits.u 8 30
    let p := p.noteStatic bits msgType mmsi
    let p := { p with carry := p.carry.entry mmsi {} }
    match layoutOf msgType with
    | none => (.ok none, raws.foldl (fun p raw => p.pushRaw mmsi raw) p)
    | some layout =>
      let (raw, truncated, carry) := Carry.drainWith (p.carry.value mmsi {}) raws
      let p := { p with carry := p.carry.set mmsi carry }
      let (pos, p) := p.position floats bits msgType mmsi layout
      (.ok (some { pos with raw := raw, truncated := truncated }), p)

/-- `Some` for a position report; `None` for a static or unmapped message, a buffered fragment, or
    an NMEA sentence that is not AIS. -/
def Parser.parseSentence (p : Parser ρ) (now : Nat) (frame : Bytes) : Except AisError (Option AisPosition) × Parser ρ :=
  match readSentence frame with
  | .error e => (.error e, p)
  | .ok none => (.ok none, p)
  | .ok (some s) => match receive p.pending now s with
    | (.error e, pending) => (.error e, { p with pending := pending })
    | (.ok none, pending) => (.ok none, { p with pending := pending })
    | (.ok (some (bits, raws)), pending) => { p with pending := pending }.decode floats bits raws

/-- The decimal digits, with zeros in front up to nine. -/
def nineDigits (n : Nat) : String :=
  String.ofList (List.replicate (9 - (FeedModel.decimal n).length) '0' ++ FeedModel.decimal n)

def locationCalls : Option F64 → Option F64 → List Call
  | some lat, some lon => [.location lat lon .zero]
  | _, _ => []

/-- The calls of `base_builder`; `new_id` takes the id it is given. -/
def baseBuilder (hostility : Option String) (id : String) (p : AisPosition) : List Call :=
  [.id id] ++ [.payload p.raw] ++ [.metadata "source_uid" (toString p.mmsi)] ++ [.metadata "mmsi" (toString p.mmsi)] ++
  (if 1 ≤ p.mmsi ∧ p.mmsi ≤ 999999999 then identity "AIS" (nineDigits p.mmsi) else []) ++
  locationCalls p.lat p.lon ++
  ifGiven p.imo (fun imo => [.metadata "imo" (toString imo)]) ++
  (if p.truncated then [.metadata "payload_truncated" "true"] else []) ++
  ifGiven hostility (fun aff => [.attribute "hostility" aff]) ++
  ifGiven p.sogKn (fun kn => [.attribute "speed" (floats.fixed 2 (floats.mul kn ⟨0x3fe076534373f317⟩)),
    .metadata "speed_kn" (floats.fixed 1 kn)]) ++
  ifGiven p.cogDeg (fun deg => [.attribute "course" (floats.fixed 1 deg)]) ++
  ifGiven p.headingDeg (fun deg => [.attribute "heading" (floats.fixed 0 deg)]) ++
  ifGiven p.rotDegmin (fun rot => [.attribute "rate_of_turn" (floats.fixed 1 rot)]) ++
  ifGiven p.navStatus (fun ns => [.attribute "nav_status" ns]) ++
  ifGiven p.shipType (fun vt => [.attribute "vessel_type" vt]) ++
  ifGiven p.name (fun name => [.attribute "vessel_name" (String.ofList name)]) ++
  ifGiven p.callsign (fun cs => [.attribute "callsign" (String.ofList cs)])

/-- `ttm::to_event`. -/
def radarCalls (hostility : Option String) (id clock : String) (t : RadarTarget) : List Call :=
  [.id id] ++ [.timestamp clock] ++ [.payload t.raw] ++ [.metadata "source_uid" ("arpa-" ++ t.number)] ++
  [.metadata "target_number" t.number] ++ [.metadata "range_m" (floats.fixed 0 t.rangeM)] ++
  [.attribute "environment" "SURFACE"] ++
  ifGiven t.position (fun at' => [.location at'.1 at'.2 .zero]) ++
  ifGiven t.bearingDeg (fun brg => [.metadata "bearing_deg" (floats.fixed 1 brg)]) ++
  ifGiven t.speedMps (fun v => [.attribute "speed" (floats.fixed 2 v)]) ++
  ifGiven t.courseDeg (fun c => [.attribute "course" (floats.fixed 1 c)]) ++
  ifGiven t.name (fun n => [.attribute "callsign" n]) ++
  ifGiven t.cpaM (fun cpa => [.metadata "cpa_m" (floats.fixed 0 cpa)]) ++
  ifGiven t.tcpaMin (fun tcpa => [.metadata "tcpa_min" (floats.fixed 1 tcpa)]) ++
  ifGiven hostility (fun h => [.attribute "hostility" h])

/-- `TtmState::wants`: TTM, GGA and RMC sentences. -/
def radarWants (s : Text) : Bool :=
  let talker := (splitFields s).headD []
  3 ≤ talker.length && (endsWith "TTM".toList talker || endsWith "GGA".toList talker || endsWith "RMC".toList talker)

/-- What the outside gives a call of `parse`: the frame, the monotonic clock, the id `new_id` draws
    and the time `now` stamps. -/
structure Arrival where
  frame : Bytes
  now : Nat
  id : String
  clock : String

/-- The sentence `parse` hands to the radar, without its tag block. -/
def radarSentence (frame : Bytes) : Option Text :=
  ((Utf8.decode frame).map fun text => stripTagBlock (trimText text)).filter fun s =>
    (s.head? == some '$' || s.head? == some '!') && radarWants s

/-- AIS position reports carry no absolute time, so the time of receipt is stamped. -/
def stamp (a : Arrival) : Except AisError (Option AisPosition) × Parser ρ → Except AisError (List Event) × Parser ρ
  | (.error e, p) => (.error e, p)
  | (.ok none, p) => (.ok [], p)
  | (.ok (some pos), p) =>
    match Rust.run p.sourceId "mim:vessel" (baseBuilder floats p.hostility a.id pos ++ [.timestamp a.clock]) with
    | .error e => (.error (.build e), p)
    | .ok event => (.ok [event], p)

variable (radar : Radar ρ)

def Parser.parse (p : Parser ρ) (a : Arrival) : Except AisError (List Event) × Parser ρ :=
  match radarSentence a.frame with
  | some s => match verifyChecksum s with
    | .error e => (.error e, p)
    | .ok () => match radar.handle (splitFields s) (Utf8.encodeText s) p.radar with
      | (.error e, r) => (.error e, { p with radar := r })
      | (.ok none, r) => (.ok [], { p with radar := r })
      | (.ok (some target), r) =>
        match Rust.run p.sourceId "mim:object" (radarCalls floats p.hostility a.id a.clock target) with
        | .error e => (.error (.build e), { p with radar := r })
        | .ok event => (.ok [event], { p with radar := r })
  | none => stamp floats a (p.parseSentence floats a.now a.frame)

end

end AisModel
