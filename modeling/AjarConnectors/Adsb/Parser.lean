import AjarConnectors.Builder.Optional
import AjarConnectors.CarryForward.Ledger
import AjarConnectors.Event.Floats
import AjarConnectors.Http.Server
import AjarConnectors.Utf8.RoundTrip

namespace AdsbModel

open EventModel BuilderModel HttpModel TextModel CarryForward

/-- `FT_TO_M`, `FTMIN_TO_MPS` and `KNOTS_TO_MPS`. -/
def ftToM : F64 := ⟨0x3fd381d7dbf487fd⟩

def ftminToMps : F64 := ⟨0x3f74cec41dd1a21f⟩

def knotsToMps : F64 := ⟨0x3fe076534373f317⟩

inductive AdsbError where
  | notAscii
  | notSbs
  | noIcao
  | build (error : BuildError)
  deriving DecidableEq

/-- Latest non-positional state of one aircraft. -/
structure AircraftState where
  callsign : Option Text := none
  squawk : Option Text := none
  groundSpeedKn : Option F64 := none
  trackDeg : Option F64 := none
  verticalRateFtmin : Option F64 := none
  altitudeFt : Option F64 := none
  onGround : Option Bool := none

/-- A position report with the aircraft's latest cached state. -/
structure AdsbPosition where
  icao : Text
  msgType : Nat
  lat : F64
  lon : F64
  altM : F64
  state : AircraftState
  raw : Bytes
  truncated : Bool

def maxAircraft : Nat := 10000

def carryCaps : Caps := ⟨64, 16 * 1024⟩

structure Entry where
  state : AircraftState := {}
  carry : Buffer Bytes := {}

structure StateCache where
  map : Text → Option Entry := fun _ => none
  order : List Text := []

namespace StateCache

def evict (c : StateCache) : StateCache :=
  if maxAircraft ≤ c.order.length then
    match c.order with
    | [] => c
    | old :: rest => ⟨Function.update c.map old none, rest⟩
  else c

/-- `entry` makes room for the aircraft, and `value` is what the reference it returns points at. -/
def entry (c : StateCache) (icao : Text) : StateCache :=
  if (c.map icao).isNone then ⟨Function.update c.evict.map icao (some {}), c.evict.order ++ [icao]⟩ else c

def value (c : StateCache) (icao : Text) : Entry := (c.map icao).getD {}

def set (c : StateCache) (icao : Text) (e : Entry) : StateCache :=
  { c with map := Function.update c.map icao (some e) }

end StateCache

structure AdsbParser where
  sourceId : String
  hostility : Option String
  aircraft : StateCache := {}
  dropped : Nat := 0

/-- A trimmed, non-empty field; SBS leaves unused fields blank. -/
def field (parts : List Text) (idx : Nat) : Option Text := (parts[idx]?.map trimText).filter fun s => !s.isEmpty

section

variable (floats : Floats)

def num (parts : List Text) (idx : Nat) : Option F64 := (field parts idx).bind fun s => floats.parse (String.ofList s)

/-- What a line says about the aircraft besides its position. -/
def AircraftState.note (s : AircraftState) (parts : List Text) : AircraftState where
  callsign := ((field parts 10).map trimText).or s.callsign
  altitudeFt := (num floats parts 11).or s.altitudeFt
  groundSpeedKn := (num floats parts 12).or s.groundSpeedKn
  trackDeg := (num floats parts 13).or s.trackDeg
  verticalRateFtmin := (num floats parts 16).or s.verticalRateFtmin
  squawk := (field parts 17).or s.squawk
  onGround := ((field parts 21).map fun g => g == ['1']).or s.onGround

/-- The position a line states, with its transmission type. -/
def fix (parts : List Text) : Option (Nat × F64 × F64) :=
  match (field parts 1).bind (parseU8 10) with
  | none => none
  | some tx =>
    if tx = 2 ∨ tx = 3 then
      match num floats parts 14, num floats parts 15 with
      | some lat, some lon =>
        if F64.between Rust.minusNinety Rust.ninety lat && F64.between Rust.minusOneEighty Rust.oneEighty lon then
          some (tx, lat, lon)
        else none
      | _, _ => none
    else none

/-- The line without its line end, cut at the commas; nothing for an empty line. -/
def readLine (frame : Bytes) : Except AdsbError (Option (Text × List Text)) :=
  match Utf8.decode frame with
  | none => .error .notAscii
  | some text =>
    let line := trimEndMatches (fun c => c == '\r' || c == '\n') text
    if line.isEmpty then .ok none else .ok (some (line, line.splitOn ','))

/-- Valid SBS record types that carry no track. -/
def isQuiet (kind : Text) : Bool := kind ∈ ["SEL".toList, "ID".toList, "AIR".toList, "STA".toList, "CLK".toList]

/-- The entry after a line of the aircraft: the line waits, and its values are cached. -/
def Entry.take (e : Entry) (line : Text) (parts : List Text) : Entry × Nat :=
  let (carry, dropped) := e.carry.pushRaw carryCaps List.length (Utf8.encodeText line)
  (⟨e.state.note floats parts, carry⟩, dropped)

/-- The pending lines newline-joined, and whether any were dropped. -/
def Entry.drainPayload (e : Entry) : Bytes × Bool × Entry :=
  let (lines, truncated, carry) := e.carry.drain
  ([10].intercalate lines, truncated, { e with carry := carry })

def altitudeM (s : AircraftState) : F64 := (s.altitudeFt.map fun ft => floats.mul ft ftToM).getD .zero

/-- `Some` for a MSG,2 or MSG,3 line with a valid fix; `None` for a line that only updates the cache or
    a non-MSG record. -/
def AdsbParser.parseLine (p : AdsbParser) (frame : Bytes) : Except AdsbError (Option AdsbPosition) × AdsbParser :=
  match readLine frame with
  | .error e => (.error e, p)
  | .ok none => (.ok none, p)
  | .ok (some (line, parts)) =>
    let kind := parts.headD []
    if kind ≠ "MSG".toList then (if isQuiet kind then .ok none else .error .notSbs, p)
    else match field parts 4 with
      | none => (.error .noIcao, p)
      | some address =>
        let icao := address.map Char.toUpper
        let cache := p.aircraft.entry icao
        let (entry, dropped) := (cache.value icao).take floats line parts
        let p := { p with aircraft := cache.set icao entry, dropped := p.dropped + dropped }
        match fix floats parts with
        | none => (.ok none, p)
        | some (msgType, lat, lon) =>
          let (raw, truncated, drained) := entry.drainPayload
          (.ok (some
            { icao := icao, msgType := msgType, lat := lat, lon := lon, altM := altitudeM floats entry.state,
              state := entry.state, raw := raw, truncated := truncated }),
            { p with aircraft := cache.set icao drained })

/-- Rates print without the sign of a negative zero. -/
def unsignedZero (x : F64) : F64 := if x.le .zero && F64.zero.le x then .zero else x

/-- The calls of `base_builder`; `new_id` takes the id it is given. -/
def baseBuilder (hostility : Option String) (id : String) (p : AdsbPosition) : List Call :=
  [.id id] ++ [.location p.lat p.lon p.altM] ++ [.payload p.raw] ++ [.metadata "source_uid" (String.ofList p.icao)] ++
  [.metadata "icao" (String.ofList p.icao)] ++ identity "ICAO24" (String.ofList p.icao) ++
  (if p.truncated then [.metadata "payload_truncated" "true"] else []) ++
  ifGiven hostility (fun aff => [.attribute "hostility" aff]) ++
  ifGiven (p.state.callsign.filter fun c => !c.isEmpty) (fun c => [.attribute "callsign" (String.ofList c)]) ++
  ifGiven p.state.groundSpeedKn (fun kn => [.attribute "speed" (floats.fixed 2 (floats.mul kn knotsToMps)),
    .metadata "speed_kn" (floats.fixed 1 kn)]) ++
  ifGiven p.state.trackDeg (fun deg => [.attribute "course" (floats.fixed 1 deg)]) ++
  ifGiven p.state.verticalRateFtmin (fun ftmin =>
    [.attribute "vertical_rate" (floats.fixed 1 (unsignedZero (floats.mul ftmin ftminToMps))),
     .metadata "vertical_rate_ftmin" (floats.fixed 0 ftmin)]) ++
  ifGiven p.state.altitudeFt (fun ft => [.metadata "altitude_ft" (floats.fixed 0 ft)]) ++
  ifGiven (p.state.squawk.filter fun q => !q.isEmpty) (fun q => [.attribute "squawk" (String.ofList q)]) ++
  ifGiven p.state.onGround (fun g => [.attribute "on_ground" (if g then "true" else "false")])

/-- A frame, with the id `new_id` draws and the time `now` stamps. -/
structure Arrival where
  frame : Bytes
  id : String
  clock : String

def AdsbParser.parse (p : AdsbParser) (a : Arrival) : Except AdsbError (List Event) × AdsbParser :=
  match p.parseLine floats a.frame with
  | (.error e, p) => (.error e, p)
  | (.ok none, p) => (.ok [], p)
  | (.ok (some pos), p) =>
    match Rust.run p.sourceId "mim:aircraft" (baseBuilder floats p.hostility a.id pos ++ [.timestamp a.clock]) with
    | .error e => (.error (.build e), p)
    | .ok event => (.ok [event], p)

def AdsbParser.run (p : AdsbParser) (arrivals : List Arrival) : AdsbParser :=
  arrivals.foldl (fun p a => (p.parse floats a).2) p

end

end AdsbModel
