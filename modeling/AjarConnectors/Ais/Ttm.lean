import AjarConnectors.Ais.Parser
import AjarConnectors.Event.Floats
import AjarConnectors.Utf8.Slices

namespace AisModel

open EventModel HttpModel TextModel Utf8

/-- A minute, in nanoseconds. -/
def fixMaxAge : Nat := 60000000000

def knotsToMps : F64 := ⟨0x3fe076534373f317⟩

def nmToM : F64 := ⟨0x409cf00000000000⟩

structure OwnFix where
  lat : F64
  lon : F64
  takenAt : Nat

/-- The own-ship fix, plus a fixed fallback site for a shore radar. -/
structure TtmState where
  fix : Option OwnFix := none
  site : Option (F64 × F64)
  nonTracking : Nat := 0

section

variable (floats : Sphere)

def forward (lat lon bearingDeg distanceM : F64) : F64 × F64 := floats.destination lat lon bearingDeg distanceM

def parseF64 (text : Text) : Option F64 := floats.parse (String.ofList text)

/-- Where the minutes begin: two bytes before the point, or before the end. -/
def minutesAt (v : Text) : Nat := (find '.' v).getD (byteLen v) - 2

/-- NMEA `ddmm.mmmm` and hemisphere to signed decimal degrees; nothing at all where the split panics. -/
def parseCoord (value hemi : Option Text) : Option (Option F64) :=
  match value, hemi with
  | some value, some hemi =>
    let v := trimText value
    let h := trimText hemi
    if byteLen v < 3 then some none
    else
      match sliceTo v (minutesAt v) with
      | none => none
      | some front =>
        match parseF64 floats front with
        | none => some none
        | some degrees =>
          match sliceFrom v (minutesAt v) with
          | none => none
          | some back =>
            match parseF64 floats back with
            | none => some none
            | some minutes =>
              let dd := floats.add degrees (floats.div minutes ⟨0x404e000000000000⟩)
              if h = ['N'] ∨ h = ['E'] then some (some dd)
              else if h = ['S'] ∨ h = ['W'] then some (some dd.neg)
              else some none
  | _, _ => some none

/-- A fresh own-ship fix, else the configured site. -/
def TtmState.observer (s : TtmState) (now : Nat) : Option (F64 × F64) :=
  match s.fix with
  | some fix => if now - fix.takenAt ≤ fixMaxAge then some (fix.lat, fix.lon) else s.site
  | none => s.site

/-- N is nautical miles and knots, K kilometres and km/h, S statute miles and mph. -/
def unitsOf (units : Option Text) : F64 × F64 :=
  if units = some ['K'] then (⟨0x408f400000000000⟩, ⟨0x3fd1c71c71c71c72⟩)
  else if units = some ['S'] then (⟨0x409925604189374c⟩, ⟨0x3fdc9c4da9003eea⟩)
  else (nmToM, knotsToMps)

def parseAngle (text : Text) : Option F64 := (parseF64 floats text).filter (F64.between .zero ⟨0x4076800000000000⟩)

/-- `$--TTM,num,dist,brg,T|R,speed,course,T|R,cpa,tcpa,units,name,status,...` -/
def TtmState.decodeTtm (s : TtmState) (now : Nat) (f : List Text) (raw : Bytes) :
    Option (Except AisError (Option RadarTarget) × TtmState) :=
  if f.length < 13 then some (.error .fields, s)
  else do
    let status ← f[12]?
    if status ≠ ['T'] then some (.ok none, { s with nonTracking := s.nonTracking + 1 })
    else
      let number := trimText (← f[1]?)
      if number.isEmpty then some (.error .fields, s)
      else
        let (distToM, speedToMps) := unitsOf f[10]?
        match (parseF64 floats (← f[2]?)).filter fun d => F64.zero.le d with
        | none => some (.error .fields, s)
        | some d =>
          let rangeM := floats.mul d distToM
          let bearingTrue := (← f[4]?) == ['T']
          let bearingDeg := parseAngle floats (← f[3]?)
          let speedMps := (parseF64 floats (← f[5]?)).map fun v => floats.mul v speedToMps
          let courseDeg ← if (← f[7]?) = ['T'] then f[6]?.map (parseAngle floats) else some none
          let cpaM := (parseF64 floats (← f[8]?)).map fun d => floats.mul d distToM
          let tcpaMin := parseF64 floats (← f[9]?)
          let name := (f[11]?.map trimText).filter fun n => !n.isEmpty
          -- A relative bearing needs own heading to resolve, which TTM does not carry.
          let position := match bearingTrue, bearingDeg, s.observer now with
            | true, some brg, some (lat, lon) => some (forward floats lat lon brg rangeM)
            | _, _, _ => none
          some (.ok (some
            { number := String.ofList number, position := position, rangeM := rangeM, bearingDeg := bearingDeg,
              speedMps := speedMps, courseDeg := courseDeg, name := name.map String.ofList, cpaM := cpaM,
              tcpaMin := tcpaMin, raw := raw }), s)

/-- The own-ship fix of a GGA or RMC sentence whose latitude stands at `latAt`. -/
def TtmState.noteFix (s : TtmState) (now : Nat) (f : List Text) (valid : Bool) (latAt : Nat) :
    Option (Except AisError (Option RadarTarget) × TtmState) :=
  if valid then do
    let lat ← parseCoord floats f[latAt]? f[latAt + 1]?
    let lon ← parseCoord floats f[latAt + 2]? f[latAt + 3]?
    match lat, lon with
    | some lat, some lon => some (.ok none, { s with fix := some ⟨lat, lon, now⟩ })
    | _, _ => some (.ok none, s)
  else some (.ok none, s)

/-- GGA and RMC update the own-ship fix and yield nothing; a TTM yields a target when the radar reports it as
    tracked. Nothing at all where an index or a slice panics. -/
def TtmState.handle (s : TtmState) (now : Nat) (f : List Text) (raw : Bytes) :
    Option (Except AisError (Option RadarTarget) × TtmState) := do
  let talker ← f[0]?
  -- GGA: time,lat,N/S,lon,E/W,quality where quality 0 is no fix.
  if endsWith "GGA".toList talker then
    let valid ← if 7 ≤ f.length then f[6]?.map (· != ['0']) else some false
    s.noteFix floats now f valid 2
  -- RMC: time,status,lat,N/S,lon,E/W where status A is valid.
  else if endsWith "RMC".toList talker then
    let valid ← if 7 ≤ f.length then f[2]?.map (· == ['A']) else some false
    s.noteFix floats now f valid 3
  else s.decodeTtm floats now f raw

/-- The radar side of the parser: what `handle` returns where it returns. -/
def TtmState.radar (now : Nat) : Radar TtmState where
  handle f raw s := (s.handle floats now f raw).getD (.ok none, s)

end

end AisModel
