import AjarConnectors.Builder.Optional
import AjarConnectors.Event.Floats

namespace CotModel

open EventModel TextModel BuilderModel

abbrev Bytes := List UInt8

/-- What the XML reader delivers of a document. Attribute values are the text between the quotes, as it
    stands in the document. -/
inductive XmlEvent where
  | start (name : String) (attributes : List (String × String))
  | empty (name : String) (attributes : List (String × String))
  | text (content : String)
  | other
  deriving DecidableEq

/-- The events up to the end of the document, or up to an error. -/
structure Reading where
  events : List XmlEvent
  failure : Option String := none
  deriving DecidableEq

inductive CotError where
  | xml (message : String)
  | missing (what : String)
  | badNumber (place : String)
  | build (error : BuildError)
  deriving DecidableEq

structure CotParser where
  sourceId : String
  overrides : String → Option String

/-- The variables of `to_event` while it reads. -/
structure Found where
  uid : Option String := none
  cotType : Option String := none
  time : Option String := none
  lat : Option F64 := none
  lon : Option F64 := none
  haeM : F64 := .zero
  callsign : Option String := none
  courseDeg : Option F64 := none
  speedMps : Option F64 := none
  confidence : Option F64 := none
  inConfidence : Bool := false
  sawEvent : Bool := false
  deriving DecidableEq

def hundred : F64 := ⟨0x4059000000000000⟩

def threeSixty : F64 := ⟨0x4076800000000000⟩

/-- `f64::clamp(0.0, 1.0)`, which keeps a NaN. -/
def clampUnit (v : F64) : F64 := if v.lt .zero then .zero else if F64.lt .one v then .one else v

section

variable (floats : Floats)

def parseFinite (raw : String) : Option F64 := (floats.parse (trim raw)).filter F64.isFinite

/-- Confidence clamped to [0, 1]; a value above 1 is a percentage. -/
def normalizeConfidence (raw : String) : Option F64 :=
  (floats.parse raw).map fun v => clampUnit (if F64.lt .one v then floats.div v hundred else v)

namespace Found

def eventAttribute (f : Found) (a : String × String) : Found :=
  match a.1 with
  | "uid" => { f with uid := some a.2 }
  | "type" => { f with cotType := some a.2 }
  | "time" => { f with time := some a.2 }
  | _ => f

def pointAttribute (f : Found) (a : String × String) : Except CotError Found :=
  match a.1 with
  | "lat" => match floats.parse a.2 with
    | none => .error (.badNumber "point/@lat")
    | some lat => .ok { f with lat := some lat }
  | "lon" => match floats.parse a.2 with
    | none => .error (.badNumber "point/@lon")
    | some lon => .ok { f with lon := some lon }
  | "hae" => .ok { f with haeM := (floats.parse a.2).getD .zero }
  | _ => .ok f

def trackAttribute (f : Found) (a : String × String) : Found :=
  match a.1 with
  | "course" => { f with courseDeg := parseFinite floats a.2 }
  | "speed" => { f with speedMps := parseFinite floats a.2 }
  | _ => f

def tag (f : Found) (name : String) (attributes : List (String × String)) : Except CotError Found :=
  match name with
  | "event" => .ok (attributes.foldl eventAttribute { f with sawEvent := true })
  | "point" => attributes.foldlM (pointAttribute floats) f
  | "contact" => .ok (attributes.foldl (fun f a => if a.1 = "callsign" then { f with callsign := some a.2 } else f) f)
  | "track" => .ok (attributes.foldl (trackAttribute floats) f)
  | "confidence" => .ok (attributes.foldl (fun f a =>
      if a.1 = "value" then { f with confidence := normalizeConfidence floats a.2 } else f) { f with inConfidence := true })
  | _ => .ok f

def step (f : Found) : XmlEvent → Except CotError Found
  | .start name attributes => f.tag floats name attributes
  | .empty name attributes => f.tag floats name attributes
  | .text content =>
    if f.inConfidence then .ok { f with
      inConfidence := false
      confidence := f.confidence.or (normalizeConfidence floats (trim content)) }
    else .ok f
  | .other => .ok f

end Found

/-- Hostility from the type's affiliation code (second field). -/
def hostility (cotType : String) : String :=
  match (cotType.toList.splitOn '-')[1]? with
  | some ['f'] => "Friend"
  | some ['a'] => "AssumedFriend"
  | some ['h'] => "Hostile"
  | some ['s'] => "Suspect"
  | some ['n'] => "Neutral"
  | some ['p'] => "Pending"
  | some ['j'] => "Joker"
  | some ['k'] => "Faker"
  | _ => "Unknown"

namespace CotParser

/-- Config overrides first, then the battle dimension (third type field). -/
def mapType (p : CotParser) (cotType : String) : String :=
  match p.overrides cotType with
  | some mapped => mapped
  | none => match (cotType.toList.splitOn '-')[2]? with
    | some ['A'] => "mim:aircraft"
    | some ['S'] => "mim:vessel"
    | some ['U'] => "mim:subsurface-vessel"
    | _ => "x:cot:" ++ replaceAny ['-'] '_' cotType

/-- What `to_event` tells the builder. -/
def calls (newId : String) (native : Bytes) (f : Found) (uid cotType time : String) : List Call :=
  [.id newId, .payload native, .timestamp time, .metadata "source_uid" uid] ++ identity "CoT" uid ++
    [.attribute "hostility" (hostility cotType)] ++
    ifGiven f.callsign (fun callsign => [.attribute "callsign" callsign]) ++
    ifGiven (f.courseDeg.filter (F64.between .zero threeSixty))
      (fun course => [.attribute "course" (floats.fixed 1 course)]) ++
    ifGiven (f.speedMps.filter (F64.le .zero)) (fun speed => [.attribute "speed" (floats.fixed 2 speed)]) ++
    ifGiven f.confidence (fun confidence => [.confidence confidence]) ++
    match f.lat, f.lon with
    | some lat, some lon => [.location lat lon f.haeM]
    | _, _ => []

def toEvent (p : CotParser) (reader : Bytes → Reading) (newId : String) (native : Bytes) : Except CotError Event :=
  let reading := reader native
  match reading.events.foldlM (Found.step floats) {} with
  | .error e => .error e
  | .ok f =>
    match reading.failure with
    | some message => .error (.xml message)
    | none =>
      if !f.sawEvent then .error (.missing "<event>")
      else match f.uid with
        | none => .error (.missing "event/@uid")
        | some uid => match f.cotType with
          | none => .error (.missing "event/@type")
          | some cotType => match f.time with
            | none => .error (.missing "event/@time")
            | some time =>
              match Rust.run p.sourceId (p.mapType cotType) (calls floats newId native f uid cotType time) with
              | .error e => .error (.build e)
              | .ok event => .ok event

end CotParser

end

end CotModel
