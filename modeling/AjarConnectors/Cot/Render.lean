import AjarConnectors.Event.Floats
import AjarConnectors.Http.Server

namespace CotModel

open EventModel TextModel
open HttpModel (Text splitOnce parseDigits dropPlus)

/-- How long a rendered track stays on the map without a new report. -/
def staleS : Int := 60

def attributeOf (event : Event) (key : String) : Option String :=
  (event.attributes.find? fun a => a.key = key).map Attribute.value

def metadataOf (event : Event) (key : String) : Option String :=
  (event.metadata.find? fun m => m.key = key).map Attribute.value

/-- MIM 5.3 hostility to CoT affiliation. -/
def affiliationOf (hostility : Option String) : String :=
  match hostility with
  | some "Friend" => "f"
  | some "AssumedFriend" => "a"
  | some "Hostile" => "h"
  | some "Suspect" => "s"
  | some "Neutral" => "n"
  | some "Pending" => "p"
  | some "Joker" => "j"
  | some "Faker" => "k"
  | _ => "u"

def affiliation (event : Event) : String := affiliationOf (attributeOf event "hostility")

/-- Battle dimension from the environment attribute, else the entity type. -/
def dimensionOf (environment : Option String) (entityType : String) : String :=
  match environment with
  | some "AIR" => "A"
  | some "LAND" => "G"
  | some "SURFACE" => "S"
  | some "SUBSURFACE" => "U"
  | some "SPACE" => "P"
  | some _ => "X"
  | none => match entityType with
    | "mim:aircraft" => "A"
    | "mim:vessel" | "mim:surface-vessel" => "S"
    | "mim:subsurface-vessel" => "U"
    | "mim:land-vehicle" => "G"
    | _ => "X"

def dimension (event : Event) : String := dimensionOf (attributeOf event "environment") event.entityType

def escapeChar (c : Char) : Text :=
  if c = '&' then ['&', 'a', 'm', 'p', ';']
  else if c = '<' then ['&', 'l', 't', ';']
  else if c = '>' then ['&', 'g', 't', ';']
  else if c = '"' then ['&', 'q', 'u', 'o', 't', ';']
  else if c = Char.ofNat 39 then ['&', 'a', 'p', 'o', 's', ';']
  else [c]

def escape (s : String) : String := String.ofList (s.toList.flatMap escapeChar)

/-- `i64::from_str`. -/
def parseI64 (text : Text) : Option Int :=
  match text with
  | [] => none
  | '-' :: digits =>
    if digits = [] then none
    else ((parseDigits 10 0 digits).filter (· ≤ 9223372036854775808)).map fun n => -(n : Int)
  | text =>
    if dropPlus text = [] then none
    else ((parseDigits 10 0 (dropPlus text)).filter (· < 9223372036854775808)).map fun n => (n : Int)

/-- A number printed with the format `02`. -/
def twoDigits (n : Int) : String := if 0 ≤ n ∧ n < 10 then "0" ++ toString n else toString n

/-- `timestamp + STALE_S`, as arithmetic on the RFC 3339 time of day. -/
def staleAfter (rfc3339 : String) : Option String :=
  match splitOnce 'T' rfc3339.toList with
  | none => none
  | some (date, time) =>
    match splitOnce ':' (trimEndMatches (· == 'Z') time) with
    | none => none
    | some (h, later) =>
      match splitOnce ':' later with
      | none => none
      | some (m, s) =>
        match parseI64 h, parseI64 m, parseI64 (s.takeWhile fun c => c != '.' && c != '+') with
        | some h, some m, some s =>
          -- Clamped to the end of the day.
          let total := min (h * 3600 + m * 60 + s + staleS) (24 * 3600 - 1)
          some (String.ofList date ++ "T" ++ twoDigits (total.tdiv 3600) ++ ":" ++ twoDigits ((total.tmod 3600).tdiv 60) ++
            ":" ++ twoDigits (total.tmod 60) ++ "Z")
        | _, _, _ => none

/-- The track identity. -/
def uidOf (event : Event) : String := ((metadataOf event "source_uid").or (metadataOf event "native_id")).getD event.id

def callsignOf (event : Event) : String := (attributeOf event "callsign").getD (uidOf event)

def staleOf (event : Event) : String := (staleAfter event.timestamp).getD event.timestamp

/-- One SA event, or none without a location. -/
def render (floats : Floats) (event : Event) : Option String :=
  match event.location with
  | none => none
  | some loc => some (
      "<?xml version=\"1.0\" encoding=\"UTF-8\"?>" ++
      "<event version=\"2.0\" uid=\"" ++ escape (uidOf event) ++
      "\" type=\"a-" ++ affiliation event ++ "-" ++ dimension event ++
      "\" time=\"" ++ escape event.timestamp ++ "\" start=\"" ++ escape event.timestamp ++
      "\" stale=\"" ++ escape (staleOf event) ++ "\" how=\"m-g\">" ++
      "<point lat=\"" ++ floats.display loc.latitude ++ "\" lon=\"" ++ floats.display loc.longitude ++
      "\" hae=\"" ++ floats.display loc.altitudeM ++ "\" ce=\"9999999\" le=\"9999999\"/>" ++
      "<detail><contact callsign=\"" ++ escape (callsignOf event) ++ "\"/></detail>" ++
      "</event>")

end CotModel
