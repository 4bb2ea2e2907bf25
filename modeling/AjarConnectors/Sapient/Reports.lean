import AjarConnectors.Builder.Optional
import AjarConnectors.Event.Floats

namespace ReportModel

open EventModel TextModel BuilderModel

abbrev Bytes := List UInt8

/-! The messages of the standard, with the fields the parser reads. A `float` field stands as the double it
    converts to, an enumeration as its number. -/

structure Timestamp where
  seconds : Int
  nanos : Int

structure Location where
  x : Option F64 := none
  y : Option F64 := none
  z : Option F64 := none
  xError : Option F64 := none
  yError : Option F64 := none
  coordinateSystem : Option Int := none
  utmZone : Option String := none

structure RangeBearing where
  elevation : Option F64 := none
  azimuth : Option F64 := none
  range : Option F64 := none
  rangeError : Option F64 := none
  coordinateSystem : Option Int := none
  datum : Option Int := none

inductive LocationOneof where
  | location (loc : Location)
  | rangeBearing (rb : RangeBearing)

structure EnuVelocity where
  eastRate : Option F64 := none
  northRate : Option F64 := none
  upRate : Option F64 := none

structure Classification where
  type : Option String := none
  confidence : Option F64 := none

structure TrackObjectInfo where
  type : Option String := none
  value : Option String := none

structure Signal where
  amplitude : Option F64 := none
  centreFrequency : Option F64 := none

structure DetectionReport where
  reportId : Option String := none
  objectId : Option String := none
  taskId : Option String := none
  state : Option String := none
  locationOneof : Option LocationOneof := none
  detectionConfidence : Option F64 := none
  trackInfo : List TrackObjectInfo := []
  objectInfo : List TrackObjectInfo := []
  classification : List Classification := []
  /-- The types of the behaviours. -/
  behaviour : List (Option String) := []
  /-- The addresses of the associated files. -/
  associatedFile : List (Option String) := []
  signal : List Signal := []
  enuVelocity : Option EnuVelocity := none
  colour : Option String := none
  id : Option String := none

structure Power where
  level : Option Int := none
  source : Int := 0
  status : Int := 0

structure Status where
  statusLevel : Option Int := none
  statusValue : Option String := none
  statusType : Option Int := none

structure StatusReport where
  reportId : Option String := none
  system : Option Int := none
  activeTaskId : Option String := none
  mode : Option String := none
  power : Option Power := none
  nodeLocation : Option Location := none
  status : List Status := []

structure NodeDefinition where
  nodeType : Option Int := none
  nodeSubType : List String := []

structure Capability where
  category : Option String := none
  type : Option String := none
  value : Option String := none
  units : Option String := none

structure Duration where
  units : Option Int := none
  value : Option F64 := none

/-- The east and north rate units of a velocity type, where it has units at all. -/
structure DetectionDefinition where
  enuVelocityUnits : Option (Option Int) := none

structure ModeDefinition where
  detectionDefinition : List DetectionDefinition := []

structure ConfigurationData where
  manufacturer : String := ""
  model : String := ""
  serialNumber : Option String := none

structure Registration where
  nodeDefinition : List NodeDefinition := []
  icdVersion : Option String := none
  name : Option String := none
  shortName : Option String := none
  capabilities : List Capability := []
  statusInterval : Option Duration := none
  modeDefinition : List ModeDefinition := []
  configData : List ConfigurationData := []

structure Alert where
  alertId : Option String := none
  alertType : Option Int := none
  status : Option Int := none
  description : Option String := none
  locationOneof : Option LocationOneof := none
  regionId : Option String := none
  priority : Option Int := none
  ranking : Option F64 := none
  confidence : Option F64 := none

inductive Content where
  | detectionReport (report : DetectionReport)
  | statusReport (report : StatusReport)
  | registration (reg : Registration)
  | alert (alert : Alert)
  /-- Acknowledgements, tasks and errors. -/
  | unmapped

structure SapientMessage where
  timestamp : Option Timestamp := none
  nodeId : Option String := none
  content : Option Content := none

/-! The names of the enumerations. -/

def locationCoordinateSystems : List (Int × String) :=
  [(0, "LOCATION_COORDINATE_SYSTEM_UNSPECIFIED"), (1, "LOCATION_COORDINATE_SYSTEM_LAT_LNG_DEG_M"),
    (2, "LOCATION_COORDINATE_SYSTEM_LAT_LNG_RAD_M"), (5, "LOCATION_COORDINATE_SYSTEM_UTM_M")]

def powerSources : List (Int × String) :=
  [(0, "POWERSOURCE_UNSPECIFIED"), (1, "POWERSOURCE_OTHER"), (2, "POWERSOURCE_MAINS"), (3, "POWERSOURCE_INTERNAL_BATTERY"),
    (4, "POWERSOURCE_EXTERNAL_BATTERY"), (5, "POWERSOURCE_GENERATOR"), (6, "POWERSOURCE_SOLAR_PV"),
    (7, "POWERSOURCE_WIND_TURBINE"), (8, "POWERSOURCE_FUEL_CELL")]

def powerStatuses : List (Int × String) :=
  [(0, "POWERSTATUS_UNSPECIFIED"), (1, "POWERSTATUS_OK"), (2, "POWERSTATUS_FAULT")]

def statusTypes : List (Int × String) :=
  [(0, "STATUS_TYPE_UNSPECIFIED"), (1, "STATUS_TYPE_INTERNAL_FAULT"), (2, "STATUS_TYPE_EXTERNAL_FAULT"),
    (3, "STATUS_TYPE_ILLUMINATION"), (4, "STATUS_TYPE_WEATHER"), (5, "STATUS_TYPE_CLUTTER"), (6, "STATUS_TYPE_EXPOSURE"),
    (7, "STATUS_TYPE_MOTION_SENSITIVITY"), (8, "STATUS_TYPE_PTZ_STATUS"), (9, "STATUS_TYPE_PD"), (10, "STATUS_TYPE_FAR"),
    (11, "STATUS_TYPE_NOT_DETECTING"), (12, "STATUS_TYPE_PLATFORM"), (13, "STATUS_TYPE_OTHER")]

def statusLevels : List (Int × String) :=
  [(0, "STATUS_LEVEL_UNSPECIFIED"), (2, "STATUS_LEVEL_INFORMATION_STATUS"), (3, "STATUS_LEVEL_WARNING_STATUS"),
    (4, "STATUS_LEVEL_ERROR_STATUS")]

def nodeTypes : List (Int × String) :=
  [(0, "NODE_TYPE_UNSPECIFIED"), (1, "NODE_TYPE_OTHER"), (2, "NODE_TYPE_RADAR"), (3, "NODE_TYPE_LIDAR"),
    (4, "NODE_TYPE_CAMERA"), (5, "NODE_TYPE_SEISMIC"), (6, "NODE_TYPE_ACOUSTIC"), (7, "NODE_TYPE_PROXIMITY_SENSOR"),
    (8, "NODE_TYPE_PASSIVE_RF"), (9, "NODE_TYPE_HUMAN"), (10, "NODE_TYPE_CHEMICAL"), (11, "NODE_TYPE_BIOLOGICAL"),
    (12, "NODE_TYPE_RADIATION"), (13, "NODE_TYPE_KINETIC"), (14, "NODE_TYPE_JAMMER"), (15, "NODE_TYPE_CYBER"),
    (16, "NODE_TYPE_LDEW"), (17, "NODE_TYPE_RFDEW"), (18, "NODE_TYPE_MOBILE_NODE"), (19, "NODE_TYPE_POINTABLE_NODE"),
    (20, "NODE_TYPE_FUSION_NODE")]

def alertTypes : List (Int × String) :=
  [(0, "ALERT_TYPE_UNSPECIFIED"), (1, "ALERT_TYPE_INFORMATION"), (2, "ALERT_TYPE_WARNING"), (3, "ALERT_TYPE_CRITICAL"),
    (4, "ALERT_TYPE_ERROR"), (5, "ALERT_TYPE_FATAL"), (6, "ALERT_TYPE_MODE_CHANGE")]

def alertStatuses : List (Int × String) :=
  [(0, "ALERT_STATUS_UNSPECIFIED"), (1, "ALERT_STATUS_ACTIVE"), (2, "ALERT_STATUS_ACKNOWLEDGE"), (3, "ALERT_STATUS_REJECT"),
    (4, "ALERT_STATUS_IGNORE"), (5, "ALERT_STATUS_CLEAR")]

def discretePriorities : List (Int × String) :=
  [(0, "DISCRETE_PRIORITY_UNSPECIFIED"), (1, "DISCRETE_PRIORITY_LOW"), (2, "DISCRETE_PRIORITY_MEDIUM"),
    (3, "DISCRETE_PRIORITY_HIGH")]

/-- A protobuf enum name without its leading part. -/
def enumName (name : Option String) (leading : String) : String :=
  match name with
  | none => "UNSPECIFIED"
  | some n => (stripPrefix leading n).getD n

/-- The loop of `key_safe`: the characters so far, and whether the last one stands for a gap. -/
def keySafeLoop (out : List Char) (gap : Bool) : List Char → List Char
  | [] => out
  | c :: rest =>
    if c.isAlphanum then keySafeLoop (out ++ [c.toLower]) false rest
    else if !gap && !out.isEmpty then keySafeLoop (out ++ ['_']) true rest
    else keySafeLoop out gap rest

/-- A metadata key from free text: lower case, one underscore between words. -/
def keySafe (text : String) : String :=
  String.ofList ((keySafeLoop [] false text.toList).reverse.dropWhile (· == '_')).reverse

/-- What the code takes from the number and time libraries and from the ontology. -/
structure Platform extends Floats where
  sub : F64 → F64 → F64
  rem : F64 → F64 → F64
  sqrt : F64 → F64
  sin : F64 → F64
  cos : F64 → F64
  asin : F64 → F64
  atan2 : F64 → F64 → F64
  toDegrees : F64 → F64
  toRadians : F64 → F64
  rfc3339 : Timestamp → Option String
  toLowercase : String → String
  governs : String → String → Bool

/-- The entity type each kind of report becomes. -/
structure Types where
  detection : String := "sapient:detection"
  track : String := "sapient:track"
  sensorStatus : String := "sapient:sensor-status"
  alert : String := "sapient:alert"

/-- What the registration and status reports said about a node. -/
structure Node where
  name : Option String := none
  nodeType : Option String := none
  location : Option (F64 × F64 × F64) := none
  velocityKph : Bool := false

def maxNodes : Nat := 4096

structure SapientParser where
  sourceId : String
  hostility : Option String := none
  entityMap : String → Option String := fun _ => none
  types : Types := {}
  nodes : List (String × Node) := []
  unmapped : Nat := 0
  unlocated : Nat := 0
  registrations : Nat := 0

inductive SapientError where
  | decode
  | empty
  | build (error : BuildError)
  deriving DecidableEq

/-- What surrounds one call: the fresh id, the clock, and the place of the node that an overflowing table
    gives up. -/
structure Surroundings where
  newId : String
  now : String
  victim : Nat

end ReportModel
