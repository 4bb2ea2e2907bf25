import AjarConnectors.Event.Floats
import AjarConnectors.Sapient.Reports
import AjarConnectors.SapientEgress.Mapper

namespace SapientEgressModel

open EventModel TextModel
open ReportModel (Timestamp EnuVelocity Classification TrackObjectInfo)

/-- What a report takes from the number and time libraries; `toF32` gives the double that the narrowed float stands for. -/
structure Platform extends Sphere where
  toF32 : F64 → F64
  parseRfc3339 : String → Option Timestamp

/-- The classes of the configuration, over those that come with the program. -/
structure Classes where
  classification : String → Option String
  defaultClassification : String

/-- A WGS-84 position in degrees and metres. -/
structure Position where
  x : F64
  y : F64
  z : F64
  coordinateSystem : Int := 1
  datum : Int := 1

structure DetectionReport where
  reportId : String
  objectId : String
  location : Position
  detectionConfidence : Option F64
  classification : Classification
  velocity : Option EnuVelocity
  id : String
  objectInfo : List TrackObjectInfo

structure DetectionMessage where
  timestamp : Timestamp
  nodeId : String
  report : DetectionReport

/-- The identifiers that one report draws, and the clock. -/
structure Draws where
  object : String
  report : String
  now : Timestamp

def attributeOf (event : Event) (key : String) : Option String :=
  (event.attributes.find? fun a => a.key = key).map Attribute.value

def metadataOf (event : Event) (key : String) : Option String :=
  (event.metadata.find? fun m => m.key = key).map Attribute.value

def info (kind value : String) : TrackObjectInfo := { type := some kind, value := some value }

/-- The native identifier of a track: its `source_uid`, else the event's own id. -/
def nativeOf (event : Event) : String := (metadataOf event "source_uid").getD event.id

def keyOf (event : Event) : String := event.sourceId ++ ":" ++ nativeOf event

section

variable (platform : Platform)

def number (text : Option String) : Option F64 := (text.bind fun s => platform.parse (trim s)).filter F64.isFinite

def velocityOf (event : Event) : Option EnuVelocity :=
  match number platform (attributeOf event "speed"), number platform (attributeOf event "course") with
  | some speed, some course =>
    if F64.le .zero speed then
      let c := platform.toRadians course
      some { eastRate := some (platform.mul speed (platform.sin c)), northRate := some (platform.mul speed (platform.cos c)),
             upRate := number platform (attributeOf event "vertical_rate") }
    else none
  | _, _ => none

def classOf (classes : Classes) (event : Event) : Classification where
  type := some ((((attributeOf event "sapient_classification").or (attributeOf event "object_class")).or
    (classes.classification event.entityType)).getD classes.defaultClassification)
  confidence := ((number platform (attributeOf event "sapient_classification_confidence")).filter
    (F64.between .zero .one)).map platform.toF32

/-- One detection report for a governed event, or nothing for an event without a position. -/
def Mapper.detection (classes : Classes) (nodeId : String) (m : Mapper) (draws : Draws) (event : Event) :
    Option DetectionMessage × Mapper :=
  match event.location with
  | none => (none, m)
  | some loc =>
    let (objectId, m) := m.objectId draws.object (keyOf event)
    (some
      { timestamp := (platform.parseRfc3339 event.timestamp).getD draws.now
        nodeId := nodeId
        report :=
          { reportId := draws.report
            objectId := objectId
            location := { x := loc.longitude, y := loc.latitude, z := loc.altitudeM }
            detectionConfidence :=
              if F64.lt .zero event.confidence && F64.le event.confidence .one then some (platform.toF32 event.confidence)
              else none
            classification := classOf platform classes event
            velocity := velocityOf platform event
            id := nativeOf event
            objectInfo := [info "Ajar Source" event.sourceId, info "Ajar Event" event.id, info "Ajar Type" event.entityType] ++
              ((attributeOf event "hostility").map (info "Hostility")).toList } }, m)

/-- The reports for a run of events, in their order. -/
def Mapper.detections (classes : Classes) (nodeId : String) (m : Mapper) : List (Draws × Event) → List (Option DetectionMessage)
  | [] => []
  | (draws, event) :: later =>
    let (message, m) := m.detection platform classes nodeId draws event
    message :: m.detections classes nodeId later

end

end SapientEgressModel
