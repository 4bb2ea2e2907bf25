import AjarConnectors.Sapient.Reports

namespace ReportModel

open EventModel TextModel BuilderModel

section

variable (platform : Platform)

/-- A number with fixed decimals; never prints a negative zero. -/
def fixed (value : F64) (decimals : Nat) : String :=
  let s := platform.fixed decimals value
  match s.toList with
  | '-' :: rest => if rest.all fun c => c == '0' || c == '.' then String.ofList rest else s
  | _ => s

/-- `GovernedAttribute::governed`: an attribute where the type declares the name, else metadata. -/
def governed (entityType key value : String) : Call :=
  if platform.governs entityType key then .attribute key value else .metadata key value

/-- A `Location` as WGS-84 degrees and metres, when its units say it is one. -/
def wgs84 (loc : Location) : Option (F64 × F64 × F64) :=
  match loc.coordinateSystem, loc.x, loc.y with
  | some system, some x, some y =>
    let read : Option (F64 × F64) :=
      if system = 1 then some (y, x)
      else if system = 2 then some (platform.toDegrees y, platform.toDegrees x)
      else none
    match read with
    | none => none
    | some (lat, lon) =>
      let alt := loc.z.getD .zero
      if !F64.between Rust.minusNinety Rust.ninety lat || !F64.between Rust.minusOneEighty Rust.oneEighty lon then none
      else if lat.isFinite && lon.isFinite && alt.isFinite then some (lat, lon, alt) else none
  | _, _, _ => none

def earthRadiusM : F64 := ⟨0x41584db033333333⟩

/-- The point at a distance along a bearing from a start, on a sphere of mean radius. -/
def destination (latDeg lonDeg bearingDeg distanceM : F64) : F64 × F64 :=
  let lat1 := platform.toRadians latDeg
  let lon1 := platform.toRadians lonDeg
  let brg := platform.toRadians bearingDeg
  let d := platform.div distanceM earthRadiusM
  let lat2 := platform.asin (platform.add (platform.mul (platform.sin lat1) (platform.cos d))
    (platform.mul (platform.mul (platform.cos lat1) (platform.sin d)) (platform.cos brg)))
  let lon2 := platform.add lon1 (platform.atan2
    (platform.mul (platform.mul (platform.sin brg) (platform.sin d)) (platform.cos lat1))
    (platform.sub (platform.cos d) (platform.mul (platform.sin lat1) (platform.sin lat2))))
  let lon2 := platform.sub (platform.rem (platform.add (platform.toDegrees lon2) ⟨0x4080e00000000000⟩) ⟨0x4076800000000000⟩)
    ⟨0x4066800000000000⟩
  (platform.toDegrees lat2, lon2)

/-- `(x * x + y * y).sqrt()`. -/
def length (x y : F64) : F64 := platform.sqrt (platform.add (platform.mul x x) (platform.mul y y))

def durationSeconds (d : Duration) : Option F64 :=
  match d.value, d.units with
  | some value, some units =>
    let scale : Option F64 :=
      if units = 1 then some ⟨0x3e112e0be826d695⟩
      else if units = 2 then some ⟨0x3eb0c6f7a0b5ed8d⟩
      else if units = 3 then some ⟨0x3f50624dd2f1a9fc⟩
      else if units = 4 then some .one
      else if units = 5 then some ⟨0x404e000000000000⟩
      else if units = 6 then some ⟨0x40ac200000000000⟩
      else if units = 7 then some ⟨0x40f5180000000000⟩
      else none
    (scale.map (platform.mul value)).filter fun s => s.isFinite && F64.le .zero s
  | _, _ => none

/-- `partial_cmp` with an incomparable pair taken as equal is `Greater`. -/
def ranksAbove (a b : String × Option F64) : Bool :=
  F64.lt (b.2.getD ⟨0xbff0000000000000⟩) (a.2.getD ⟨0xbff0000000000000⟩)

/-- The classification with the highest confidence, the last of several. -/
def topClassification (classes : List Classification) : Option (String × Option F64) :=
  (classes.filterMap fun c => c.type.map fun t => (t, c.confidence)).foldl
    (fun best next => match best with
      | none => some next
      | some best => if ranksAbove best next then some best else some next) none

namespace SapientParser

variable (p : SapientParser)

def node (nodeId : String) : Node := (p.nodes.lookup nodeId).getD {}

def updateNode (victim : Nat) (nodeId : String) (f : Node → Node) : SapientParser :=
  if (p.nodes.lookup nodeId).isSome then
    { p with nodes := p.nodes.map fun entry => if entry.1 = nodeId then (entry.1, f entry.2) else entry }
  else
    let kept := if maxNodes ≤ p.nodes.length then p.nodes.eraseIdx (victim % p.nodes.length) else p.nodes
    { p with nodes := kept ++ [(nodeId, f {})] }

/-- What every report tells the builder first. -/
def builder (around : Surroundings) (nodeId : String) (observed : Option String) (raw : Bytes) : List Call :=
  [.allowUnnamespacedEntityType, .id around.newId, .payload raw, .metadata "node_id" nodeId,
    .metadata "sapient_version" "BSI Flex 335 v2.0", .timestamp (observed.getD around.now)] ++
    ifGiven p.hostility (fun h => [.attribute "hostility" h])

end SapientParser

/-- A WGS-84 position from a `Location`, when its units say it is one. -/
def place (entityType : String) (loc : Location) (leading : String) : List Call :=
  match wgs84 platform loc with
  | some (lat, lon, alt) =>
    [.location lat lon alt] ++ (if loc.z.isNone then [.metadata "altitude_known" "false"] else []) ++
      match loc.xError, loc.yError with
      | some xe, some ye =>
        if loc.coordinateSystem = some 5 then
          [governed platform entityType "position_accuracy_h_m" (fixed platform (length platform xe ye) 1)]
        else
          [.metadata (leading ++ "_x_error") (fixed platform xe 6), .metadata (leading ++ "_y_error") (fixed platform ye 6)]
      | _, _ => []
  | none =>
    ifGiven loc.x (fun x => [.metadata (leading ++ "_x") (fixed platform x 3)]) ++
      ifGiven loc.y (fun y => [.metadata (leading ++ "_y") (fixed platform y 3)]) ++
      ifGiven loc.z (fun z => [.metadata (leading ++ "_z") (fixed platform z 3)]) ++
      ifGiven loc.utmZone (fun zone => [.metadata (leading ++ "_utm_zone") zone]) ++
      [.metadata (leading ++ "_coordinate_system")
        (enumName (loc.coordinateSystem.bind fun n => locationCoordinateSystems.lookup n) "LOCATION_COORDINATE_SYSTEM_")]

/-- The factors that turn a range and bearing into metres and degrees. -/
def rangeBearingScale (system : Option Int) : F64 × F64 :=
  if system = some 1 then (.one, .one)
  else if system = some 2 then (⟨0x404ca5dc1a63c1f8⟩, .one)
  else if system = some 3 then (.one, ⟨0x408f400000000000⟩)
  else if system = some 4 then (⟨0x404ca5dc1a63c1f8⟩, ⟨0x408f400000000000⟩)
  else (⟨0x7ff8000000000000⟩, ⟨0x7ff8000000000000⟩)

/-- A position from range and bearing, against the node's last position, and whether there is one. -/
def placeRelative (entityType : String) (nodeLocation : Option (F64 × F64 × F64)) (rb : RangeBearing) :
    List Call × Bool :=
  let (angleScale, rangeScale) := rangeBearingScale rb.coordinateSystem
  let azimuth := rb.azimuth.map (platform.mul · angleScale)
  let elevation := (rb.elevation.map (platform.mul · angleScale)).getD .zero
  let range := rb.range.map (platform.mul · rangeScale)
  let told :=
    ifGiven (azimuth.filter F64.isFinite) (fun a => [.metadata "bearing_deg" (fixed platform a 2)]) ++
      ifGiven (range.filter F64.isFinite) (fun r => [.metadata "range_m" (fixed platform r 1)])
  let trueNorth := rb.datum == some 1
  let unlocated (reason : String) : List Call × Bool := (told ++ [.metadata "unlocated_reason" reason], false)
  let reason :=
    if !trueNorth then "bearing datum is not true north"
    else if nodeLocation.isNone then "node position not yet reported"
    else "range or bearing missing"
  match nodeLocation, azimuth, range with
  | some (lat0, lon0, alt0), some az, some r =>
    if trueNorth && az.isFinite && r.isFinite && F64.le .zero r then
      let angle := platform.toRadians elevation
      let (lat, lon) := destination platform lat0 lon0 az (platform.mul r (platform.cos angle))
      let alt := platform.add alt0 (platform.mul r (platform.sin angle))
      (told ++ [.location lat lon alt] ++
        ifGiven rb.rangeError (fun re =>
          [governed platform entityType "position_accuracy_h_m" (fixed platform (platform.mul re rangeScale) 1)]), true)
    else unlocated reason
  | _, _, _ => unlocated reason

/-- Either kind of position, or none. -/
def placeOneof (entityType : String) (nodeLocation : Option (F64 × F64 × F64)) (loc : Option LocationOneof) :
    List Call × Bool :=
  match loc with
  | some (.location loc) => (place platform entityType loc "location", true)
  | some (.rangeBearing rb) => placeRelative platform entityType nodeLocation rb
  | none => ([], true)

/-- `(0.0..=1.0).contains(&c)`. -/
def inUnit (c : F64) : Bool := F64.between .zero .one c

namespace Detection

variable (entityType nodeId : String) (r : DetectionReport) (node : Node)

def velocity (v : EnuVelocity) : List Call :=
  let scale : F64 := if node.velocityKph then ⟨0x3fd1c71c71c71c72⟩ else .one
  (match v.eastRate, v.northRate with
    | some e, some n =>
      let e := platform.mul e scale
      let n := platform.mul n scale
      let course := platform.rem (platform.add (platform.toDegrees (platform.atan2 e n)) ⟨0x4076800000000000⟩)
        ⟨0x4076800000000000⟩
      [governed platform entityType "speed" (fixed platform (length platform e n) 2),
        governed platform entityType "course" (fixed platform course 1)]
    | _, _ => []) ++
    ifGiven v.upRate (fun up => [governed platform entityType "vertical_rate" (fixed platform (platform.mul up scale) 2)]) ++
    if node.velocityKph then [.metadata "velocity_units" "km/h"] else []

/-- The fields up to the classifications. -/
def opening : List Call :=
  let objectId := r.objectId.getD ""
  [.metadata "source_uid" (nodeId ++ ":" ++ objectId), .metadata "object_id" objectId] ++
    ifGiven r.reportId (fun id => [.metadata "report_id" id]) ++
    ifGiven r.taskId (fun id => [.metadata "task_id" id]) ++
    ifGiven (r.detectionConfidence.filter inUnit) (fun c => [.confidence c]) ++
    (placeOneof platform entityType node.location r.locationOneof).1 ++
    ifGiven r.enuVelocity (velocity platform entityType node) ++
    ifGiven (topClassification r.classification) (fun top =>
      [governed platform entityType "sapient_classification" top.1, governed platform entityType "object_class" top.1] ++
        ifGiven top.2 (fun c =>
          [governed platform entityType "sapient_classification_confidence" (fixed platform c 3)]))

/-- All classifications but the first, by their place. -/
def classifications : List Call :=
  (r.classification.zipIdx.drop 1).flatMap fun entry =>
    ifGiven entry.1.type (fun t => [.metadata ("classification_" ++ toString entry.2) t])

def middle : List Call :=
  ifGiven (r.behaviour.findSome? id) (fun b => [governed platform entityType "sapient_behaviour" b]) ++
    ifGiven r.state (fun state => [governed platform entityType "sapient_state" state]) ++
    ifGiven r.id (fun id => [.metadata "native_id" id]) ++
    ifGiven r.colour (fun colour => [.metadata "colour" colour])

def infos : List Call :=
  (r.trackInfo ++ r.objectInfo).flatMap fun info =>
    match info.type, info.value with
    | some t, some v => [.metadata ("info_" ++ keySafe t) v]
    | _, _ => []

def signals : List Call :=
  r.signal.zipIdx.flatMap fun entry =>
    ifGiven entry.1.centreFrequency (fun f =>
      [.metadata ("signal_" ++ toString entry.2 ++ "_centre_frequency") (fixed platform f 1)]) ++
      ifGiven entry.1.amplitude (fun a =>
        [.metadata ("signal_" ++ toString entry.2 ++ "_amplitude") (fixed platform a 1)])

def files : List Call :=
  r.associatedFile.zipIdx.flatMap fun entry =>
    ifGiven entry.1 (fun url => [.metadata ("file_" ++ toString entry.2 ++ "_url") url])

def closing : List Call := ifGiven node.name (fun name => [.metadata "node_name" name])

end Detection

/-- The entity type of a detection: by its class, else by whether the node follows the object. -/
def SapientParser.detectionType (p : SapientParser) (r : DetectionReport) : String :=
  ((topClassification r.classification).bind fun top => p.entityMap (platform.toLowercase top.1)).getD
    (if r.trackInfo.isEmpty then p.types.detection else p.types.track)

def SapientParser.detection (p : SapientParser) (around : Surroundings) (nodeId : String) (r : DetectionReport)
    (observed : Option String) (raw : Bytes) : String × List Call :=
  let entityType := p.detectionType platform r
  let node := p.node nodeId
  (entityType, p.builder around nodeId observed raw ++ Detection.opening platform entityType nodeId r node ++
    Detection.classifications r ++ Detection.middle platform entityType r ++ Detection.infos r ++
    Detection.signals platform r ++ Detection.files r ++ Detection.closing node)

namespace StatusOf

variable (entityType nodeId : String) (r : StatusReport) (node : Node)

def systemName (system : Int) : Option String :=
  if system = 1 then some "OK" else if system = 2 then some "WARNING" else if system = 3 then some "ERROR"
  else if system = 5 then some "GOODBYE" else none

def power (power : Power) : List Call :=
  ifGiven (power.level.filter fun level => 0 ≤ level ∧ level ≤ 100) (fun level =>
    [governed platform entityType "sapient_power_level" (toString level)]) ++
    [.metadata "power_source" (enumName (powerSources.lookup power.source) "POWERSOURCE_"),
      .metadata "power_status" (enumName (powerStatuses.lookup power.status) "POWERSTATUS_")]

def opening : List Call :=
  [.metadata "source_uid" nodeId] ++
    ifGiven r.reportId (fun id => [.metadata "report_id" id]) ++
    ifGiven r.nodeLocation (fun loc => place platform entityType loc "node") ++
    ifGiven (r.system.bind systemName) (fun name => [governed platform entityType "sapient_system" name]) ++
    ifGiven r.mode (fun mode => [governed platform entityType "sapient_mode" mode]) ++
    ifGiven r.power (power platform entityType) ++
    ifGiven r.activeTaskId (fun task => [.metadata "active_task_id" task])

/-- The name of a status type, as it ends the key. -/
def kind (s : Status) : String :=
  toAsciiLowercase (enumName (s.statusType.bind fun n => statusTypes.lookup n) "STATUS_TYPE_")

def statuses : List Call :=
  r.status.map fun s =>
    .metadata ("status_" ++ kind s)
      (enumName (s.statusLevel.bind fun n => statusLevels.lookup n) "STATUS_LEVEL_" ++ ": " ++ s.statusValue.getD "")

def closing : List Call :=
  ifGiven node.nodeType (fun nt => [governed platform entityType "sapient_node_type" nt]) ++
    ifGiven node.name (fun name => [.metadata "node_name" name])

end StatusOf

/-- The parser after a status report has told the node's position. -/
def SapientParser.locate (p : SapientParser) (around : Surroundings) (nodeId : String) (r : StatusReport) : SapientParser :=
  match r.nodeLocation.bind (wgs84 platform) with
  | some pos => p.updateNode around.victim nodeId fun n => { n with location := some pos }
  | none => p

def SapientParser.status (p : SapientParser) (around : Surroundings) (nodeId : String) (r : StatusReport)
    (observed : Option String) (raw : Bytes) : String × List Call :=
  let entityType := p.types.sensorStatus
  let node := p.node nodeId
  (entityType, p.builder around nodeId observed raw ++ StatusOf.opening platform entityType nodeId r ++
    StatusOf.statuses r ++ StatusOf.closing platform entityType node)

namespace RegistrationOf

variable (entityType nodeId : String) (reg : Registration)

def nodeType : Option String :=
  ((reg.nodeDefinition.head?.bind NodeDefinition.nodeType).bind fun n => nodeTypes.lookup n).map fun name =>
    enumName (some name) "NODE_TYPE_"

def velocityKph : Bool :=
  reg.modeDefinition.any fun m => m.detectionDefinition.any fun d => d.enuVelocityUnits.any (· == some 2)

def opening : List Call :=
  [.metadata "source_uid" nodeId, .metadata "sapient_message" "registration"] ++
    ifGiven (nodeType reg) (fun nt => [governed platform entityType "sapient_node_type" nt]) ++
    ifGiven reg.name (fun name => [.metadata "node_name" name]) ++
    ifGiven reg.shortName (fun short => [.metadata "node_short_name" short]) ++
    ifGiven reg.icdVersion (fun v => [.metadata "icd_version" v]) ++
    ifGiven (reg.statusInterval.bind (durationSeconds platform)) (fun interval =>
      [governed platform entityType "update_interval_s" (fixed platform interval 1)])

def subTypes : List String := reg.nodeDefinition.flatMap NodeDefinition.nodeSubType

def subTypeCalls : List Call := (subTypes reg).map (.metadata "node_sub_type")

def capabilities : List Call :=
  reg.capabilities.zipIdx.map fun entry =>
    .metadata ("capability_" ++ toString entry.2)
      (String.intercalate " " ([entry.1.category, entry.1.type, entry.1.value, entry.1.units].filterMap id))

def closing : List Call :=
  ifGiven reg.configData.head? (fun c =>
    (if c.manufacturer ≠ "" then [.metadata "manufacturer" c.manufacturer] else []) ++
      (if c.model ≠ "" then [.metadata "model" c.model] else []) ++
      ifGiven c.serialNumber (fun serial => [.metadata "serial_number" serial]))

end RegistrationOf

/-- The parser after a registration has described the node. -/
def SapientParser.describe (p : SapientParser) (around : Surroundings) (nodeId : String) (reg : Registration) :
    SapientParser :=
  p.updateNode around.victim nodeId fun n => { n with
    name := reg.name, nodeType := RegistrationOf.nodeType reg, velocityKph := RegistrationOf.velocityKph reg }

def SapientParser.registration (p : SapientParser) (around : Surroundings) (nodeId : String) (reg : Registration)
    (observed : Option String) (raw : Bytes) : String × List Call :=
  let entityType := p.types.sensorStatus
  (entityType, p.builder around nodeId observed raw ++ RegistrationOf.opening platform entityType nodeId reg ++
    RegistrationOf.subTypeCalls reg ++ RegistrationOf.capabilities reg ++ RegistrationOf.closing reg)

/-- An enumeration with a name other than its zero. -/
def specified (names : List (Int × String)) (value : Option Int) : Option String :=
  (value.filter (· ≠ 0)).bind fun n => names.lookup n

def alertFields (entityType nodeId : String) (a : Alert) (node : Node) : List Call :=
  let alertId := a.alertId.getD ""
  [.metadata "source_uid" (nodeId ++ ":" ++ alertId), .metadata "alert_id" alertId] ++
    ifGiven (specified alertTypes a.alertType) (fun kind =>
      [governed platform entityType "sapient_alert_type" (enumName (some kind) "ALERT_TYPE_")]) ++
    ifGiven (specified alertStatuses a.status) (fun status =>
      [governed platform entityType "sapient_alert_status" (enumName (some status) "ALERT_STATUS_")]) ++
    ifGiven (specified discretePriorities a.priority) (fun priority =>
      [governed platform entityType "sapient_priority" (enumName (some priority) "DISCRETE_PRIORITY_")]) ++
    ifGiven (a.ranking.filter inUnit) (fun r => [governed platform entityType "sapient_ranking" (fixed platform r 3)]) ++
    ifGiven (a.confidence.filter inUnit) (fun c => [.confidence c]) ++
    ifGiven a.description (fun d => [.metadata "description" d]) ++
    ifGiven a.regionId (fun region => [.metadata "region_id" region]) ++
    (placeOneof platform entityType node.location a.locationOneof).1

def SapientParser.alert (p : SapientParser) (around : Surroundings) (nodeId : String) (a : Alert)
    (observed : Option String) (raw : Bytes) : String × List Call :=
  let entityType := p.types.alert
  (entityType, p.builder around nodeId observed raw ++ alertFields platform entityType nodeId a (p.node nodeId))

/-- The parser after the message is counted and its node updated, and what the builder is told of it. -/
def SapientParser.take (p : SapientParser) (around : Surroundings) (nodeId : String) (observed : Option String) (raw : Bytes) :
    Content → SapientParser × Option (String × List Call)
  | .detectionReport r =>
    let located := (placeOneof platform (p.detectionType platform r) (p.node nodeId).location r.locationOneof).2
    ({ p with unlocated := if located then p.unlocated else p.unlocated + 1 },
      some (p.detection platform around nodeId r observed raw))
  | .statusReport r =>
    let p := p.locate platform around nodeId r
    (p, some (p.status platform around nodeId r observed raw))
  | .registration reg =>
    let p := ({ p with registrations := p.registrations + 1 } : SapientParser).describe around nodeId reg
    (p, some (p.registration platform around nodeId reg observed raw))
  | .alert a =>
    let located := (placeOneof platform p.types.alert (p.node nodeId).location a.locationOneof).2
    ({ p with unlocated := if located then p.unlocated else p.unlocated + 1 },
      some (p.alert platform around nodeId a observed raw))
  | .unmapped => ({ p with unmapped := p.unmapped + 1 }, none)

/-- Decode one message and build its event, if its kind publishes one. -/
def SapientParser.parseMessage (p : SapientParser) (decode : Bytes → Option SapientMessage) (around : Surroundings)
    (frame : Bytes) : SapientParser × Except SapientError (Option Event) :=
  match decode frame with
  | none => (p, .error .decode)
  | some message =>
    match message.content with
    | none => (p, .error .empty)
    | some content =>
      match p.take platform around (message.nodeId.getD "") (message.timestamp.bind platform.rfc3339) frame content with
      | (p, none) => (p, .ok none)
      | (p, some (entityType, calls)) =>
        match Rust.run p.sourceId entityType calls with
        | .error e => (p, .error (.build e))
        | .ok event => (p, .ok (some event))

end

end ReportModel
