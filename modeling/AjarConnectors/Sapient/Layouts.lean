import AjarConnectors.Builder.Crowding
import AjarConnectors.Sapient.ReportParser

namespace ReportProof

open ReportModel EventModel BuilderModel BuilderProof

section

variable (platform : Platform) (entityType : String)

/-- One entry of metadata if the type does not declare the name, else none. -/
def ungoverned (key : String) : Nat := (!platform.governs entityType key).toNat

theorem governed_tells (key value : String) :
    Tells ⟨[key], 1, ungoverned platform entityType key, []⟩ [governed platform entityType key value] := by
  rw [governed, ungoverned]
  cases platform.governs entityType key with
  | true => exact Tells.attr key value
  | false => exact ⟨List.Sublist.refl _, Nat.zero_le _, rfl, rfl, by simp [plain]⟩

theorem governed_optional {α : Type} (value : Option α) (key : String) (text : α → String) :
    Tells ⟨[key], 1, value.isSome.toNat * ungoverned platform entityType key, []⟩
      (ifGiven value fun v => [governed platform entityType key (text v)]) := by
  cases value with
  | none => exact (Tells.empty [key] 1).of_eq (by simp)
  | some v => exact (governed_tells platform entityType key (text v)).of_eq (by simp)

theorem confidence_tells (value : Option F64) :
    Tells {} (ifGiven (value.filter inUnit) fun c => [.confidence c]) := by
  cases kept : value.filter inUnit with
  | none => exact Tells.empty [] 0
  | some c =>
    have inside := (Option.filter_eq_some_iff.mp kept).2
    apply Tells.confidence
    rw [inUnit, F64.between] at inside
    rw [Rust.outsideUnit, inside]
    rfl

/-! Places. -/

def placeKeys (leading : String) : List String :=
  ["altitude_known", leading ++ "_x_error", leading ++ "_y_error", leading ++ "_x", leading ++ "_y", leading ++ "_z",
    leading ++ "_utm_zone", leading ++ "_coordinate_system"]

def placeEntries (loc : Location) : Nat :=
  if (wgs84 platform loc).isSome then loc.z.isNone.toNat + (loc.xError.isSome && loc.yError.isSome).toNat * 2
  else loc.x.isSome.toNat + loc.y.isSome.toNat + loc.z.isSome.toNat + loc.utmZone.isSome.toNat + 1

def spots (loc : Location) : List GeoPoint :=
  (wgs84 platform loc).toList.map fun place => ⟨place.1, place.2.1, place.2.2⟩

theorem wgs84_system {loc : Location} {place : F64 × F64 × F64} (found : wgs84 platform loc = some place) :
    loc.coordinateSystem = some 1 ∨ loc.coordinateSystem = some 2 := by
  rw [wgs84] at found
  split at found
  · rename_i system x y systemIs _ _
    by_cases degrees : system = 1
    · exact Or.inl (systemIs.trans (congrArg some degrees))
    · by_cases radians : system = 2
      · exact Or.inr (systemIs.trans (congrArg some radians))
      · simp [degrees, radians] at found
  · cases found

theorem wgs84_valid {loc : Location} {place : F64 × F64 × F64} (found : wgs84 platform loc = some place) :
    Rust.validLocation ⟨place.1, place.2.1, place.2.2⟩ = true := by
  simp only [wgs84] at found
  split at found
  · split at found
    · cases found
    · split at found
      · cases found
      · split at found
        · rename_i inside finite
          cases found
          simp only [Bool.or_eq_true, Bool.not_eq_true', not_or, Bool.not_eq_false, F64.between] at inside
          simp only [Rust.validLocation, finite, inside.1, inside.2, Bool.and_self]
        · cases found
  · cases found

/-- The entries of a place's error. -/
def placeErrors (loc : Location) (leading : String) : List Call :=
  match loc.xError, loc.yError with
  | some xe, some ye =>
    if loc.coordinateSystem = some 5 then
      [governed platform entityType "position_accuracy_h_m" (fixed platform (length platform xe ye) 1)]
    else [.metadata (leading ++ "_x_error") (fixed platform xe 6), .metadata (leading ++ "_y_error") (fixed platform ye 6)]
  | _, _ => []

theorem place_tells (loc : Location) (leading : String) :
    Tells ⟨placeKeys leading, 0, placeEntries platform loc, spots platform loc⟩
      (place platform entityType loc leading) := by
  rw [place, placeEntries, spots]
  cases found : wgs84 platform loc with
  | none =>
    have tells := (((((Tells.optional loc.x (leading ++ "_x") fun x => fixed platform x 3).append
      (Tells.optional loc.y (leading ++ "_y") fun y => fixed platform y 3)).append
      (Tells.optional loc.z (leading ++ "_z") fun z => fixed platform z 3)).append
      (Tells.optional loc.utmZone (leading ++ "_utm_zone") fun zone => zone)).append
      (Tells.metadatum (leading ++ "_coordinate_system")
        (enumName (loc.coordinateSystem.bind fun n => locationCoordinateSystems.lookup n) "LOCATION_COORDINATE_SYSTEM_")))
    exact tells.widen (((List.Sublist.refl _).cons _).cons _ |>.cons _)
  | some spot =>
    have notUtm : ¬ loc.coordinateSystem = some 5 := by
      rcases wgs84_system platform found with same | same <;> simp [same]
    have errors : Tells ⟨[leading ++ "_x_error", leading ++ "_y_error"], 0,
        (loc.xError.isSome && loc.yError.isSome).toNat * 2, []⟩ (placeErrors platform entityType loc leading) := by
      unfold placeErrors
      cases loc.xError with
      | none => exact Tells.empty _ 0
      | some xe =>
        cases loc.yError with
        | none => exact Tells.empty _ 0
        | some ye =>
          simp only [notUtm, if_false]
          exact (Tells.metadatum _ _).append (Tells.metadatum _ _)
    have tells := ((Tells.location spot.1 spot.2.1 spot.2.2).append
      (Tells.when loc.z.isNone (Tells.metadatum "altitude_known" "false"))).append errors
    have fits : (["altitude_known", leading ++ "_x_error", leading ++ "_y_error"] : List String).Sublist (placeKeys leading) :=
      (List.nil_sublist _).cons_cons _ |>.cons_cons _ |>.cons_cons _
    exact (tells.widen fits).of_eq (by simp [Layout.append])

/-- The azimuth in degrees. -/
def azimuthOf (rb : RangeBearing) : Option F64 :=
  rb.azimuth.map (platform.mul · (rangeBearingScale rb.coordinateSystem).1)

/-- The range in metres. -/
def rangeOf (rb : RangeBearing) : Option F64 :=
  rb.range.map (platform.mul · (rangeBearingScale rb.coordinateSystem).2)

/-- Where a range and bearing from a known place points. -/
def relativeSpot (nodeLocation : Option (F64 × F64 × F64)) (rb : RangeBearing) : Option GeoPoint :=
  match nodeLocation, azimuthOf platform rb, rangeOf platform rb with
  | some (lat0, lon0, alt0), some az, some r =>
    if rb.datum == some 1 && az.isFinite && r.isFinite && F64.le .zero r then
      let elevation := (rb.elevation.map (platform.mul · (rangeBearingScale rb.coordinateSystem).1)).getD .zero
      let angle := platform.toRadians elevation
      let place := destination platform lat0 lon0 az (platform.mul r (platform.cos angle))
      some ⟨place.1, place.2, platform.add alt0 (platform.mul r (platform.sin angle))⟩
    else none
  | _, _, _ => none

def relativeKeys : List String := ["bearing_deg", "range_m", "position_accuracy_h_m", "unlocated_reason"]

def relativeEntries (nodeLocation : Option (F64 × F64 × F64)) (rb : RangeBearing) : Nat :=
  ((azimuthOf platform rb).filter F64.isFinite).isSome.toNat + ((rangeOf platform rb).filter F64.isFinite).isSome.toNat +
    if (relativeSpot platform nodeLocation rb).isSome then
      rb.rangeError.isSome.toNat * ungoverned platform entityType "position_accuracy_h_m"
    else 1

theorem placeRelative_tells (nodeLocation : Option (F64 × F64 × F64)) (rb : RangeBearing) :
    Tells ⟨relativeKeys, 1, relativeEntries platform entityType nodeLocation rb,
      (relativeSpot platform nodeLocation rb).toList⟩ (placeRelative platform entityType nodeLocation rb).1 := by
  have told := (Tells.optional ((azimuthOf platform rb).filter F64.isFinite) "bearing_deg" fun a => fixed platform a 2).append
    (Tells.optional ((rangeOf platform rb).filter F64.isFinite) "range_m" fun r => fixed platform r 1)
  have lost (reason : String) : Tells ⟨relativeKeys, 1, _, []⟩ _ :=
    (((told.append (Tells.empty ["position_accuracy_h_m"] 1)).append
      (Tells.metadatum "unlocated_reason" reason)).of_eq rfl)
  simp only [List.append_nil] at lost
  rw [placeRelative, relativeEntries]
  unfold relativeSpot
  simp only [azimuthOf, rangeOf] at told lost ⊢
  generalize rb.azimuth.map (platform.mul · (rangeBearingScale rb.coordinateSystem).1) = azimuth at told lost ⊢
  generalize rb.range.map (platform.mul · (rangeBearingScale rb.coordinateSystem).2) = range at told lost ⊢
  cases nodeLocation with
  | none => exact lost _
  | some start =>
    cases azimuth with
    | none => exact lost _
    | some az =>
      cases range with
      | none => exact lost _
      | some r =>
        by_cases located : (rb.datum == some 1 && az.isFinite && r.isFinite && F64.le .zero r) = true
        · simp only [located, if_true, Option.isSome_some, Option.toList_some]
          have fits : (["bearing_deg", "range_m", "position_accuracy_h_m"] : List String).Sublist relativeKeys := by decide
          exact ((told.append (Tells.location _ _ _)).append
            (governed_optional platform entityType rb.rangeError "position_accuracy_h_m" fun re =>
              fixed platform (platform.mul re (rangeBearingScale rb.coordinateSystem).2) 1)).widen fits
        · simp only [located]
          exact lost _

/-- The places of either kind of position, or none. -/
def oneofSpots (nodeLocation : Option (F64 × F64 × F64)) : Option LocationOneof → List GeoPoint
  | some (.location loc) => spots platform loc
  | some (.rangeBearing rb) => (relativeSpot platform nodeLocation rb).toList
  | none => []

def oneofKeys : List String := placeKeys "location" ++ relativeKeys

def oneofEntries (nodeLocation : Option (F64 × F64 × F64)) : Option LocationOneof → Nat
  | some (.location loc) => placeEntries platform loc
  | some (.rangeBearing rb) => relativeEntries platform entityType nodeLocation rb
  | none => 0

theorem placeOneof_tells (nodeLocation : Option (F64 × F64 × F64)) (loc : Option LocationOneof) :
    Tells ⟨oneofKeys, 1, oneofEntries platform entityType nodeLocation loc, oneofSpots platform nodeLocation loc⟩
      (placeOneof platform entityType nodeLocation loc).1 := by
  cases loc with
  | none => exact Tells.empty oneofKeys 1
  | some loc =>
    cases loc with
    | location loc =>
      have tells := (place_tells platform entityType loc "location").append (Tells.empty relativeKeys 1)
      rw [List.append_nil] at tells
      exact tells.of_eq (by simp [Layout.append, oneofKeys, oneofEntries, oneofSpots])
    | rangeBearing rb =>
      exact (placeRelative_tells platform entityType nodeLocation rb).widen (List.sublist_append_right _ _)

/-! Detections. -/

def velocityEntries (node : Node) (v : EnuVelocity) : Nat :=
  (v.eastRate.isSome && v.northRate.isSome).toNat *
      (ungoverned platform entityType "speed" + ungoverned platform entityType "course") +
    v.upRate.isSome.toNat * ungoverned platform entityType "vertical_rate" + node.velocityKph.toNat

/-- The entries of a horizontal velocity. -/
def rateCalls (node : Node) (v : EnuVelocity) : List Call :=
  match v.eastRate, v.northRate with
  | some e, some n =>
    [governed platform entityType "speed"
        (fixed platform (length platform (platform.mul e (if node.velocityKph then ⟨0x3fd1c71c71c71c72⟩ else .one))
          (platform.mul n (if node.velocityKph then ⟨0x3fd1c71c71c71c72⟩ else .one))) 2),
      governed platform entityType "course" (fixed platform (platform.rem (platform.add (platform.toDegrees
        (platform.atan2 (platform.mul e (if node.velocityKph then ⟨0x3fd1c71c71c71c72⟩ else .one))
          (platform.mul n (if node.velocityKph then ⟨0x3fd1c71c71c71c72⟩ else .one)))) ⟨0x4076800000000000⟩)
        ⟨0x4076800000000000⟩) 1)]
  | _, _ => []

theorem velocity_tells (node : Node) (v : EnuVelocity) :
    Tells ⟨["speed", "course", "vertical_rate", "velocity_units"], 3, velocityEntries platform entityType node v, []⟩
      (Detection.velocity platform entityType node v) := by
  have rates : Tells ⟨["speed", "course"], 2, (v.eastRate.isSome && v.northRate.isSome).toNat *
      (ungoverned platform entityType "speed" + ungoverned platform entityType "course"), []⟩
      (rateCalls platform entityType node v) := by
    unfold rateCalls
    cases v.eastRate with
    | none => exact (Tells.empty ["speed", "course"] 2).of_eq (by simp)
    | some e =>
      cases v.northRate with
      | none => exact (Tells.empty ["speed", "course"] 2).of_eq (by simp)
      | some n =>
        exact ((governed_tells platform entityType "speed" _).append (governed_tells platform entityType "course" _)).of_eq
          (by simp [Layout.append])
  have tells := (rates.append (governed_optional platform entityType v.upRate "vertical_rate" fun up =>
      fixed platform (platform.mul up (if node.velocityKph then ⟨0x3fd1c71c71c71c72⟩ else .one)) 2)).append
    (Tells.when node.velocityKph (Tells.metadatum "velocity_units" "km/h"))
  exact tells.of_eq (by simp [Layout.append, velocityEntries])

def topEntries (top : String × Option F64) : Nat :=
  ungoverned platform entityType "sapient_classification" + ungoverned platform entityType "object_class" +
    top.2.isSome.toNat * ungoverned platform entityType "sapient_classification_confidence"

def openingKeys : List String :=
  ["source_uid", "object_id", "report_id", "task_id"] ++ oneofKeys ++
    ["speed", "course", "vertical_rate", "velocity_units", "sapient_classification", "object_class",
      "sapient_classification_confidence"]

def openingEntries (r : DetectionReport) (node : Node) : Nat :=
  2 + r.reportId.isSome.toNat + r.taskId.isSome.toNat + oneofEntries platform entityType node.location r.locationOneof +
    r.enuVelocity.elim 0 (velocityEntries platform entityType node) +
    (topClassification r.classification).elim 0 (topEntries platform entityType)

theorem detection_opening_tells (nodeId : String) (r : DetectionReport) (node : Node) :
    Tells ⟨openingKeys, 7, openingEntries platform entityType r node, oneofSpots platform node.location r.locationOneof⟩
      (Detection.opening platform entityType nodeId r node) := by
  have top (found : String × Option F64) :
      Tells ⟨["sapient_classification", "object_class", "sapient_classification_confidence"], 3,
        topEntries platform entityType found, []⟩
        ([governed platform entityType "sapient_classification" found.1, governed platform entityType "object_class" found.1] ++
          ifGiven found.2 fun c =>
            [governed platform entityType "sapient_classification_confidence" (fixed platform c 3)]) :=
    ((governed_tells platform entityType "sapient_classification" found.1).append
      (governed_tells platform entityType "object_class" found.1)).append
      (governed_optional platform entityType found.2 "sapient_classification_confidence" fun c => fixed platform c 3)
  have named := (Tells.metadatum "source_uid" (nodeId ++ ":" ++ r.objectId.getD "")).append
    (Tells.metadatum "object_id" (r.objectId.getD ""))
  have tells := ((((((named.append (Tells.optional r.reportId "report_id" fun id => id)).append
    (Tells.optional r.taskId "task_id" fun id => id)).append (confidence_tells r.detectionConfidence)).append
    (placeOneof_tells platform entityType node.location r.locationOneof)).append
    (Tells.ifGiven r.enuVelocity (velocity_tells platform entityType node))).append
    (Tells.ifGiven (topClassification r.classification) top))
  exact tells.of_eq (by simp [Layout.append, openingKeys, openingEntries])

def middleEntries (r : DetectionReport) : Nat :=
  (r.behaviour.findSome? id).isSome.toNat * ungoverned platform entityType "sapient_behaviour" +
    r.state.isSome.toNat * ungoverned platform entityType "sapient_state" + r.id.isSome.toNat + r.colour.isSome.toNat

theorem detection_middle_tells (r : DetectionReport) :
    Tells ⟨["sapient_behaviour", "sapient_state", "native_id", "colour"], 2, middleEntries platform entityType r, []⟩
      (Detection.middle platform entityType r) :=
  (((governed_optional platform entityType (r.behaviour.findSome? id) "sapient_behaviour" fun b => b).append
    (governed_optional platform entityType r.state "sapient_state" fun state => state)).append
    (Tells.optional r.id "native_id" fun id => id)).append (Tells.optional r.colour "colour" fun colour => colour)

theorem detection_closing_tells (node : Node) :
    Tells ⟨["node_name"], 0, node.name.isSome.toNat, []⟩ (Detection.closing node) :=
  Tells.optional node.name "node_name" fun name => name

end

theorem map_zipIdx {α β : Type} (f : α → β) (items : List α) :
    items.zipIdx.map (fun entry => f entry.1) = items.map f := by
  calc items.zipIdx.map (fun entry => f entry.1)
      = (items.zipIdx.map Prod.fst).map f := (List.map_map).symm
    _ = items.map f := by rw [List.zipIdx_map_fst]

theorem classifications_tells (r : DetectionReport) :
    Tells ⟨(r.classification.zipIdx.drop 1).flatMap fun entry => ["classification_" ++ toString entry.2], 0,
      ((r.classification.drop 1).map fun c => c.type.isSome.toNat).sum, []⟩ (Detection.classifications r) := by
  have tells := Tells.flatMap (r.classification.zipIdx.drop 1) fun entry =>
    Tells.optional entry.1.type ("classification_" ++ toString entry.2) fun t => t
  have counts : (r.classification.zipIdx.drop 1).map (fun entry => entry.1.type.isSome.toNat) =
      (r.classification.drop 1).map fun c => c.type.isSome.toNat := by
    rw [List.map_drop, map_zipIdx fun c : Classification => c.type.isSome.toNat, List.map_drop]
  rw [counts] at tells
  exact tells

/-- The key of an info that has a type and a value. -/
def infoKey (info : TrackObjectInfo) : Option String :=
  if info.value.isSome then info.type.map fun t => "info_" ++ keySafe t else none

def infoKeys (r : DetectionReport) : List String := (r.trackInfo ++ r.objectInfo).filterMap infoKey

/-- The entry of one piece of information. -/
def infoCalls (info : TrackObjectInfo) : List Call :=
  match info.type, info.value with
  | some t, some v => [.metadata ("info_" ++ keySafe t) v]
  | _, _ => []

theorem infos_tells (r : DetectionReport) : Tells ⟨infoKeys r, 0, (infoKeys r).length, []⟩ (Detection.infos r) := by
  unfold infoKeys Detection.infos
  induction r.trackInfo ++ r.objectInfo with
  | nil => exact Tells.empty [] 0
  | cons info rest ih =>
    have one : Tells ⟨(infoKey info).toList, 0, (infoKey info).toList.length, []⟩ (infoCalls info) := by
      unfold infoKey infoCalls
      cases info.type with
      | none => cases info.value <;> exact Tells.empty [] 0
      | some t =>
        cases info.value with
        | none => exact Tells.empty [] 0
        | some v => exact Tells.metadatum ("info_" ++ keySafe t) v
    have tells := one.append ih
    apply tells.of_eq
    cases found : infoKey info <;> simp [Layout.append, found, Nat.add_comm]

section

variable (platform : Platform) (entityType : String)

theorem signals_tells (r : DetectionReport) :
    Tells ⟨r.signal.zipIdx.flatMap fun entry =>
        ["signal_" ++ toString entry.2 ++ "_centre_frequency", "signal_" ++ toString entry.2 ++ "_amplitude"], 0,
      (r.signal.map fun s => s.centreFrequency.isSome.toNat + s.amplitude.isSome.toNat).sum, []⟩
      (Detection.signals platform r) := by
  have tells := Tells.flatMap r.signal.zipIdx fun entry =>
    (Tells.optional entry.1.centreFrequency ("signal_" ++ toString entry.2 ++ "_centre_frequency") fun f =>
      fixed platform f 1).append
      (Tells.optional entry.1.amplitude ("signal_" ++ toString entry.2 ++ "_amplitude") fun a => fixed platform a 1)
  rw [← map_zipIdx fun s : Signal => s.centreFrequency.isSome.toNat + s.amplitude.isSome.toNat]
  exact tells

theorem files_tells (r : DetectionReport) :
    Tells ⟨r.associatedFile.zipIdx.flatMap fun entry => ["file_" ++ toString entry.2 ++ "_url"], 0,
      (r.associatedFile.map fun url => url.isSome.toNat).sum, []⟩ (Detection.files r) := by
  have tells := Tells.flatMap r.associatedFile.zipIdx fun entry =>
    Tells.optional entry.1 ("file_" ++ toString entry.2 ++ "_url") fun url => url
  rw [← map_zipIdx fun url : Option String => url.isSome.toNat]
  exact tells

/-! Status reports. -/

theorem power_tells (power : Power) :
    ∃ count, Tells ⟨["sapient_power_level", "power_source", "power_status"], 1, count, []⟩
      (StatusOf.power platform entityType power) :=
  ⟨_, (governed_optional platform entityType _ "sapient_power_level" fun level : Int => toString level).append
    ((Tells.metadatum "power_source" _).append (Tells.metadatum "power_status" _))⟩

def statusOpeningKeys : List String :=
  ["source_uid", "report_id"] ++ placeKeys "node" ++
    ["sapient_system", "sapient_mode", "sapient_power_level", "power_source", "power_status", "active_task_id"]

theorem status_opening_tells (nodeId : String) (r : StatusReport) :
    ∃ count, Tells ⟨statusOpeningKeys, 3, count, (r.nodeLocation.map (spots platform)).getD []⟩
      (StatusOf.opening platform entityType nodeId r) := by
  have located : ∃ count, Tells ⟨placeKeys "node", 0, count, (r.nodeLocation.map (spots platform)).getD []⟩
      (ifGiven r.nodeLocation fun loc => place platform entityType loc "node") := by
    cases r.nodeLocation with
    | none => exact ⟨0, Tells.empty (placeKeys "node") 0⟩
    | some loc => exact ⟨_, place_tells platform entityType loc "node"⟩
  have powered : ∃ count, Tells ⟨["sapient_power_level", "power_source", "power_status"], 1, count, []⟩
      (ifGiven r.power (StatusOf.power platform entityType)) := by
    cases r.power with
    | none => exact ⟨0, Tells.empty _ 1⟩
    | some power => exact power_tells platform entityType power
  rcases located with ⟨places, located⟩
  rcases powered with ⟨powers, powered⟩
  have tells := (((((((Tells.metadatum "source_uid" nodeId).append
    (Tells.optional r.reportId "report_id" fun id => id)).append located).append
    (governed_optional platform entityType (r.system.bind StatusOf.systemName) "sapient_system" fun name => name)).append
    (governed_optional platform entityType r.mode "sapient_mode" fun mode => mode)).append powered).append
    (Tells.optional r.activeTaskId "active_task_id" fun task => task))
  exact ⟨_, tells.of_eq (by simp only [Layout.append, List.nil_append, List.append_nil]; rfl)⟩

theorem status_closing_tells (node : Node) :
    ∃ count, Tells ⟨["sapient_node_type", "node_name"], 1, count, []⟩ (StatusOf.closing platform entityType node) :=
  ⟨_, (governed_optional platform entityType node.nodeType "sapient_node_type" fun nt => nt).append
    (Tells.optional node.name "node_name" fun name => name)⟩

/-! Registrations. -/

def registrationOpeningKeys : List String :=
  ["source_uid", "sapient_message", "sapient_node_type", "node_name", "node_short_name", "icd_version", "update_interval_s"]

def registrationOpeningEntries (reg : Registration) : Nat :=
  2 + (RegistrationOf.nodeType reg).isSome.toNat * ungoverned platform entityType "sapient_node_type" +
    reg.name.isSome.toNat + reg.shortName.isSome.toNat + reg.icdVersion.isSome.toNat +
    (reg.statusInterval.bind (durationSeconds platform)).isSome.toNat * ungoverned platform entityType "update_interval_s"

theorem registration_opening_tells (nodeId : String) (reg : Registration) :
    Tells ⟨registrationOpeningKeys, 2, registrationOpeningEntries platform entityType reg, []⟩
      (RegistrationOf.opening platform entityType nodeId reg) := by
  have named := (Tells.metadatum "source_uid" nodeId).append (Tells.metadatum "sapient_message" "registration")
  have tells := ((((named.append
    (governed_optional platform entityType (RegistrationOf.nodeType reg) "sapient_node_type" fun nt => nt)).append
    (Tells.optional reg.name "node_name" fun name => name)).append
    (Tells.optional reg.shortName "node_short_name" fun short => short)).append
    (Tells.optional reg.icdVersion "icd_version" fun v => v)).append
    (governed_optional platform entityType (reg.statusInterval.bind (durationSeconds platform)) "update_interval_s"
      fun interval => fixed platform interval 1)
  exact tells.of_eq (by simp [Layout.append, registrationOpeningKeys, registrationOpeningEntries])

/-! Alerts. -/

def alertKeys : List String :=
  ["source_uid", "alert_id", "sapient_alert_type", "sapient_alert_status", "sapient_priority", "sapient_ranking",
    "description", "region_id"] ++ oneofKeys

theorem alertFields_tells (nodeId : String) (a : Alert) (node : Node) :
    ∃ count, Tells ⟨alertKeys, 5, count, oneofSpots platform node.location a.locationOneof⟩
      (alertFields platform entityType nodeId a node) := by
  have named := (Tells.metadatum "source_uid" (nodeId ++ ":" ++ a.alertId.getD "")).append
    (Tells.metadatum "alert_id" (a.alertId.getD ""))
  have graded := ((named.append
    (governed_optional platform entityType (specified alertTypes a.alertType) "sapient_alert_type" fun kind =>
      enumName (some kind) "ALERT_TYPE_")).append
    (governed_optional platform entityType (specified alertStatuses a.status) "sapient_alert_status" fun status =>
      enumName (some status) "ALERT_STATUS_")).append
    (governed_optional platform entityType (specified discretePriorities a.priority) "sapient_priority" fun priority =>
      enumName (some priority) "DISCRETE_PRIORITY_")
  have tells := ((((graded.append
    (governed_optional platform entityType (a.ranking.filter inUnit) "sapient_ranking" fun r => fixed platform r 3)).append
    (confidence_tells a.confidence)).append (Tells.optional a.description "description" fun d => d)).append
    (Tells.optional a.regionId "region_id" fun region => region)).append
    (placeOneof_tells platform entityType node.location a.locationOneof)
  exact ⟨_, tells.of_eq (by simp only [Layout.append, List.nil_append]; rfl)⟩

end

theorem statuses_tells (r : StatusReport) :
    Tells ⟨r.status.map fun s => "status_" ++ StatusOf.kind s, 0, r.status.length, []⟩ (StatusOf.statuses r) := by
  unfold StatusOf.statuses
  induction r.status with
  | nil => exact Tells.empty [] 0
  | cons s rest ih =>
    exact ((Tells.metadatum ("status_" ++ StatusOf.kind s) _).append ih).of_eq (by simp [Layout.append, Nat.add_comm])

theorem subTypes_tells (reg : Registration) :
    Tells ⟨(RegistrationOf.subTypes reg).map fun _ => "node_sub_type", 0, (RegistrationOf.subTypes reg).length, []⟩
      (RegistrationOf.subTypeCalls reg) := by
  unfold RegistrationOf.subTypeCalls
  induction RegistrationOf.subTypes reg with
  | nil => exact Tells.empty [] 0
  | cons sub rest ih =>
    exact ((Tells.metadatum "node_sub_type" sub).append ih).of_eq (by simp [Layout.append, Nat.add_comm])

theorem capabilities_tells (reg : Registration) :
    Tells ⟨reg.capabilities.zipIdx.flatMap fun entry => ["capability_" ++ toString entry.2], 0, reg.capabilities.length, []⟩
      (RegistrationOf.capabilities reg) := by
  have tells := Tells.flatMap reg.capabilities.zipIdx fun entry =>
    Tells.metadatum ("capability_" ++ toString entry.2)
      (String.intercalate " " ([entry.1.category, entry.1.type, entry.1.value, entry.1.units].filterMap id))
  rw [RegistrationOf.capabilities, List.map_eq_flatMap]
  exact tells.of_eq (by simp)

/-- The entries of the first configuration. -/
def registrationClosingEntries (reg : Registration) : Nat :=
  reg.configData.head?.elim 0 fun c =>
    (c.manufacturer != "").toNat + (c.model != "").toNat + c.serialNumber.isSome.toNat

theorem registration_closing_tells (reg : Registration) :
    Tells ⟨["manufacturer", "model", "serial_number"], 0, registrationClosingEntries reg, []⟩
      (RegistrationOf.closing reg) := by
  apply Tells.ifGiven
  intro c
  have made := Tells.when (c.manufacturer != "") (Tells.metadatum "manufacturer" c.manufacturer)
  have model := Tells.when (c.model != "") (Tells.metadatum "model" c.model)
  have tells := (made.append model).append (Tells.optional c.serialNumber "serial_number" fun serial => serial)
  simp only [bne_iff_ne] at tells
  exact tells.of_eq (by simp [Layout.append])

end ReportProof
