import Mathlib.Data.List.Forall2
import Mathlib.Data.Nat.Digits.Defs
import AjarConnectors.Asterix.Total
import AjarConnectors.Builder.Optional

namespace AsterixModel

open EventModel BuilderModel

/-- What the events take from the platform and the ontology. -/
structure Platform extends Sphere where
  hypot : F64 → F64 → F64
  governs : String → String → Bool

/-- What an event takes from its surroundings: a fresh id and the time of day. -/
structure Draw where
  newId : String
  now : String

/-- The parser with the labels of its events. -/
structure Publisher extends AsterixParser where
  sourceId : String
  hostility : Option String := none
  cat010Type : Option String := none
  cat034Type : Option String := none
  surfaceDomain : Option String := none
  testTargets : Nat := 0

inductive ParseError where
  | datagram (e : AsterixError)
  | build (e : BuildError)

def hexDigit (d : Nat) : Char := "0123456789ABCDEF".toList.getD d '0'

/-- `{:06X}`. -/
def hex06 (n : Nat) : String := String.ofList ((((Nat.digits 16 n).rightpad 6 0).map hexDigit).reverse)

namespace TrackReport

/-- The site and category that a track number is scoped by. -/
def site (t : TrackReport) : String :=
  toString t.category.toNat ++ ":" ++ toString t.sac.toNat ++ ":" ++ toString t.sic.toNat

/-- The uid of what a report is about, and the identity it is known by. -/
def sourceUid (t : TrackReport) : String × Option (String × String) :=
  match t.icao, t.track with
  | some icao, _ => ("icao:" ++ hex06 icao, some ("ICAO24", hex06 icao))
  | none, some track =>
    ("asterix:" ++ (t.site ++ ":" ++ toString track), some ("ASTERIX", t.site ++ ":" ++ toString track))
  | none, none => ("asterix:" ++ t.site, none)

/-- A report that is counted and not published. -/
def isTest (t : TrackReport) : Bool := t.simulated || t.testTarget || t.fieldMonitor

def place (floats : Sphere) (t : TrackReport) : Option GeoPoint :=
  match t.lat, t.lon with
  | some lat, some lon => some ⟨lat, lon, (t.altFt.map fun ft => floats.mul ft ftToM).getD .zero⟩
  | _, _ => none

end TrackReport

namespace ServiceReport

/-- A north marker (the once-per-rotation heartbeat) or a jamming strobe. -/
def isPublished (r : ServiceReport) : Bool :=
  r.messageType = Cat034.northMarker || r.messageType = Cat034.jammingStrobe ||
    r.messageType = Cat034.ssrJammingStrobe || r.messageType = Cat034.modeSJammingStrobe

def messageName (r : ServiceReport) : String :=
  match r.messageType with
  | 1 => "north-marker"
  | 2 => "sector-crossing"
  | 3 => "geographical-filtering"
  | 4 => "jamming-strobe"
  | 5 => "solar-storm"
  | 6 => "ssr-jamming-strobe"
  | 7 => "mode-s-jamming-strobe"
  | _ => "unknown"

end ServiceReport

def entityTypeOf (p : Publisher) (t : TrackReport) : String :=
  if t.category ≠ 10 then "mim:aircraft"
  else match p.cat010Type with
    | some ty => ty
    | none =>
      if t.vehicleFleet.isSome then "mim:land-vehicle"
      else if t.icao.isSome || t.callsign.isSome then "mim:aircraft"
      else "mim:object"

section

variable (platform : Platform)

def governed (entityType key value : String) : BuilderModel.Call :=
  if platform.governs entityType key then .attribute key value else .metadata key value

/-- A zero sigma is a field the sender left blank. -/
def sigma (key : String) (v : F64) : List BuilderModel.Call :=
  if F64.zero.lt v then [.attribute key (platform.fixed 2 v)] else []

/-- The place of a report, else where it is from the sensor. -/
def placeCalls (t : TrackReport) : List BuilderModel.Call :=
  match t.place platform.toSphere with
  | some g => [.location g.latitude g.longitude g.altitudeM]
  | none => match t.polar with
    | some (rho, theta) =>
      [.metadata "range_nm" (platform.fixed 3 rho)] ++ [.metadata "azimuth_deg" (platform.fixed 3 theta)]
    | none => ifGiven t.cartesianM fun xy =>
      [.metadata "x_m" (platform.fixed 0 xy.1)] ++ [.metadata "y_m" (platform.fixed 0 xy.2)]

def targetBuilder (p : Publisher) (id : String) (t : TrackReport) : List BuilderModel.Call :=
  [.id id] ++ [.payload t.raw] ++ [.metadata "source_uid" t.sourceUid.1] ++
  [.metadata "asterix_category" (toString t.category.toNat)] ++
  ifGiven t.sourceUid.2 (fun known => identity known.1 known.2) ++
  ifGiven t.positionSdM (fun sd => [.metadata "position_sd_x_m" (platform.fixed 2 sd.1)] ++
    [.metadata "position_sd_y_m" (platform.fixed 2 sd.2)] ++
    sigma platform "position_accuracy_h_m" (platform.hypot sd.1 sd.2)) ++
  ifGiven t.accuracyVM (fun v => if t.altFt.isSome then sigma platform "position_accuracy_v_m" v else []) ++
  ifGiven t.velocitySdMps (fun sd => sigma platform "speed_accuracy" (platform.hypot sd.1 sd.2)) ++
  -- governed on the untyped class alone
  ifGiven p.surfaceDomain (fun env => [governed platform (entityTypeOf p t) "environment" env]) ++
  placeCalls platform t ++
  ifGiven t.size (fun size => [.metadata "target_length_m" (platform.fixed 0 size.1)] ++
    ifGiven size.2.1 (fun w => [.metadata "target_width_m" (platform.fixed 0 w)]) ++
    ifGiven size.2.2 (fun o => [.metadata "target_orientation_deg" (platform.fixed 1 o)])) ++
  ifGiven t.reportType (fun rt => [.metadata "report_type" rt]) ++
  ifGiven t.vehicleFleet (fun fleet => [.metadata "vehicle_fleet" fleet]) ++
  ifGiven t.altFt (fun ft => [.metadata "altitude_ft" (platform.fixed 0 ft)]) ++
  ifGiven t.timeOfDayS (fun tod => [.metadata "time_of_day_s" (platform.fixed 3 tod)]) ++
  ifGiven p.hostility (fun aff => [.attribute "hostility" aff]) ++
  ifGiven t.groundSpeedKn (fun kn => [.attribute "speed" (platform.fixed 2 (platform.mul kn knotsToMps))] ++
    [.metadata "speed_kn" (platform.fixed 1 kn)]) ++
  ifGiven t.trackAngleDeg (fun deg => [.attribute "course" (platform.fixed 1 deg)]) ++
  ifGiven t.verticalRateFtmin (fun ftmin =>
    [.attribute "vertical_rate" (platform.fixed 1 (platform.div (platform.mul ftmin ftToM) ⟨0x404e000000000000⟩))] ++
    [.metadata "vertical_rate_ftmin" (platform.fixed 0 ftmin)]) ++
  -- governed on aircraft
  ifGiven t.squawk (fun sq => [governed platform (entityTypeOf p t) "squawk" sq]) ++
  ifGiven t.callsign (fun cs => [.attribute "callsign" cs]) ++
  ifGiven t.emitter (fun cat => [.metadata "emitter_category" cat])

/-- The position a radar reports, else its configured site. -/
def radarPlace (p : Publisher) (r : ServiceReport) : Option GeoPoint :=
  match r.position with
  | some (lat, lon, h) => some ⟨lat, lon, h⟩
  | none => p.sensor.map fun s => ⟨s.lat, s.lon, s.altM⟩

def Publisher.radarType (p : Publisher) : String := p.cat034Type.getD "mim:sensor"

def flagCalls (key : String) (value : Option Bool) : List BuilderModel.Call :=
  ifGiven value fun v => [.metadata key (if v then "true" else "false")]

/-- What only a north marker says of the radar. -/
def ifNorthMarker (r : ServiceReport) (calls : List BuilderModel.Call) : List BuilderModel.Call :=
  if r.messageType = Cat034.northMarker then calls else []

def serviceBuilder (p : Publisher) (id : String) (r : ServiceReport) : List BuilderModel.Call :=
  [.id id] ++ [.payload r.raw] ++
  [.metadata "source_uid" ("asterix:radar:" ++ (toString r.sac.toNat ++ ":" ++ toString r.sic.toNat))] ++
  [.metadata "asterix_category" "34"] ++ [.metadata "message_type" r.messageName] ++
  identity "ASTERIX" (toString r.sac.toNat ++ ":" ++ toString r.sic.toNat) ++
  ((radarPlace p r).toList.map fun g => .location g.latitude g.longitude g.altitudeM) ++
  ifGiven p.hostility (fun aff => [.attribute "hostility" aff]) ++
  ifGiven r.timeOfDayS (fun tod => [.metadata "time_of_day_s" (platform.fixed 3 tod)]) ++
  ifGiven r.rotationPeriodS (fun period =>
    [governed platform p.radarType "scan_period_s" (platform.fixed 3 period)] ++
    [.metadata "rotation_period_s" (platform.fixed 3 period)] ++
    ifNorthMarker r [governed platform p.radarType "update_interval_s" (platform.fixed 3 period)]) ++
  ifGiven r.sector (fun sec => [.metadata "sector" (toString sec.toNat)]) ++
  ifGiven r.window (fun w =>
    ifNorthMarker r ([governed platform p.radarType "coverage_bearing_start_deg" (platform.fixed 3 w.2.2.1)] ++
      [governed platform p.radarType "coverage_bearing_end_deg" (platform.fixed 3 w.2.2.2)] ++
      [governed platform p.radarType "detection_range_m" (platform.fixed 0 (platform.mul w.2.1 nmToM))]) ++
    [.metadata "window_range_start_nm" (platform.fixed 3 w.1)] ++
    [.metadata "window_range_end_nm" (platform.fixed 3 w.2.1)] ++
    [.metadata "window_azimuth_start_deg" (platform.fixed 3 w.2.2.1)] ++
    [.metadata "window_azimuth_end_deg" (platform.fixed 3 w.2.2.2)]) ++
  flagCalls "nogo" r.status.nogo ++ flagCalls "rdp_overload" r.status.rdpOverload ++
  flagCalls "xmt_overload" r.status.xmtOverload ++
  flagCalls "monitoring_disconnected" r.status.monitoringDisconnected ++
  flagCalls "time_source_invalid" r.status.timeSourceInvalid ++ flagCalls "psr_overload" r.status.psrOverload ++
  flagCalls "ssr_overload" r.status.ssrOverload ++ flagCalls "mds_overload" r.status.mdsOverload

/-- What becomes an event. -/
inductive Subject where
  | radar (r : ServiceReport)
  | track (t : TrackReport)

namespace Subject

def entityType (p : Publisher) : Subject → String
  | .radar _ => p.radarType
  | .track t => entityTypeOf p t

def calls (p : Publisher) (id : String) : Subject → List BuilderModel.Call
  | .radar r => serviceBuilder platform p id r
  | .track t => targetBuilder platform p id t

def place (p : Publisher) : Subject → Option GeoPoint
  | .radar r => radarPlace p r
  | .track t => t.place platform.toSphere

def raw : Subject → Bytes
  | .radar r => r.raw
  | .track t => t.raw

def uid : Subject → String
  | .radar r => "asterix:radar:" ++ (toString r.sac.toNat ++ ":" ++ toString r.sic.toNat)
  | .track t => t.sourceUid.1

/-- The place, if there is one, is on the globe. -/
def Valid (p : Publisher) (s : Subject) : Prop := ∀ g ∈ s.place platform p, Rust.validLocation g = true

def build (p : Publisher) (draw : Draw) (s : Subject) : Except BuildError Event :=
  Rust.run p.sourceId (s.entityType p) (s.calls platform p draw.newId ++ [.timestamp draw.now])

end Subject

namespace Publisher

/-- The loop over the reports; each event draws an id and the time. -/
def publishReports (p : Publisher) (draws : Nat → Draw) :
    List ServiceReport → List Event → Except BuildError (List Event)
  | [], events => .ok events
  | r :: reports, events =>
    if r.isPublished then
      match (Subject.radar r).build platform p (draws events.length) with
      | .error e => .error e
      | .ok event => publishReports p draws reports (events ++ [event])
    else publishReports p draws reports events

/-- The loop over the targets, with the count of those not published. -/
def publishTargets (p : Publisher) (draws : Nat → Draw) :
    List TrackReport → List Event → Nat → Nat × Except BuildError (List Event)
  | [], events, tests => (tests, .ok events)
  | t :: targets, events, tests =>
    if t.isTest then publishTargets p draws targets events (tests + 1)
    else match (Subject.track t).build platform p (draws events.length) with
      | .error e => (tests, .error e)
      | .ok event => publishTargets p draws targets (events ++ [event]) tests

/-- The events of a datagram; nothing where an index is out of range. -/
def parse (p : Publisher) (draws : Nat → Draw) (frame : Bytes) : Option (Publisher × Except ParseError (List Event)) :=
  match p.toAsterixParser.parseDatagramChecked platform.toSphere frame with
  | none => none
  | some (q, .error e) => some ({ p with toAsterixParser := q }, .error (.datagram e))
  | some (q, .ok (targets, reports)) =>
    match publishReports platform { p with toAsterixParser := q } draws reports [] with
    | .error e => some ({ p with toAsterixParser := q }, .error (.build e))
    | .ok events => match publishTargets platform { p with toAsterixParser := q } draws targets events p.testTargets with
      | (tests, .error e) => some ({ p with toAsterixParser := q, testTargets := tests }, .error (.build e))
      | (tests, .ok events) => some ({ p with toAsterixParser := q, testTargets := tests }, .ok events)

/-- The labels are ones the builder takes. -/
structure Labelled (p : Publisher) : Prop where
  source : p.sourceId ≠ ""
  cat010 : ∀ ty ∈ p.cat010Type, Rust.isNamespaced ty = true
  cat034 : ∀ ty ∈ p.cat034Type, Rust.isNamespaced ty = true

end Publisher

/-- What is published of the targets and reports of a datagram, in order. -/
def subjects (targets : List TrackReport) (reports : List ServiceReport) : List Subject :=
  (reports.filter ServiceReport.isPublished).map .radar ++ (targets.filter fun t => !t.isTest).map .track

/-- The event of a subject: its record as payload, its place, and exactly the entries that the builder was given. -/
structure Announces (p : Publisher) (draw : Draw) (s : Subject) (event : Event) : Prop where
  id : event.id = draw.newId
  timestamp : event.timestamp = draw.now
  sourceId : event.sourceId = p.sourceId
  entityType : event.entityType = s.entityType p
  location : event.location = s.place platform p
  payload : event.payload = s.raw
  uid : ∀ value, ⟨"source_uid", value⟩ ∈ event.metadata ↔ value = s.uid
  attributes : ∀ key value, ⟨key, value⟩ ∈ event.attributes ↔ .attribute key value ∈ s.calls platform p draw.newId
  metadata : ∀ key value, ⟨key, value⟩ ∈ event.metadata ↔ .metadata key value ∈ s.calls platform p draw.newId

end

end AsterixModel

namespace AsterixProof

open EventModel BuilderModel BuilderProof AsterixModel

section

variable (platform : Platform)

theorem governed_fits (entityType key value : String) :
    Fits { attributes := [key], metadata := [key] } [governed platform entityType key value] := by
  unfold governed
  split
  · exact ⟨List.Sublist.refl _, List.nil_sublist _, rfl, rfl, rfl, rfl, rfl, rfl⟩
  · exact ⟨List.nil_sublist _, List.Sublist.refl _, rfl, rfl, rfl, rfl, rfl, rfl⟩

theorem sigma_fits (key : String) (v : F64) : Fits { attributes := [key] } (sigma platform key v) :=
  Fits.when (Fits.attr key _)

theorem text_fits {α : Type} (key : String) (value : Option α) (text : α → String) :
    Fits { metadata := [key] } (ifGiven value fun v => [.metadata key (text v)]) :=
  Fits.ifGiven value fun _ => Fits.metadatum key _

theorem place_fits (t : TrackReport) :
    Fits { metadata := ["range_nm", "azimuth_deg", "x_m", "y_m"], places := (t.place platform.toSphere).toList }
      (placeCalls platform t) := by
  unfold placeCalls
  cases t.place platform.toSphere with
  | some g => exact ⟨List.nil_sublist _, List.nil_sublist _, rfl, rfl, rfl, rfl, rfl, rfl⟩
  | none =>
    cases t.polar with
    | some polar =>
      exact ⟨List.nil_sublist _, List.sublist_append_left ["range_nm", "azimuth_deg"] ["x_m", "y_m"],
        rfl, rfl, rfl, rfl, rfl, rfl⟩
    | none =>
      cases t.cartesianM with
      | none => exact Fits.empty _ _
      | some xy =>
        exact ⟨List.nil_sublist _, List.sublist_append_right ["range_nm", "azimuth_deg"] ["x_m", "y_m"],
          rfl, rfl, rfl, rfl, rfl, rfl⟩

theorem radar_place_fits (place : Option GeoPoint) :
    Fits { places := place.toList } (place.toList.map fun g => .location g.latitude g.longitude g.altitudeM) := by
  cases place with
  | none => exact Fits.empty _ _
  | some g => exact Fits.location _ _ _

theorem north_fits (r : ServiceReport) {attributes metadata : List String} {calls : List BuilderModel.Call}
    (inside : Fits { attributes := attributes, metadata := metadata } calls) :
    Fits { attributes := attributes, metadata := metadata } (ifNorthMarker r calls) := Fits.when inside

/-- The keys of an event. -/
def outlineOf (p : Publisher) (draw : Draw) (s : Subject) : Outline where
  attributes := match s with
    | .radar _ => ["alt_id", "alt_id_standard", "hostility", "scan_period_s", "update_interval_s",
      "coverage_bearing_start_deg", "coverage_bearing_end_deg", "detection_range_m"]
    | .track _ => ["alt_id", "alt_id_standard", "position_accuracy_h_m", "position_accuracy_v_m", "speed_accuracy",
      "environment", "hostility", "speed", "course", "vertical_rate", "squawk", "callsign"]
  metadata := match s with
    | .radar _ => ["source_uid", "asterix_category", "message_type", "time_of_day_s", "scan_period_s",
      "rotation_period_s", "update_interval_s", "sector", "coverage_bearing_start_deg", "coverage_bearing_end_deg",
      "detection_range_m", "window_range_start_nm", "window_range_end_nm", "window_azimuth_start_deg",
      "window_azimuth_end_deg", "nogo", "rdp_overload", "xmt_overload", "monitoring_disconnected",
      "time_source_invalid", "psr_overload", "ssr_overload", "mds_overload"]
    | .track _ => ["source_uid", "asterix_category", "position_sd_x_m", "position_sd_y_m", "environment", "range_nm",
      "azimuth_deg", "x_m", "y_m", "target_length_m", "target_width_m", "target_orientation_deg", "report_type",
      "vehicle_fleet", "altitude_ft", "time_of_day_s", "speed_kn", "vertical_rate_ftmin", "squawk", "emitter_category"]
  ids := [draw.newId]
  times := [draw.now]
  places := (s.place platform p).toList
  payloads := [s.raw]

theorem track_fits (p : Publisher) (draw : Draw) (t : TrackReport) :
    Fits (outlineOf platform p draw (.track t)) (targetBuilder platform p draw.newId t ++ [.timestamp draw.now]) := by
  apply Fits.of_eq
  · exact (Fits.id _).append (Fits.payload _) |>.append (Fits.metadatum _ _) |>.append (Fits.metadatum _ _)
      |>.append (Fits.ifGiven _ fun _ => Fits.identity _ _)
      |>.append (Fits.ifGiven _ fun _ =>
        ((Fits.metadatum _ _).append (Fits.metadatum _ _)).append (sigma_fits platform _ _))
      |>.append (Fits.ifGiven _ fun _ => Fits.when (sigma_fits platform _ _))
      |>.append (Fits.ifGiven _ fun _ => sigma_fits platform _ _)
      |>.append (Fits.ifGiven _ fun _ => governed_fits platform _ _ _)
      |>.append (place_fits platform t)
      |>.append (Fits.ifGiven _ fun _ => ((Fits.metadatum _ _).append (text_fits _ _ _)).append (text_fits _ _ _))
      |>.append (text_fits _ _ _) |>.append (text_fits _ _ _) |>.append (text_fits _ _ _) |>.append (text_fits _ _ _)
      |>.append (Fits.ifGiven _ fun _ => Fits.attr _ _)
      |>.append (Fits.ifGiven _ fun _ => (Fits.attr _ _).append (Fits.metadatum _ _))
      |>.append (Fits.ifGiven _ fun _ => Fits.attr _ _)
      |>.append (Fits.ifGiven _ fun _ => (Fits.attr _ _).append (Fits.metadatum _ _))
      |>.append (Fits.ifGiven _ fun _ => governed_fits platform _ _ _)
      |>.append (Fits.ifGiven _ fun _ => Fits.attr _ _)
      |>.append (text_fits _ _ _) |>.append (Fits.timestamp _)
  · simp [Outline.append, outlineOf, Subject.place, Subject.raw]

theorem radar_fits (p : Publisher) (draw : Draw) (r : ServiceReport) :
    Fits (outlineOf platform p draw (.radar r)) (serviceBuilder platform p draw.newId r ++ [.timestamp draw.now]) := by
  have coverage (a b c : String) := north_fits r
    (((governed_fits platform p.radarType "coverage_bearing_start_deg" a).append
      (governed_fits platform p.radarType "coverage_bearing_end_deg" b)).append
      (governed_fits platform p.radarType "detection_range_m" c))
  apply Fits.of_eq
  · exact (Fits.id _).append (Fits.payload _) |>.append (Fits.metadatum _ _) |>.append (Fits.metadatum _ _)
      |>.append (Fits.metadatum _ _) |>.append (Fits.identity _ _) |>.append (radar_place_fits _)
      |>.append (Fits.ifGiven _ fun _ => Fits.attr _ _) |>.append (text_fits _ _ _)
      |>.append (Fits.ifGiven _ fun _ => ((governed_fits platform _ _ _).append (Fits.metadatum _ _)).append
        (north_fits _ (governed_fits platform _ _ _)))
      |>.append (text_fits _ _ _)
      |>.append (Fits.ifGiven _ fun _ => ((((coverage _ _ _).append (Fits.metadatum _ _)).append
        (Fits.metadatum _ _)).append (Fits.metadatum _ _)).append (Fits.metadatum _ _))
      |>.append (text_fits _ _ _) |>.append (text_fits _ _ _) |>.append (text_fits _ _ _) |>.append (text_fits _ _ _)
      |>.append (text_fits _ _ _) |>.append (text_fits _ _ _) |>.append (text_fits _ _ _) |>.append (text_fits _ _ _)
      |>.append (Fits.timestamp _)
  · simp [Outline.append, outlineOf, Subject.place, Subject.raw]

variable {p : Publisher} {draw : Draw} {s : Subject}

theorem subject_fits (p : Publisher) (draw : Draw) (s : Subject) :
    Fits (outlineOf platform p draw s) (s.calls platform p draw.newId ++ [.timestamp draw.now]) := by
  cases s with
  | radar r => exact radar_fits platform p draw r
  | track t => exact track_fits platform p draw t

theorem outline_keys (p : Publisher) (draw : Draw) (s : Subject) :
    (outlineOf platform p draw s).attributes.Nodup ∧ (outlineOf platform p draw s).attributes.length ≤ maxAttributes ∧
    (outlineOf platform p draw s).metadata.Nodup ∧ (outlineOf platform p draw s).metadata.length ≤ maxMetadata := by
  cases s with
  | radar r => simp [outlineOf, maxAttributes, maxMetadata]
  | track t => simp [outlineOf, maxAttributes, maxMetadata]

theorem entityType_namespaced (labelled : p.Labelled) (s : Subject) : Rust.isNamespaced (s.entityType p) = true := by
  cases s with
  | radar r =>
    change Rust.isNamespaced (p.cat034Type.getD "mim:sensor") = true
    cases given : p.cat034Type with
    | none => decide
    | some ty => exact labelled.cat034 ty given
  | track t =>
    change Rust.isNamespaced (entityTypeOf p t) = true
    unfold entityTypeOf
    split
    · decide
    · cases given : p.cat010Type with
      | none =>
        dsimp only
        split
        · decide
        · split <;> decide
      | some ty => exact labelled.cat010 ty given

theorem uid_call (p : Publisher) (id : String) (s : Subject) : .metadata "source_uid" s.uid ∈ s.calls platform p id := by
  cases s with
  | radar r =>
    change _ ∈ serviceBuilder platform p id r
    delta serviceBuilder
    simp only [List.mem_append, List.mem_singleton, Subject.uid, true_or, or_true]
  | track t =>
    change _ ∈ targetBuilder platform p id t
    delta targetBuilder
    simp only [List.mem_append, List.mem_singleton, Subject.uid, true_or, or_true]

/-- Of calls whose keys are distinct, only one sets a key. -/
theorem metadata_unique {calls : List BuilderModel.Call} (distinct : (metadataKeys calls).Nodup) {key v w : String}
    (first : .metadata key v ∈ calls) (second : .metadata key w ∈ calls) : v = w := by
  have same := List.inj_on_of_nodup_map distinct (mem_metadata.mpr first) (mem_metadata.mpr second) rfl
  exact (Attribute.mk.inj same).2

theorem build_valid (labelled : p.Labelled) (dated : Rust.isRfc3339 draw.now = true) (valid : s.Valid platform p) :
    ∃ event, s.build platform p draw = .ok event ∧ Announces platform p draw s event := by
  have fits := subject_fits platform p draw s
  obtain ⟨attributes, few, metadata, small⟩ := outline_keys platform p draw s
  have placed : ∀ g ∈ (outlineOf platform p draw s).places, Rust.validLocation g = true := fun g member =>
    valid g (Option.mem_toList.mp member)
  have built := fits.build labelled.source (entityType_namespaced labelled s) attributes few metadata small rfl rfl dated
    placed
  refine ⟨_, built, ?_⟩
  have records := eventOf_records p.sourceId (s.entityType p) (s.calls platform p draw.newId ++ [.timestamp draw.now])
    draw.newId draw.now (outlineOf platform p draw s).places.getLast?
  have after := fieldsAfter p.sourceId (s.entityType p) (s.calls platform p draw.newId ++ [.timestamp draw.now])
  have distinct := metadata.sublist fits.metadata
  refine ⟨rfl, rfl, after.sourceId, after.entityType, ?_, ?_, fun value => ?_, fun key value => ?_, fun key value => ?_⟩
  · change (s.place platform p).toList.getLast? = s.place platform p
    cases s.place platform p <;> rfl
  · apply records.payload.trans
    rw [fits.payloads]
    rfl
  · rw [records.metadata]
    have own := List.mem_append_left [BuilderModel.Call.timestamp draw.now] (uid_call platform p draw.newId s)
    constructor
    · exact fun given => metadata_unique distinct given own
    · rintro rfl
      exact own
  · rw [records.attributes, List.mem_append, List.mem_singleton]
    simp
  · rw [records.metadata, List.mem_append, List.mem_singleton]
    simp

theorem build_invalid (invalid : ¬s.Valid platform p) : ∃ e, s.build platform p draw = .error e := by
  have fits := subject_fits platform p draw s
  have misplaced : ¬LocationValid (s.calls platform p draw.newId ++ [.timestamp draw.now]) := by
    intro placed
    apply invalid
    intro g found
    apply placed g
    rw [lastGiven_getLast, fits.places]
    change (s.place platform p).toList.getLast? = some g
    rw [Option.mem_def.mp found]
    rfl
  have run := rust_run p.sourceId (s.entityType p) (s.calls platform p draw.newId ++ [.timestamp draw.now])
  cases built : s.build platform p draw with
  | error e => exact ⟨e, rfl⟩
  | ok event =>
    unfold Subject.build at built
    rw [built] at run
    rcases Option.bind_eq_some_iff.mp run.symm with ⟨id, _, rest⟩
    rcases Option.bind_eq_some_iff.mp rest with ⟨ts, _, made⟩
    split at made
    · rename_i valid
      exact absurd valid.2.1 misplaced
    · cases made

end

section

variable (platform : Platform) {p : Publisher} {draws : Nat → Draw}

/-- The events of subjects, the first of which draws at `start`. -/
def Published (p : Publisher) (draws : Nat → Draw) (start : Nat) (list : List Subject) (events : List Event) : Prop :=
  List.Forall₂ (fun entry event => Announces platform p (draws entry.2) entry.1 event) (list.zipIdx start) events

theorem published_cons {list : List Subject} {events new : List Event} {s : Subject} {event : Event}
    (told : Announces platform p (draws events.length) s event)
    (each : Published platform p draws (events ++ [event]).length list new) :
    Published platform p draws events.length (s :: list) (event :: new) := by
  rw [List.length_append] at each
  exact List.Forall₂.cons told each

theorem publishReports_spec (labelled : p.Labelled) (dated : ∀ i, Rust.isRfc3339 (draws i).now = true)
    (reports : List ServiceReport) (events : List Event) :
    let list := (reports.filter ServiceReport.isPublished).map Subject.radar
    ((∀ s ∈ list, s.Valid platform p) → ∃ new,
      p.publishReports platform draws reports events = .ok (events ++ new) ∧
      Published platform p draws events.length list new) ∧
    ((¬∀ s ∈ list, s.Valid platform p) → ∃ e, p.publishReports platform draws reports events = .error e) := by
  induction reports generalizing events with
  | nil =>
    refine ⟨fun _ => ⟨[], ?_, List.Forall₂.nil⟩, fun wrong => absurd (List.forall_mem_nil _) wrong⟩
    rw [List.append_nil]
    rfl
  | cons r reports ih =>
    rw [Publisher.publishReports]
    by_cases published : r.isPublished = true
    · rw [if_pos published, List.filter_cons_of_pos published]
      by_cases here : (Subject.radar r).Valid platform p
      · obtain ⟨event, built, told⟩ := build_valid platform labelled (dated events.length) here
        obtain ⟨ok, failed⟩ := ih (events ++ [event])
        rw [built]
        refine ⟨fun valid => ?_, fun invalid => ?_⟩
        · obtain ⟨new, whole, each⟩ := ok (List.forall_mem_cons.mp valid).2
          exact ⟨event :: new, whole.trans (by rw [List.append_assoc]; rfl), published_cons platform told each⟩
        · exact failed fun valid => invalid (List.forall_mem_cons.mpr ⟨here, valid⟩)
      · obtain ⟨e, refused⟩ : ∃ e, (Subject.radar r).build platform p (draws events.length) = .error e :=
          build_invalid platform here
        rw [refused]
        exact ⟨fun valid => absurd (List.forall_mem_cons.mp valid).1 here, fun _ => ⟨e, rfl⟩⟩
    · rw [if_neg published, List.filter_cons_of_neg published]
      exact ih events

theorem publishTargets_spec (labelled : p.Labelled) (dated : ∀ i, Rust.isRfc3339 (draws i).now = true)
    (targets : List TrackReport) (events : List Event) (tests : Nat) :
    let list := (targets.filter fun t => !t.isTest).map Subject.track
    ((∀ s ∈ list, s.Valid platform p) → ∃ new,
      p.publishTargets platform draws targets events tests =
        (tests + targets.countP TrackReport.isTest, .ok (events ++ new)) ∧
      Published platform p draws events.length list new) ∧
    ((¬∀ s ∈ list, s.Valid platform p) → ∃ n e, n ≤ tests + targets.countP TrackReport.isTest ∧
      p.publishTargets platform draws targets events tests = (n, .error e)) := by
  induction targets generalizing events tests with
  | nil =>
    refine ⟨fun _ => ⟨[], ?_, List.Forall₂.nil⟩, fun wrong => absurd (List.forall_mem_nil _) wrong⟩
    rw [List.append_nil]
    rfl
  | cons t targets ih =>
    rw [Publisher.publishTargets]
    cases test : t.isTest with
    | true =>
      obtain ⟨ok, failed⟩ := ih events (tests + 1)
      rw [if_pos rfl, List.filter_cons_of_neg (by rw [test]; decide), List.countP_cons_of_pos test, ← Nat.add_assoc,
        Nat.add_right_comm]
      exact ⟨ok, failed⟩
    | false =>
      rw [if_neg (by decide), List.filter_cons_of_pos (by rw [test]; rfl), List.countP_cons_of_neg (by rw [test]; decide)]
      by_cases here : (Subject.track t).Valid platform p
      · obtain ⟨event, built, told⟩ := build_valid platform labelled (dated events.length) here
        obtain ⟨ok, failed⟩ := ih (events ++ [event]) tests
        rw [built]
        refine ⟨fun valid => ?_, fun invalid => ?_⟩
        · obtain ⟨new, whole, each⟩ := ok (List.forall_mem_cons.mp valid).2
          exact ⟨event :: new, whole.trans (by rw [List.append_assoc]; rfl), published_cons platform told each⟩
        · exact failed fun valid => invalid (List.forall_mem_cons.mpr ⟨here, valid⟩)
      · obtain ⟨e, refused⟩ : ∃ e, (Subject.track t).build platform p (draws events.length) = .error e :=
          build_invalid platform here
        rw [refused]
        exact ⟨fun valid => absurd (List.forall_mem_cons.mp valid).1 here,
          fun _ => ⟨tests, e, Nat.le_add_right _ _, rfl⟩⟩

end

section

variable (platform : Platform) {p : Publisher} {draws : Nat → Draw}

/-- What becomes of an accepted datagram. -/
theorem parse_accepted (labelled : p.Labelled) (dated : ∀ i, Rust.isRfc3339 (draws i).now = true) {frame : Bytes}
    {q : AsterixParser} {targets : List TrackReport} {reports : List ServiceReport}
    (parsed : p.toAsterixParser.parseDatagramChecked platform.toSphere frame = some (q, .ok (targets, reports))) :
    ((∀ s ∈ subjects targets reports, s.Valid platform { p with toAsterixParser := q }) → ∃ events,
      p.parse platform draws frame = some ({ p with
        toAsterixParser := q
        testTargets := p.testTargets + targets.countP TrackReport.isTest }, .ok events) ∧
      Published platform { p with toAsterixParser := q } draws 0 (subjects targets reports) events) ∧
    ((¬∀ s ∈ subjects targets reports, s.Valid platform { p with toAsterixParser := q }) → ∃ n e,
      n ≤ p.testTargets + targets.countP TrackReport.isTest ∧
      p.parse platform draws frame = some ({ p with toAsterixParser := q, testTargets := n }, .error (.build e))) := by
  have kept : ({ p with toAsterixParser := q } : Publisher).Labelled :=
    ⟨labelled.source, labelled.cat010, labelled.cat034⟩
  obtain ⟨reported, unreported⟩ := publishReports_spec platform kept dated reports []
  rw [Publisher.parse, parsed]
  dsimp only
  by_cases first : ∀ s ∈ (reports.filter ServiceReport.isPublished).map Subject.radar,
      s.Valid platform { p with toAsterixParser := q }
  · obtain ⟨events, made, each⟩ := reported first
    obtain ⟨tracked, untracked⟩ := publishTargets_spec platform kept dated targets events p.testTargets
    rw [made, List.nil_append]
    dsimp only
    refine ⟨fun valid => ?_, fun invalid => ?_⟩
    · obtain ⟨new, whole, later⟩ := tracked fun s member => valid s (List.mem_append_right _ member)
      rw [whole]
      refine ⟨events ++ new, rfl, ?_⟩
      have length := each.length_eq
      rw [List.length_zipIdx] at length
      unfold Published subjects
      rw [List.zipIdx_append, Nat.zero_add, length]
      exact List.rel_append each later
    · obtain ⟨n, e, few, whole⟩ := untracked fun valid => invalid fun s member =>
        (List.mem_append.mp member).elim (first s) (valid s)
      rw [whole]
      exact ⟨n, e, few, rfl⟩
  · obtain ⟨e, refused⟩ := unreported first
    rw [refused]
    exact ⟨fun valid => absurd (fun s member => valid s (List.mem_append_left _ member)) first,
      fun _ => ⟨p.testTargets, e, Nat.le_add_right _ _, rfl⟩⟩

/-- Every datagram is answered. One that is read in whole becomes the events of its north markers and jamming strobes and
then of its tracks that are no test, each with its record as payload, its place and exactly the entries of its builder,
while the tests are counted; unless one of these has a place off the globe, which refuses the whole datagram. -/
theorem datagrams_become_events (labelled : p.Labelled) (dated : ∀ i, Rust.isRfc3339 (draws i).now = true)
    (frame : Bytes) : ∃ q outcome,
    p.toAsterixParser.parseDatagramChecked platform.toSphere frame = some (q, outcome) ∧
    (∀ e, outcome = .error e →
      p.parse platform draws frame = some ({ p with toAsterixParser := q }, .error (.datagram e))) ∧
    ∀ targets reports, outcome = .ok (targets, reports) →
      ((∀ s ∈ subjects targets reports, s.Valid platform { p with toAsterixParser := q }) → ∃ events,
        p.parse platform draws frame = some ({ p with
          toAsterixParser := q
          testTargets := p.testTargets + targets.countP TrackReport.isTest }, .ok events) ∧
        Published platform { p with toAsterixParser := q } draws 0 (subjects targets reports) events) ∧
      ((¬∀ s ∈ subjects targets reports, s.Valid platform { p with toAsterixParser := q }) → ∃ n e,
        n ≤ p.testTargets + targets.countP TrackReport.isTest ∧
        p.parse platform draws frame = some ({ p with toAsterixParser := q, testTargets := n }, .error (.build e))) := by
  obtain ⟨q, outcome, parsed, -⟩ := parseDatagramChecked_eq platform.toSphere p.toAsterixParser frame
  refine ⟨q, outcome, parsed, ?_, ?_⟩
  · rintro e rfl
    rw [Publisher.parse, parsed]
  · rintro targets reports rfl
    exact parse_accepted platform labelled dated parsed

end

def radarSite : Publisher where
  sourceId := "radar-1"

def atNoon (i : Nat) : Draw := ⟨toString i, "2026-01-01T12:00:00Z"⟩

/-- Stands where a run does no float work. -/
def stillPlatform : Platform where
  toSphere := .idle
  hypot _ _ := .zero
  governs _ _ := false

def marker (sic : UInt8) : Bytes := [34, 0, 7, 0xc0, 1, sic, 1]

def heard (sic : UInt8) : ServiceReport := { sac := 1, sic := sic, messageType := 1, raw := [0xc0, 1, sic, 1] }

/-- Whether the site is unknown after a marker, and what was read of it. -/
def markerRead (sic : UInt8) : Option (Bool × Option (Nat × List ServiceReport)) :=
  (radarSite.toAsterixParser.parseDatagramChecked Sphere.idle (marker sic)).map fun result =>
    (result.1.sensor.isNone, result.2.toOption.map fun found => (found.1.length, found.2))

theorem radarSite_labelled : radarSite.Labelled := ⟨by decide, nofun, nofun⟩

theorem noon_dated (i : Nat) : Rust.isRfc3339 (atNoon i).now = true := by
  change Rust.isRfc3339 "2026-01-01T12:00:00Z" = true
  decide

theorem marker_read (sic : UInt8) (read : markerRead sic = some (true, some (0, [heard sic]))) : ∃ q,
    radarSite.toAsterixParser.parseDatagramChecked stillPlatform.toSphere (marker sic) = some (q, .ok ([], [heard sic])) ∧
      q.sensor = none := by
  obtain ⟨⟨q, outcome⟩, parsed, both⟩ := Option.map_eq_some_iff.mp read
  rw [Prod.mk.injEq] at both
  obtain ⟨nowhere, found⟩ := both
  obtain ⟨⟨targets, reports⟩, ok, same⟩ := Option.map_eq_some_iff.mp found
  rw [Prod.mk.injEq] at same
  cases outcome with
  | error e => cases ok
  | ok both =>
    cases ok
    obtain ⟨none, rfl⟩ := same
    cases List.eq_nil_of_length_eq_zero none
    exact ⟨q, parsed, Option.isNone_iff_eq_none.mp nowhere⟩

theorem heard_valid {p : Publisher} (nowhere : p.sensor = none) (sic : UInt8) :
    ∀ s ∈ subjects [] [heard sic], s.Valid stillPlatform p := by
  intro s member g found
  cases List.mem_singleton.mp member
  change g ∈ radarPlace p (heard sic) at found
  unfold radarPlace heard at found
  rw [nowhere] at found
  cases found

theorem marker_is_published : ∃ q event,
    radarSite.parse stillPlatform atNoon (marker 2) = some (q, .ok [event]) ∧ event.payload = [0xc0, 1, 2, 1] ∧
    ⟨"source_uid", "asterix:radar:1:2"⟩ ∈ event.metadata := by
  obtain ⟨q, outcome, parsed, -, read⟩ :=
    datagrams_become_events stillPlatform radarSite_labelled noon_dated (marker 2)
  obtain ⟨r, again, nowhere⟩ := marker_read 2 (by decide +kernel)
  rw [again] at parsed
  cases parsed
  obtain ⟨events, whole, each⟩ := (read [] [heard 2] rfl).1 (heard_valid nowhere 2)
  obtain ⟨event, others, tells, rest, rfl⟩ := List.forall₂_cons_left_iff.mp each
  cases rest
  exact ⟨_, event, whole, tells.payload, (tells.uid _).mpr (by decide)⟩

end AsterixProof
