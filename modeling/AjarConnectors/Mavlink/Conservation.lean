import AjarConnectors.Mavlink.Parser

namespace MavlinkModel

open EventModel BuilderModel CarryForward

variable (floats : MavFloats)

/-- A frame that is carried, under its system id: the CRC of the seven decoded messages is checked. -/
def carriedOf (frame : Bytes) : List (UInt8 × Bytes) :=
  match readFrame frame with
  | .ok f => [(f.sysid, f.raw)]
  | .error _ => []

/-- The place a position frame states. -/
def placeOf (frame : Bytes) : Option GeoPoint :=
  match readFrame frame with
  | .ok ⟨_, 33, _, some b⟩ =>
    some ⟨scaled floats (i32le b 4) 10000000, scaled floats (i32le b 8) 10000000, scaled floats (i32le b 12) 1000⟩
  | .ok ⟨_, 24, _, some b⟩ =>
    some ⟨scaled floats (i32le b 8) 10000000, scaled floats (i32le b 12) 10000000, scaled floats (i32le b 16) 1000⟩
  | _ => none

/-- A parser with all the frames it carried and all the events it returned. -/
structure Watched where
  parser : MavParser
  history : List (UInt8 × Bytes) := []
  events : List Event := []

def Watched.parse (w : Watched) (a : Arrival) : Watched :=
  let (result, parser) := w.parser.parse floats a
  { parser := parser, history := w.history ++ carriedOf a.frame, events := w.events ++ result.toOption.getD [] }

def Watched.run (w : Watched) (arrivals : List Arrival) : Watched := arrivals.foldl (Watched.parse floats) w

def MavParser.buffer (p : MavParser) (sysid : UInt8) : Buffer Bytes := (p.vehicle sysid).carry

/-- An event, with the system id, the frames and the mark it carries. -/
structure Carries (event : Event) (sent : UInt8 × List Bytes × Bool) : Prop where
  sysid : ⟨"mav_sysid", toString sent.1.toNat⟩ ∈ event.metadata
  payload : event.payload = sent.2.1.flatten
  mark : ⟨"payload_truncated", "true"⟩ ∈ event.metadata ↔ sent.2.2 = true

/-- Every carried frame is in one event of its system id, or pending for it, or counted. -/
def Watched.Conserved (w : Watched) : Prop :=
  ∃ sent, List.Forall₂ Carries w.events sent ∧ Balanced w.history sent w.parser.buffer w.parser.dropped

end MavlinkModel

namespace MavlinkProof

open MavlinkModel EventModel BuilderModel BuilderProof CarryForward

variable (floats : MavFloats) {p : MavParser}

/-- The keys of an aircraft event. -/
def aircraftOutline (id ts : String) (payload : Bytes) (place : GeoPoint) : Outline where
  attributes := ["alt_id", "alt_id_standard", "hostility", "speed", "heading", "course", "vertical_rate",
    "relative_altitude", "vehicle_type", "status", "armed", "mode", "roll", "pitch", "yaw", "airspeed", "throttle",
    "battery_voltage", "battery_current", "battery", "battery_consumed", "battery_temp", "cpu_load", "gps_fix",
    "gps_satellites", "gps_hdop", "position_accuracy_h_m", "position_accuracy_v_m", "speed_accuracy", "angle_accuracy"]
  metadata := ["source_uid", "mav_sysid", "payload_truncated", "custom_mode"]
  ids := [id]
  times := [ts]
  places := [place]
  payloads := [payload]

theorem fixed_fits (digits : Nat) (key : String) (value : Option F64) :
    Fits { attributes := [key] } (fixedAttribute floats digits key value) :=
  Fits.ifGiven value fun _ => Fits.attr _ _

theorem text_fits (key : String) (value : Option String) : Fits { attributes := [key] } (textAttribute key value) :=
  Fits.ifGiven value fun _ => Fits.attr _ _

theorem aircraft_fits (hostility : Option String) (id ts : String) (pos : MavPosition) :
    Fits (aircraftOutline id ts pos.raw ⟨pos.lat, pos.lon, pos.altM⟩)
      (baseBuilder floats hostility id pos ++ [.timestamp ts]) := by
  have accuracy := (fixed_fits floats 2 "position_accuracy_h_m" pos.state.gpsHAccM)
    |>.append (fixed_fits floats 2 "position_accuracy_v_m" pos.state.gpsVAccM)
    |>.append (fixed_fits floats 2 "speed_accuracy" pos.state.gpsVelAccMps)
    |>.append (fixed_fits floats 2 "angle_accuracy" pos.state.gpsHdgAccDeg)
  apply Fits.of_eq
  · exact (Fits.id id).append (Fits.location _ _ _) |>.append (Fits.payload pos.raw) |>.append (Fits.metadatum _ _)
      |>.append (Fits.metadatum _ _) |>.append (Fits.identity _ _) |>.append (Fits.when (Fits.metadatum _ _))
      |>.append (text_fits _ _) |>.append (fixed_fits floats _ _ _) |>.append (fixed_fits floats _ _ _)
      |>.append (fixed_fits floats _ _ _) |>.append (fixed_fits floats _ _ _) |>.append (fixed_fits floats _ _ _)
      |>.append (text_fits _ _) |>.append (text_fits _ _) |>.append (text_fits _ _) |>.append (text_fits _ _)
      |>.append (fixed_fits floats _ _ _) |>.append (fixed_fits floats _ _ _) |>.append (fixed_fits floats _ _ _)
      |>.append (fixed_fits floats _ _ _) |>.append (text_fits _ _) |>.append (fixed_fits floats _ _ _)
      |>.append (fixed_fits floats _ _ _) |>.append (text_fits _ _) |>.append (text_fits _ _)
      |>.append (fixed_fits floats _ _ _) |>.append (fixed_fits floats _ _ _) |>.append (text_fits _ _)
      |>.append (text_fits _ _) |>.append (fixed_fits floats _ _ _) |>.append (Fits.when accuracy)
      |>.append (Fits.ifGiven pos.state.customMode fun cm => Fits.metadatum _ _) |>.append (Fits.timestamp ts)
  · simp [Outline.append, aircraftOutline]

theorem aircraft_namespaced : Rust.isNamespaced "mim:aircraft" = true := by decide

theorem aircraft_attributes {id ts : String} {payload : Bytes} {place : GeoPoint} :
    (aircraftOutline id ts payload place).attributes.Nodup := by
  simp [aircraftOutline]

theorem aircraft_metadata {id ts : String} {payload : Bytes} {place : GeoPoint} :
    (aircraftOutline id ts payload place).metadata.Nodup := by
  simp [aircraftOutline]

theorem fixed_metadata {digits : Nat} {key : String} {value : Option F64} {name text : String} :
    .metadata name text ∉ fixedAttribute floats digits key value := by
  simp [fixedAttribute, mem_ifGiven]

theorem text_metadata {key : String} {value : Option String} {name text : String} :
    .metadata name text ∉ textAttribute key value := by
  simp [textAttribute, mem_ifGiven]

/-- A position with a valid place becomes an event that carries its frames and its mark. -/
theorem aircraft_built {sourceId : String} (source : sourceId ≠ "") (hostility : Option String) (id : String) {ts : String}
    (dated : Rust.isRfc3339 ts = true) {pos : MavPosition} {frames : List Bytes} (raw : pos.raw = frames.flatten)
    (placed : Rust.validLocation ⟨pos.lat, pos.lon, pos.altM⟩ = true) :
    ∃ event, Rust.run sourceId "mim:aircraft" (baseBuilder floats hostility id pos ++ [.timestamp ts]) = .ok event ∧
      Carries event (pos.sysid, frames, pos.truncated) := by
  have fits : Fits _ (baseBuilder floats hostility id pos ++ [.timestamp ts]) := aircraft_fits floats hostility id ts pos
  have built := fits.build source aircraft_namespaced aircraft_attributes (by simp [aircraftOutline, maxAttributes])
    aircraft_metadata (by simp [aircraftOutline, maxMetadata]) rfl rfl dated
    (fun place member => by rw [List.mem_singleton.mp member]; exact placed)
  have records := eventOf_records sourceId "mim:aircraft" (baseBuilder floats hostility id pos ++ [.timestamp ts]) id ts
    (aircraftOutline id ts pos.raw ⟨pos.lat, pos.lon, pos.altM⟩).places.getLast?
  refine ⟨_, built, ?_, ?_, ?_⟩
  · apply (records.metadata _ _).mpr
    delta baseBuilder
    simp only [List.mem_append, List.mem_singleton, true_or, or_true]
  · apply records.payload.trans
    rw [fits.payloads]
    exact raw
  · apply (records.metadata _ _).trans
    have accuracy : Call.metadata "payload_truncated" "true" ∉ (if pos.msgId = 24 then
        fixedAttribute floats 2 "position_accuracy_h_m" pos.state.gpsHAccM ++
        fixedAttribute floats 2 "position_accuracy_v_m" pos.state.gpsVAccM ++
        fixedAttribute floats 2 "speed_accuracy" pos.state.gpsVelAccMps ++
        fixedAttribute floats 2 "angle_accuracy" pos.state.gpsHdgAccDeg else []) := by
      split <;> simp [fixed_metadata]
    delta baseBuilder
    simp only [List.mem_append, List.mem_singleton, mem_ifGiven, fixed_metadata, text_metadata, identity_metadata, accuracy]
    simp

theorem buffer_set (p : MavParser) (sysid : UInt8) (v : Vehicle) :
    (p.set sysid v).buffer = Function.update p.buffer sysid v.carry := by
  funext k
  by_cases same : k = sysid
  · subst same
    simp [MavParser.buffer, MavParser.vehicle, MavParser.set]
  · simp [MavParser.buffer, MavParser.vehicle, MavParser.set, Function.update_of_ne same]

theorem buffer_mutate (p : MavParser) (sysid : UInt8) (f : VehicleState → VehicleState) :
    (p.mutate sysid f).buffer = p.buffer := by
  rw [MavParser.mutate, buffer_set]
  exact Function.update_eq_self sysid p.buffer

section

variable {history : List (UInt8 × Bytes)} {sent : List (UInt8 × List Bytes × Bool)}

theorem carry_balanced (balanced : Balanced history sent p.buffer p.dropped) (sysid : UInt8) (raw : Bytes) :
    Balanced (history ++ [(sysid, raw)]) sent (p.carry sysid raw).buffer (p.carry sysid raw).dropped := by
  have buffers : (p.carry sysid raw).buffer = Function.update p.buffer sysid
      ((p.buffer sysid).pushRaw carryCaps List.length raw).1 := buffer_set p sysid _
  rw [buffers]
  exact balanced.push carryCaps List.length sysid raw

theorem mutate_balanced (balanced : Balanced history sent p.buffer p.dropped) (sysid : UInt8)
    (f : VehicleState → VehicleState) : Balanced history sent (p.mutate sysid f).buffer (p.mutate sysid f).dropped := by
  rw [buffer_mutate]
  exact balanced

/-- The event of a position takes all that is pending. -/
theorem drain_balanced (balanced : Balanced history sent p.buffer p.dropped) (sysid : UInt8) :
    ∃ frames, (p.drain sysid).1 = frames.flatten ∧
      Balanced history (sent ++ [(sysid, frames, (p.drain sysid).2.1)]) (p.drain sysid).2.2.buffer
        (p.drain sysid).2.2.dropped := by
  refine ⟨(p.buffer sysid).pending, rfl, ?_⟩
  have buffers : (p.drain sysid).2.2.buffer = Function.update p.buffer sysid {} := buffer_set p sysid _
  have drained := balanced.drain sysid []
  rw [List.map_nil, List.append_nil, List.append_nil] at drained
  rw [buffers]
  exact drained

/-- What the accounts look like when a frame gives a position. -/
structure Emitted (history : List (UInt8 × Bytes)) (sent : List (UInt8 × List Bytes × Bool)) (p' : MavParser)
    (pos : MavPosition) : Prop where
  frames : ∃ frames, pos.raw = frames.flatten ∧
    Balanced history (sent ++ [(pos.sysid, frames, pos.truncated)]) p'.buffer p'.dropped

/-- A frame is refused and changes nothing, or is carried; a position takes all that waits. -/
theorem parseFrame_cases (frame : Bytes) (balanced : Balanced history sent p.buffer p.dropped) :
    (∃ e, p.parseFrame floats frame = (.error e, p) ∧ carriedOf frame = []) ∨
    (∃ p', p.parseFrame floats frame = (.ok none, p') ∧ p'.sourceId = p.sourceId ∧
      Balanced (history ++ carriedOf frame) sent p'.buffer p'.dropped) ∨
    (∃ pos p', p.parseFrame floats frame = (.ok (some pos), p') ∧ p'.sourceId = p.sourceId ∧
      placeOf floats frame = some ⟨pos.lat, pos.lon, pos.altM⟩ ∧
      Emitted (history ++ carriedOf frame) sent p' pos) := by
  cases read : readFrame frame with
  | error e =>
    left
    exact ⟨e, by rw [MavParser.parseFrame, read], by rw [carriedOf, read]⟩
  | ok f =>
    right
    have carried : carriedOf frame = [(f.sysid, f.raw)] := by rw [carriedOf, read]
    have kept := carry_balanced balanced f.sysid f.raw
    rw [carried, MavParser.parseFrame, placeOf, read]
    rcases f with ⟨sysid, msgId, raw, payload⟩
    dsimp only at kept ⊢
    cases payload with
    | none => exact Or.inl ⟨_, rfl, rfl, kept⟩
    | some b =>
      dsimp only
      split
      · exact Or.inl ⟨_, rfl, rfl, mutate_balanced kept _ _⟩
      · exact Or.inl ⟨_, rfl, rfl, mutate_balanced kept _ _⟩
      · exact Or.inl ⟨_, rfl, rfl, mutate_balanced kept _ _⟩
      · exact Or.inl ⟨_, rfl, rfl, mutate_balanced kept _ _⟩
      · exact Or.inl ⟨_, rfl, rfl, mutate_balanced kept _ _⟩
      · exact Or.inr ⟨_, _, rfl, rfl, rfl, ⟨drain_balanced kept sysid⟩⟩
      · exact Or.inr ⟨_, _, rfl, rfl, rfl, ⟨drain_balanced (mutate_balanced kept sysid _) sysid⟩⟩
      · exact Or.inl ⟨_, rfl, rfl, kept⟩

end

theorem watched_parse (w : Watched) (a : Arrival) : w.parse floats a =
    { parser := (w.parser.parse floats a).2, history := w.history ++ carriedOf a.frame,
      events := w.events ++ (w.parser.parse floats a).1.toOption.getD [] } := rfl

/-- One frame keeps every frame accounted for, if the place it states is valid. -/
theorem parse_conserves {w : Watched} (conserved : w.Conserved) (source : w.parser.sourceId ≠ "") {a : Arrival}
    (dated : Rust.isRfc3339 a.clock = true) (placed : ∀ place ∈ placeOf floats a.frame, Rust.validLocation place = true) :
    (w.parse floats a).Conserved ∧ (w.parse floats a).parser.sourceId = w.parser.sourceId := by
  rcases conserved with ⟨sent, carries, balanced⟩
  rcases parseFrame_cases floats a.frame balanced with
    ⟨e, parsed, nothing⟩ | ⟨p', parsed, sourceId, after⟩ | ⟨pos, p', parsed, sourceId, place, emitted⟩
  · have step : w.parser.parse floats a = (.error e, w.parser) := by rw [MavParser.parse, parsed]
    rw [watched_parse, step, nothing, List.append_nil]
    refine ⟨⟨sent, ?_, balanced⟩, rfl⟩
    change List.Forall₂ Carries (w.events ++ []) sent
    rw [List.append_nil]
    exact carries
  · have step : w.parser.parse floats a = (.ok [], p') := by rw [MavParser.parse, parsed]
    rw [watched_parse, step]
    refine ⟨⟨sent, ?_, after⟩, sourceId⟩
    change List.Forall₂ Carries (w.events ++ []) sent
    rw [List.append_nil]
    exact carries
  · rcases emitted.frames with ⟨frames, raw, after⟩
    have named : p'.sourceId ≠ "" := by
      rw [sourceId]
      exact source
    rcases aircraft_built floats named p'.hostility a.id dated raw (placed _ place) with ⟨event, built, carried⟩
    have step : w.parser.parse floats a = (.ok [event], p') := by
      rw [MavParser.parse, parsed]
      dsimp only
      rw [built]
    rw [watched_parse, step]
    refine ⟨⟨sent ++ [(pos.sysid, frames, pos.truncated)], ?_, after⟩, sourceId⟩
    exact List.rel_append carries (List.Forall₂.cons carried List.Forall₂.nil)

theorem run_conserves {w : Watched} (conserved : w.Conserved) (source : w.parser.sourceId ≠ "") {arrivals : List Arrival}
    (dated : ∀ a ∈ arrivals, Rust.isRfc3339 a.clock = true)
    (placed : ∀ a ∈ arrivals, ∀ place ∈ placeOf floats a.frame, Rust.validLocation place = true) :
    (w.run floats arrivals).Conserved := by
  induction arrivals generalizing w with
  | nil => exact conserved
  | cons a arrivals ih =>
    have step := parse_conserves floats conserved source (dated a List.mem_cons_self) (placed a List.mem_cons_self)
    apply ih step.1 _ (fun b member => dated b (List.mem_cons_of_mem _ member))
      fun b member => placed b (List.mem_cons_of_mem _ member)
    rw [step.2]
    exact source

/-- At every point of a run whose positions are all on the globe, every frame is accounted for. -/
theorem frames_are_conserved (sourceId : String) (hostility : Option String) (arrivals : List Arrival)
    (source : sourceId ≠ "") (dated : ∀ a ∈ arrivals, Rust.isRfc3339 a.clock = true)
    (placed : ∀ a ∈ arrivals, ∀ place ∈ placeOf floats a.frame, Rust.validLocation place = true)
    (before after : List Arrival) (point : arrivals = before ++ after) :
    (Watched.run floats { parser := { sourceId := sourceId, hostility := hostility } } before).Conserved := by
  subst point
  apply run_conserves floats ⟨[], List.Forall₂.nil, balanced_start⟩ source
  · exact fun a member => dated a (List.mem_append_left _ member)
  · exact fun a member => placed a (List.mem_append_left _ member)

/-- Float operations that are right on zero and on a latitude of 100 degrees. -/
def fewFloats : MavFloats where
  ofInt v := match v with
    | 1000000000 => ⟨0x41cdcd6500000000⟩
    | 10000000 => ⟨0x416312d000000000⟩
    | 1000 => ⟨0x408f400000000000⟩
    | 100 => ⟨0x4059000000000000⟩
    | _ => .zero
  add _ _ := .zero
  mul _ _ := .zero
  div a b := if a = ⟨0x41cdcd6500000000⟩ ∧ b = ⟨0x416312d000000000⟩ then ⟨0x4059000000000000⟩ else a
  parse _ := none
  display _ := "0"
  fixed digits _ := String.ofList ("0.".toList ++ List.replicate digits '0')
  ofF32 _ := .zero
  toDegrees _ := .zero
  remEuclid _ _ := .zero
  sqrt _ := .zero
  neg _ := .negZero

def arrival (frame : Bytes) : Arrival := ⟨frame, "01890a5d-ac96-774b-bcce-b302099a8057", "2026-06-10T08:00:00Z"⟩

def heartbeatFrame : Bytes := [254, 9, 0, 1, 1, 0, 0, 0, 0, 0, 2, 3, 129, 4, 3, 5, 37]

/-- GLOBAL_POSITION_INT at latitude 0. -/
def equatorFrame : Bytes := [254, 28, 0, 1, 1, 33] ++ List.replicate 28 0 ++ [112, 186]

/-- GLOBAL_POSITION_INT at latitude 100. -/
def offPlanetFrame : Bytes := [254, 28, 0, 1, 1, 33, 0, 0, 0, 0, 0, 202, 154, 59] ++ List.replicate 20 0 ++ [133, 201]

theorem equator_flight_conserved :
    (Watched.run fewFloats { parser := { sourceId := "uav-1", hostility := none } }
      [arrival heartbeatFrame, arrival equatorFrame]).Conserved ∧
    (carriedOf heartbeatFrame, carriedOf equatorFrame) = ([(1, heartbeatFrame)], [(1, equatorFrame)]) := by
  refine ⟨frames_are_conserved fewFloats "uav-1" none [arrival heartbeatFrame, arrival equatorFrame] (by decide) ?_ ?_ _ []
    rfl, by decide +kernel⟩
  · intro a member
    simp only [List.mem_cons, List.not_mem_nil, or_false] at member
    rcases member with rfl | rfl <;> decide +kernel
  · intro a member
    simp only [List.mem_cons, List.not_mem_nil, or_false] at member
    rcases member with rfl | rfl <;> decide +kernel

/-- A position off the globe is refused after the heartbeat before it was taken from the buffer. -/
theorem off_planet_position_loses_heartbeat :
    ¬ (Watched.run fewFloats { parser := { sourceId := "uav-1", hostility := none } }
      [arrival heartbeatFrame, arrival offPlanetFrame]).Conserved := by
  have silent : (Watched.run fewFloats { parser := { sourceId := "uav-1", hostility := none } }
      [arrival heartbeatFrame, arrival offPlanetFrame]).events = [] := by decide +kernel
  have uncounted : (Watched.run fewFloats { parser := { sourceId := "uav-1", hostility := none } }
      [arrival heartbeatFrame, arrival offPlanetFrame]).parser.dropped = 0 := by decide +kernel
  have gone : ((Watched.run fewFloats { parser := { sourceId := "uav-1", hostility := none } }
      [arrival heartbeatFrame, arrival offPlanetFrame]).parser.buffer 1).pending = [] := by decide +kernel
  have carried : ofKey 1 (Watched.run fewFloats { parser := { sourceId := "uav-1", hostility := none } }
      [arrival heartbeatFrame, arrival offPlanetFrame]).history = [heartbeatFrame, offPlanetFrame] := by decide +kernel
  rintro ⟨sent, carries, balanced⟩
  rw [silent] at carries
  rw [List.forall₂_nil_left_iff.mp carries, uncounted] at balanced
  have all := balanced.all_pending 1
  rw [carried, gone] at all
  cases all

end MavlinkProof
