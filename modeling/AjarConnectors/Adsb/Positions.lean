import AjarConnectors.Adsb.Parser

namespace AdsbModel

open EventModel BuilderModel HttpModel CarryForward

def AdsbParser.cachedAltitude (p : AdsbParser) (icao : Text) : Option F64 :=
  (p.aircraft.map icao).bind fun e => e.state.altitudeFt

/-- The altitude an event of this line would state: the line's own, else the one cached for the aircraft. -/
def AdsbParser.altitudeAfter (floats : Floats) (p : AdsbParser) (icao : Text) (parts : List Text) : Option F64 :=
  (num floats parts 11).or (p.cachedAltitude icao)

end AdsbModel

namespace AdsbProof

open AdsbModel EventModel BuilderModel BuilderProof CarryForward
open HttpModel (Text Bytes)

variable (floats : Floats) {p : AdsbParser}

/-- The bytes that wait are counted right for every aircraft. -/
def Counted (p : AdsbParser) : Prop :=
  ∀ icao, (p.aircraft.value icao).carry.pendingBytes = totalSize List.length (p.aircraft.value icao).carry.pending

theorem value_set (c : StateCache) (icao other : Text) (e : Entry) :
    (c.set icao e).value other = if other = icao then e else c.value other := by
  by_cases same : other = icao
  · subst same
    simp [StateCache.value, StateCache.set]
  · simp [StateCache.value, StateCache.set, same]

/-- Making room leaves an aircraft's entry as it is, or an empty one. -/
theorem value_entry (c : StateCache) (icao other : Text) :
    (c.entry icao).value other = c.value other ∨ (c.entry icao).value other = {} := by
  unfold StateCache.entry
  split
  · by_cases same : other = icao
    · subst same
      right
      simp [StateCache.value]
    · unfold StateCache.evict
      split
      · split
        · left
          simp [StateCache.value, Function.update_of_ne same]
        · rename_i old rest order
          by_cases gone : other = old
          · subst gone
            right
            simp [StateCache.value, Function.update_of_ne same]
          · left
            simp [StateCache.value, Function.update_of_ne same, Function.update_of_ne gone]
      · left
        simp [StateCache.value, Function.update_of_ne same]
  · exact Or.inl rfl

theorem value_entry_self (c : StateCache) (icao : Text) : (c.entry icao).value icao = c.value icao := by
  unfold StateCache.entry
  split
  · rename_i fresh
    rw [Option.isNone_iff_eq_none] at fresh
    simp [StateCache.value, fresh]
  · rfl

theorem counted_entry (counted : Counted p) (icao other : Text) :
    ((p.aircraft.entry icao).value other).carry.pendingBytes =
      totalSize List.length ((p.aircraft.entry icao).value other).carry.pending := by
  rcases value_entry p.aircraft icao other with same | fresh
  · rw [same]
    exact counted other
  · rw [fresh]
    rfl

theorem take_counted {e : Entry} (counted : e.carry.pendingBytes = totalSize List.length e.carry.pending) (line : Text)
    (parts : List Text) :
    (e.take floats line parts).1.carry.pendingBytes = totalSize List.length (e.take floats line parts).1.carry.pending :=
  pushRaw_bytes carryCaps List.length counted (Utf8.encodeText line)

theorem parseLine_counted (counted : Counted p) (frame : Bytes) : Counted (p.parseLine floats frame).2 := by
  unfold AdsbParser.parseLine
  split
  · exact counted
  · exact counted
  · rename_i line parts read
    dsimp only
    split
    · exact counted
    · split
      · exact counted
      · rename_i address found
        have kept := counted_entry counted (address.map Char.toUpper)
        have taken := take_counted floats (kept (address.map Char.toUpper)) line parts
        split
        · intro other
          dsimp only
          rw [value_set]
          split
          · exact taken
          · exact kept other
        · intro other
          dsimp only
          rw [value_set]
          split
          · rfl
          · exact kept other

theorem parse_state (a : Arrival) : (p.parse floats a).2 = (p.parseLine floats a.frame).2 := by
  unfold AdsbParser.parse
  split
  · rename_i found
    rw [found]
  · rename_i found
    rw [found]
  · rename_i found
    rw [found]
    dsimp only
    split <;> rfl

theorem run_counted (counted : Counted p) (arrivals : List Arrival) : Counted (p.run floats arrivals) := by
  induction arrivals generalizing p with
  | nil => exact counted
  | cons a arrivals ih =>
    apply ih
    change Counted (p.parse floats a).2
    rw [parse_state]
    exact parseLine_counted floats counted a.frame

theorem parseLine_sourceId (frame : Bytes) : (p.parseLine floats frame).2.sourceId = p.sourceId := by
  unfold AdsbParser.parseLine
  split
  · rfl
  · rfl
  · dsimp only
    repeat' split
    all_goals rfl

theorem run_sourceId (arrivals : List Arrival) : (p.run floats arrivals).sourceId = p.sourceId := by
  induction arrivals generalizing p with
  | nil => rfl
  | cons a arrivals ih =>
    apply ih.trans
    change (p.parse floats a).2.sourceId = p.sourceId
    rw [parse_state, parseLine_sourceId]

/-- The keys of an aircraft event. -/
def aircraftOutline (id ts : String) (payload : Bytes) (place : GeoPoint) : Outline where
  attributes := ["alt_id", "alt_id_standard", "hostility", "callsign", "speed", "course", "vertical_rate", "squawk",
    "on_ground"]
  metadata := ["source_uid", "icao", "payload_truncated", "speed_kn", "vertical_rate_ftmin", "altitude_ft"]
  ids := [id]
  times := [ts]
  places := [place]
  payloads := [payload]

theorem aircraft_fits (hostility : Option String) (id ts : String) (pos : AdsbPosition) :
    Fits (aircraftOutline id ts pos.raw ⟨pos.lat, pos.lon, pos.altM⟩)
      (baseBuilder floats hostility id pos ++ [.timestamp ts]) := by
  apply Fits.of_eq
  · exact (Fits.id id).append (Fits.location _ _ _) |>.append (Fits.payload pos.raw) |>.append (Fits.metadatum _ _)
      |>.append (Fits.metadatum _ _) |>.append (Fits.identity _ _) |>.append (Fits.when (Fits.metadatum _ _))
      |>.append (Fits.ifGiven _ fun _ => Fits.attr _ _) |>.append (Fits.ifGiven _ fun _ => Fits.attr _ _)
      |>.append (Fits.ifGiven _ fun _ => (Fits.attr _ _).append (Fits.metadatum _ _))
      |>.append (Fits.ifGiven _ fun _ => Fits.attr _ _)
      |>.append (Fits.ifGiven _ fun _ => (Fits.attr _ _).append (Fits.metadatum _ _))
      |>.append (Fits.ifGiven _ fun _ => Fits.metadatum _ _) |>.append (Fits.ifGiven _ fun _ => Fits.attr _ _)
      |>.append (Fits.ifGiven _ fun _ => Fits.attr _ _) |>.append (Fits.timestamp ts)
  · simp [Outline.append, aircraftOutline]

theorem aircraft_namespaced : Rust.isNamespaced "mim:aircraft" = true := by decide

theorem aircraft_attributes {id ts : String} {payload : Bytes} {place : GeoPoint} :
    (aircraftOutline id ts payload place).attributes.Nodup := by
  simp [aircraftOutline]

theorem aircraft_metadata {id ts : String} {payload : Bytes} {place : GeoPoint} :
    (aircraftOutline id ts payload place).metadata.Nodup := by
  simp [aircraftOutline]

/-- A position is built exactly when there is a source id and its place is valid. -/
theorem aircraft_built_iff (sourceId : String) (hostility : Option String) (id : String) {ts : String}
    (dated : Rust.isRfc3339 ts = true) (pos : AdsbPosition) :
    (∃ event, Rust.run sourceId "mim:aircraft" (baseBuilder floats hostility id pos ++ [.timestamp ts]) = .ok event) ↔
      sourceId ≠ "" ∧ Rust.validLocation ⟨pos.lat, pos.lon, pos.altM⟩ = true := by
  have fits : Fits _ (baseBuilder floats hostility id pos ++ [.timestamp ts]) := aircraft_fits floats hostility id ts pos
  rw [fits.built_iff aircraft_namespaced aircraft_attributes (by simp [aircraftOutline, maxAttributes]) aircraft_metadata
    (by simp [aircraftOutline, maxMetadata]) rfl rfl rfl, and_iff_right dated]

theorem aircraft_event {sourceId : String} {hostility : Option String} {id ts : String} {pos : AdsbPosition} {event : Event}
    (built : Rust.run sourceId "mim:aircraft" (baseBuilder floats hostility id pos ++ [.timestamp ts]) = .ok event) :
    event.payload = pos.raw ∧ ⟨"icao", String.ofList pos.icao⟩ ∈ event.metadata := by
  have fits : Fits _ (baseBuilder floats hostility id pos ++ [.timestamp ts]) := aircraft_fits floats hostility id ts pos
  rcases (run_ok built).1 with ⟨id', ts', rfl⟩
  have records := eventOf_records sourceId "mim:aircraft" (baseBuilder floats hostility id pos ++ [.timestamp ts]) id' ts'
    (lastGiven Call.location? (baseBuilder floats hostility id pos ++ [.timestamp ts]))
  constructor
  · apply records.payload.trans
    rw [fits.payloads]
    rfl
  · apply (records.metadata _ _).mpr
    delta baseBuilder
    simp only [List.mem_append, List.mem_singleton, true_or, or_true]

section

variable {frame : Bytes} {line address : Text} {parts : List Text} {tx : Nat} {lat lon : F64}

theorem fix_between (found : fix floats parts = some (tx, lat, lon)) :
    F64.between Rust.minusNinety Rust.ninety lat = true ∧ F64.between Rust.minusOneEighty Rust.oneEighty lon = true := by
  unfold fix at found
  repeat' split at found
  all_goals try cases found
  rename_i inside
  rw [Bool.and_eq_true] at inside
  exact inside

/-- What a position line gives: the place it states, the altitude known then, and all that waits. -/
theorem parseLine_position (read : readLine frame = .ok (some (line, parts))) (kind : parts.headD [] = "MSG".toList)
    (named : field parts 4 = some address) (found : fix floats parts = some (tx, lat, lon)) :
    ∃ pos p', p.parseLine floats frame = (.ok (some pos), p') ∧ p'.sourceId = p.sourceId ∧ pos.icao = address.map Char.toUpper ∧
      pos.lat = lat ∧ pos.lon = lon ∧
      pos.altM = ((p.altitudeAfter floats (address.map Char.toUpper) parts).map fun ft => floats.mul ft ftToM).getD .zero ∧
      pos.raw = [10].intercalate ((p.aircraft.value (address.map Char.toUpper)).take floats line parts).1.carry.pending := by
  have altitude : altitudeM floats ((p.aircraft.value (address.map Char.toUpper)).take floats line parts).1.state =
      ((p.altitudeAfter floats (address.map Char.toUpper) parts).map fun ft => floats.mul ft ftToM).getD .zero := by
    rw [AdsbParser.altitudeAfter, AdsbParser.cachedAltitude, StateCache.value]
    cases p.aircraft.map (address.map Char.toUpper) <;> rfl
  rw [AdsbParser.parseLine, read]
  dsimp only
  rw [if_neg (not_not.mpr kind), named]
  dsimp only
  rw [found, value_entry_self]
  exact ⟨_, _, rfl, rfl, rfl, rfl, rfl, altitude, rfl⟩

theorem intercalate_ends (before : List Bytes) (raw : Bytes) : raw <:+ [10].intercalate (before ++ [raw]) := by
  induction before with
  | nil => exact ⟨[], by simp [List.intercalate]⟩
  | cons first before ih =>
    rcases ih with ⟨front, whole⟩
    refine ⟨first ++ [10] ++ front, ?_⟩
    rw [List.append_assoc, whole]
    cases before <;> simp [List.intercalate]

/-- The line is in what waits after it exactly when it fits the buffer. -/
theorem line_carried_iff (line : Text) (parts : List Text) {e : Entry} (counted : e.carry.pendingBytes = totalSize List.length e.carry.pending) :
    Utf8.encodeText line <:+: [10].intercalate (e.take floats line parts).1.carry.pending ↔
      (Utf8.encodeText line).length ≤ carryCaps.bytes := by
  constructor
  · intro inside
    by_contra long
    have gone : (e.take floats line parts).1.carry.pending = [] := pushRaw_too_long counted (Nat.not_le.mp long)
    rw [gone] at inside
    have none : Utf8.encodeText line = [] := List.infix_nil.mp inside
    rw [none] at long
    exact long (Nat.zero_le _)
  · intro fits
    have kept : ∃ before, (e.take floats line parts).1.carry.pending = before ++ [Utf8.encodeText line] :=
      pushRaw_keeps (by decide) counted fits
    rcases kept with ⟨before, pending⟩
    rw [pending]
    exact (intercalate_ends before _).isInfix

theorem validLocation_iff {altM : F64} (latitude : F64.between Rust.minusNinety Rust.ninety lat = true)
    (longitude : F64.between Rust.minusOneEighty Rust.oneEighty lon = true) :
    Rust.validLocation ⟨lat, lon, altM⟩ = true ↔ altM.isFinite = true := by
  have first := EventProof.finite_of_between latitude (by decide) (by decide)
  have second := EventProof.finite_of_between longitude (by decide) (by decide)
  rw [F64.between] at latitude longitude
  simp only [Rust.validLocation, first, second, latitude, longitude, Bool.true_and, Bool.and_true]

theorem altitude_finite_iff (altitude : Option F64) :
    ((altitude.map fun ft => floats.mul ft ftToM).getD .zero).isFinite = true ↔
      ∀ ft ∈ altitude, (floats.mul ft ftToM).isFinite = true := by
  cases altitude with
  | none =>
    constructor
    · intro _ ft found
      cases found
    · intro _
      change F64.zero.isFinite = true
      decide
  | some ft => simp

end

/-- After any history, a position line of an aircraft is published with its payload exactly when there
    is a source id, the line fits the buffer, and the altitude that is known for the aircraft is finite
    in metres. -/
theorem position_is_published_iff (sourceId : String) (hostility : Option String) (history : List Arrival) (a : Arrival)
    (line address : Text) (parts : List Text) (tx : Nat) (lat lon : F64) (dated : Rust.isRfc3339 a.clock = true)
    (read : readLine a.frame = .ok (some (line, parts))) (kind : parts.headD [] = "MSG".toList)
    (named : field parts 4 = some address) (found : fix floats parts = some (tx, lat, lon)) :
    (∃ event, ((AdsbParser.run floats { sourceId := sourceId, hostility := hostility } history).parse floats a).1 = .ok [event] ∧
      ⟨"icao", String.ofList (address.map Char.toUpper)⟩ ∈ event.metadata ∧ Utf8.encodeText line <:+: event.payload) ↔
    sourceId ≠ "" ∧ (Utf8.encodeText line).length ≤ carryCaps.bytes ∧
      ∀ ft ∈ (AdsbParser.run floats { sourceId := sourceId, hostility := hostility } history).altitudeAfter floats
        (address.map Char.toUpper) parts, (floats.mul ft ftToM).isFinite = true := by
  have counted : Counted (AdsbParser.run floats { sourceId := sourceId, hostility := hostility } history) :=
    run_counted floats (fun _ => rfl) history
  have source : (AdsbParser.run floats { sourceId := sourceId, hostility := hostility } history).sourceId = sourceId :=
    run_sourceId floats history
  generalize AdsbParser.run floats { sourceId := sourceId, hostility := hostility } history = p at counted source ⊢
  rcases parseLine_position floats (p := p) read kind named found with
    ⟨pos, p', parsed, same, icao, latitude, longitude, altitude, raw⟩
  have globe := fix_between floats found
  have carried := line_carried_iff floats line parts (counted (address.map Char.toUpper))
  have built := aircraft_built_iff floats p'.sourceId p'.hostility a.id dated pos
  rw [latitude, longitude, validLocation_iff globe.1 globe.2, altitude, altitude_finite_iff, same, source] at built
  rw [← carried, ← raw]
  cases run : Rust.run sourceId "mim:aircraft" (baseBuilder floats p'.hostility a.id pos ++ [.timestamp a.clock]) with
  | error e =>
    have parse : (p.parse floats a).1 = .error (.build e) := by
      rw [AdsbParser.parse, parsed]
      dsimp only
      rw [same, source, run]
    rw [parse]
    constructor
    · rintro ⟨event, published, _⟩
      cases published
    · rintro ⟨given, _, finite⟩
      rcases built.mpr ⟨given, finite⟩ with ⟨event, success⟩
      rw [run] at success
      cases success
  | ok event =>
    have parse : (p.parse floats a).1 = .ok [event] := by
      rw [AdsbParser.parse, parsed]
      dsimp only
      rw [same, source, run]
    have content := aircraft_event floats run
    rw [icao] at content
    have valid := built.mp ⟨event, run⟩
    rw [parse, ← content.1]
    constructor
    · rintro ⟨other, published, _, inside⟩
      cases published
      exact ⟨valid.1, inside, valid.2⟩
    · rintro ⟨_, inside, _⟩
      exact ⟨event, rfl, content.2, inside⟩

/-- Float operations that are right on the numbers of the lines below. -/
def fewFloats : Floats where
  ofInt _ := .zero
  add _ _ := .zero
  mul a b :=
    if a = ⟨0x40e28e0000000000⟩ ∧ b = ftToM then ⟨0x40c69f3333333334⟩
    else if a = ⟨0x7ff0000000000000⟩ then ⟨0x7ff0000000000000⟩ else .zero
  div _ _ := .zero
  parse text := match text with
    | "51.50000" => some ⟨0x4049c00000000000⟩
    | "-0.50000" => some ⟨0xbfe0000000000000⟩
    | "38000" => some ⟨0x40e28e0000000000⟩
    | "inf" => some ⟨0x7ff0000000000000⟩
    | _ => none
  display _ := ""
  fixed _ x := if x = ⟨0x40e28e0000000000⟩ then "38000" else "inf"

def arrival (line : String) : Arrival :=
  ⟨Utf8.encodeText line.toList, "01890a5d-ac96-774b-bcce-b302099a8057", "2026-06-10T08:00:00Z"⟩

/-- MSG,3 for ICAO 4CA2D6 at 51.5 N, 0.5 W, 38000 ft, airborne. -/
def airborne : String :=
  "MSG,3,1,1,4CA2D6,1,2026/06/10,08:00:00.000,2026/06/10,08:00:00.000,,38000,,,51.50000,-0.50000,,,,,,0"

/-- The same without an altitude of its own. -/
def airborneBlank : String :=
  "MSG,3,1,1,4CA2D6,1,2026/06/10,08:00:00.000,2026/06/10,08:00:00.000,,,,,51.50000,-0.50000,,,,,,0"

/-- MSG,5 for the same aircraft, with an altitude that is no number of feet. -/
def boundless : String := "MSG,5,1,1,4CA2D6,1,2026/06/10,08:00:00.000,2026/06/10,08:00:00.000,,inf,,,,,,,,,,0"

theorem airborne_is_published :
    ∃ event, ((AdsbParser.run fewFloats { sourceId := "adsb-1", hostility := none } [arrival boundless]).parse fewFloats
        (arrival airborne)).1 = .ok [event] ∧
      ⟨"icao", "4CA2D6"⟩ ∈ event.metadata ∧ Utf8.encodeText airborne.toList <:+: event.payload := by
  have published := position_is_published_iff fewFloats "adsb-1" none [arrival boundless] (arrival airborne) airborne.toList
    "4CA2D6".toList (airborne.toList.splitOn ',') 3 ⟨0x4049c00000000000⟩ ⟨0xbfe0000000000000⟩ (by decide)
    (by
      rw [readLine, show (arrival airborne).frame = Utf8.encodeText airborne.toList from rfl, Utf8.decode_encodeText]
      have plain : TextModel.trimEndMatches (fun c => c == '\r' || c == '\n') airborne.toList = airborne.toList := by
        decide
      dsimp only
      rw [plain]
      rfl)
    (by decide) (by decide) (by decide)
  exact published.mpr ⟨by decide, by decide, by decide⟩

/-- After a line whose altitude reads as infinity, a good position of the aircraft is refused. -/
theorem boundless_altitude_silences :
    fix fewFloats (airborneBlank.toList.splitOn ',') = some (3, ⟨0x4049c00000000000⟩, ⟨0xbfe0000000000000⟩) ∧
    ¬ ∃ event, ((AdsbParser.run fewFloats { sourceId := "adsb-1", hostility := none } [arrival boundless]).parse fewFloats
        (arrival airborneBlank)).1 = .ok [event] := by
  refine ⟨by decide, ?_⟩
  have refused : ((AdsbParser.run fewFloats { sourceId := "adsb-1", hostility := none } [arrival boundless]).parse fewFloats
      (arrival airborneBlank)).1.toOption = none := by decide +kernel
  rintro ⟨event, published⟩
  rw [published] at refused
  cases refused

end AdsbProof
