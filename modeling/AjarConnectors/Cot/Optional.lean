import AjarConnectors.Cot.Outcome

namespace CotModel

open EventModel BuilderModel

section

variable (floats : Floats) (p : CotParser) (events : List XmlEvent)

/-- A document with all that makes a track; hae, course, speed, confidence and callsign are whatever they are. -/
structure TrackGiven (uid time : String) (lat lon : F64) : Prop where
  named : said "event" "uid" events = some uid
  typed : ∃ cotType, said "event" "type" events = some cotType ∧ Rust.isNamespaced (p.mapType cotType) = true
  timed : said "event" "time" events = some time
  dated : Rust.isRfc3339 time = true
  coordinates : ∀ w ∈ events.flatMap XmlEvent.writes, Readable floats w
  northward : (said "point" "lat" events).bind floats.parse = some lat
  eastward : (said "point" "lon" events).bind floats.parse = some lon
  latInRange : F64.between Rust.minusNinety Rust.ninety lat = true
  lonInRange : F64.between Rust.minusOneEighty Rust.oneEighty lon = true

/-- An event with this uid, time and position. -/
def TrackKept (made : Except CotError Event) (uid time : String) (lat lon : F64) : Prop :=
  ∃ event, made = .ok event ∧ ⟨"source_uid", uid⟩ ∈ event.metadata ∧ event.timestamp = time ∧
    ∃ altitudeM, event.location = some ⟨lat, lon, altitudeM⟩

/-- The last height is no number or a finite one, and the first number among the strings in which the confidence is sought
    is not a NaN. -/
structure Harmless : Prop where
  hae : ∀ s v, said "point" "hae" events = some s → floats.parse s = some v → v.isFinite = true
  confidence : ∀ v, (Sought.of events).texts.findSome? floats.parse = some v → v.isNaN = false

end

end CotModel

namespace CotProof

open EventModel EventProof BuilderModel CotModel

theorem clampUnit_outside (x : F64) : Rust.outsideUnit (clampUnit x) = x.isNaN := by
  have zero : F64.zero.rank = 0 := by decide
  have one : F64.one.rank = 0x3ff0000000000000 := by decide
  have bounds : F64.zero.isNaN = false ∧ F64.one.isNaN = false := by decide
  rw [clampUnit]
  cases nan : x.isNaN with
  | true =>
    simp [F64.lt, F64.le, Rust.outsideUnit, nan]
  | false =>
    by_cases low : x.lt .zero = true
    · rw [if_pos low]
      decide
    · rw [if_neg low]
      by_cases high : F64.one.lt x = true
      · rw [if_pos high]
        decide
      · rw [if_neg high]
        simp only [F64.lt, nan, bounds, Bool.not_false, Bool.and_self, Bool.true_and, decide_eq_true_eq, zero, one] at low high
        simp only [Rust.outsideUnit, F64.le, nan, bounds, Bool.not_false, Bool.and_self, Bool.true_and, zero, one]
        simp only [Bool.not_eq_false', Bool.and_eq_true, decide_eq_true_eq]
        omega

theorem findSome_map {α β γ : Type} (f : α → Option β) (g : β → γ) (l : List α) :
    l.findSome? (fun a => (f a).map g) = (l.findSome? f).map g := by
  induction l with
  | nil => rfl
  | cons a l ih =>
    rw [List.findSome?_cons, List.findSome?_cons]
    cases f a with
    | none => exact ih
    | some b => rfl

section

variable {floats : Floats} (divides : ∀ v, F64.lt .one v = true → (floats.div v hundred).isNaN = false)
include divides

/-- A confidence is refused only as a NaN, and is one only if it was written as one. -/
theorem confidence_outside_iff (s : Sought) :
    Rust.outsideUnit ((s.confidence floats).getD .zero) = false ↔
      ∀ v, s.texts.findSome? floats.parse = some v → v.isNaN = false := by
  have first : s.confidence floats =
      (s.texts.findSome? floats.parse).map fun v => clampUnit (if F64.lt .one v then floats.div v hundred else v) :=
    findSome_map floats.parse _ s.texts
  rw [first]
  cases s.texts.findSome? floats.parse with
  | none => exact ⟨fun _ v found => absurd found nofun, fun _ => (by decide : Rust.outsideUnit .zero = false)⟩
  | some v =>
    rw [Option.map_some, Option.getD_some, clampUnit_outside]
    have same : (if F64.lt .one v then floats.div v hundred else v).isNaN = v.isNaN := by
      by_cases percent : F64.lt .one v = true
      · have number : v.isNaN = false := by
          simp only [F64.lt, Bool.and_eq_true, Bool.not_eq_true'] at percent
          exact percent.1.2
        rw [if_pos percent, divides v percent, number]
      · rw [if_neg percent]
    rw [same]
    constructor
    · intro number w found
      cases found
      exact number
    · intro each
      exact each v rfl

end

section

variable {floats : Floats} {p : CotParser} {events : List XmlEvent} {uid time : String} {lat lon : F64}

theorem place_given (given : TrackGiven floats p events uid time lat lon) :
    placeSaid floats events = some ⟨lat, lon, haeSaid floats events⟩ := by
  rw [placeSaid, given.northward, given.eastward]
  rfl

theorem place_valid_iff (given : TrackGiven floats p events uid time lat lon) :
    (∀ loc, placeSaid floats events = some loc → Rust.validLocation loc = true) ↔
      ∀ s v, said "point" "hae" events = some s → floats.parse s = some v → v.isFinite = true := by
  have latFinite : lat.isFinite = true := finite_of_between given.latInRange (by decide) (by decide)
  have lonFinite : lon.isFinite = true := finite_of_between given.lonInRange (by decide) (by decide)
  have latInside := given.latInRange
  have lonInside := given.lonInRange
  rw [F64.between] at latInside lonInside
  have height : Rust.validLocation ⟨lat, lon, haeSaid floats events⟩ = (haeSaid floats events).isFinite := by
    rw [Rust.validLocation, latFinite, lonFinite, latInside, lonInside]
    simp
  rw [place_given given]
  constructor
  · intro valid s v last parsed
    have finite := valid _ rfl
    rw [height, haeSaid, last, Option.bind_some, parsed] at finite
    exact finite
  · intro finite loc placed
    cases placed
    rw [height, haeSaid]
    cases last : said "point" "hae" events with
    | none => exact (by decide : F64.zero.isFinite = true)
    | some s =>
      cases parsed : floats.parse s with
      | none =>
        rw [Option.bind_some, parsed]
        exact (by decide : F64.zero.isFinite = true)
      | some v =>
        rw [Option.bind_some, parsed]
        exact finite s v last parsed

theorem given_acceptable (given : TrackGiven floats p events uid time lat lon) (source : p.sourceId ≠ "")
    (hae : ∀ s v, said "point" "hae" events = some s → floats.parse s = some v → v.isFinite = true) :
    Acceptable floats p events :=
  ⟨source, given.coordinates, by rw [given.named]; rfl, given.typed, ⟨time, given.timed, given.dated⟩,
    (place_valid_iff given).mpr hae⟩

end

/-- Optional fields cost the track exactly when the height is an infinity or a NaN, or the confidence a NaN. -/
theorem track_kept_iff (floats : Floats) (divides : ∀ v, F64.lt .one v = true → (floats.div v hundred).isNaN = false)
    (p : CotParser) (reader : Bytes → Reading) (newId : String) (native : Bytes) (events : List XmlEvent)
    (read : reader native = { events := events }) (uid time : String) (lat lon : F64)
    (given : TrackGiven floats p events uid time lat lon) :
    TrackKept (p.toEvent floats reader newId native) uid time lat lon ↔ p.sourceId ≠ "" ∧ Harmless floats events := by
  constructor
  · rintro ⟨event, made, _⟩
    obtain ⟨⟨acceptable, inside⟩, _⟩ := toEvent_tells read made
    exact ⟨acceptable.source, (place_valid_iff given).mp acceptable.place, (confidence_outside_iff divides _).mp inside⟩
  · rintro ⟨source, harmless⟩
    have accepted : ∃ event, p.toEvent floats reader newId native = .ok event :=
      toEvent_accepts read (given_acceptable given source harmless.hae)
        ((confidence_outside_iff divides _).mpr harmless.confidence)
    obtain ⟨event, made⟩ := accepted
    obtain ⟨_, tells⟩ := toEvent_tells read made
    obtain ⟨said, same, noted⟩ := tells.uid
    rw [given.named] at same
    cases same
    have stamped := tells.time
    rw [given.timed] at stamped
    have placed := tells.place
    rw [place_given given] at placed
    exact ⟨event, made, noted, (Option.some.inj stamped).symm, _, placed⟩

/-- The numbers of the documents below; no confidence in them is a percentage. -/
def trackFloats : Floats :=
  { Floats.idle with
    div := fun _ _ => .one
    parse := fun text => match text with
      | "26.4" => some ⟨0x403a666666666666⟩
      | "50.9" => some ⟨0x4049733333333333⟩
      | "1200.0" => some ⟨0x4092c00000000000⟩
      | "0.87" => some ⟨0x3febd70a3d70a3d7⟩
      | "-3.0" => some ⟨0xc008000000000000⟩
      | "inf" => some ⟨0x7ff0000000000000⟩
      | "nan" => some ⟨0x7ff8000000000000⟩
      | _ => none }

/-- A track with odd kinematics, at this height and with this confidence. -/
def oddTrack (hae confidence : String) : List XmlEvent :=
  [.start "event" [("version", "2.0"), ("uid", "AD-7741"), ("type", "a-f-A-M-F-Q"), ("time", "2026-06-10T08:00:00Z")],
    .empty "point" [("lat", "26.4"), ("lon", "50.9"), ("hae", hae)], .start "detail" [], .empty "contact" [("callsign", "")],
    .empty "track" [("course", "north"), ("speed", "-3.0")], .empty "confidence" [("value", confidence)], .other, .other]

def fieldParser : CotParser := ⟨"tak-field-1", fun _ => none⟩

theorem oddTrack_given (hae confidence : String) :
    TrackGiven trackFloats fieldParser (oddTrack hae confidence) "AD-7741" "2026-06-10T08:00:00Z" ⟨0x403a666666666666⟩
      ⟨0x4049733333333333⟩ := by
  constructor
  · rfl
  · exact ⟨"a-f-A-M-F-Q", rfl, by decide⟩
  · rfl
  · decide
  · simp [oddTrack, XmlEvent.writes, Readable, trackFloats]
  · rfl
  · rfl
  · decide
  · decide

theorem odd_track_is_kept :
    TrackKept (fieldParser.toEvent trackFloats (fun _ => { events := oddTrack "1200.0" "0.87" }) "new" []) "AD-7741"
      "2026-06-10T08:00:00Z" ⟨0x403a666666666666⟩ ⟨0x4049733333333333⟩ := by
  apply (track_kept_iff trackFloats (fun _ _ => (by decide : F64.one.isNaN = false)) fieldParser _ "new" [] _ rfl _ _ _ _ (oddTrack_given "1200.0" "0.87")).mpr
  apply And.intro (by decide)
  constructor
  · intro s v last parsed
    cases last
    cases parsed
    decide
  · intro v found
    cases found
    decide

/-- An infinite height costs the track, and so does a confidence that is not a number. -/
theorem infinite_height_costs_the_track :
    (TrackGiven trackFloats fieldParser (oddTrack "inf" "0.87") "AD-7741" "2026-06-10T08:00:00Z" ⟨0x403a666666666666⟩
        ⟨0x4049733333333333⟩ ∧
      ¬ TrackKept (fieldParser.toEvent trackFloats (fun _ => { events := oddTrack "inf" "0.87" }) "new" []) "AD-7741"
        "2026-06-10T08:00:00Z" ⟨0x403a666666666666⟩ ⟨0x4049733333333333⟩) ∧
    TrackGiven trackFloats fieldParser (oddTrack "1200.0" "nan") "AD-7741" "2026-06-10T08:00:00Z" ⟨0x403a666666666666⟩
        ⟨0x4049733333333333⟩ ∧
      ¬ TrackKept (fieldParser.toEvent trackFloats (fun _ => { events := oddTrack "1200.0" "nan" }) "new" []) "AD-7741"
        "2026-06-10T08:00:00Z" ⟨0x403a666666666666⟩ ⟨0x4049733333333333⟩ := by
  refine ⟨⟨oddTrack_given "inf" "0.87", ?_⟩, oddTrack_given "1200.0" "nan", ?_⟩
  · rintro ⟨event, made, _⟩
    obtain ⟨⟨acceptable, _⟩, _⟩ := toEvent_tells rfl made
    have finite := (place_valid_iff (oddTrack_given "inf" "0.87")).mp acceptable.place "inf" ⟨0x7ff0000000000000⟩ rfl rfl
    exact absurd finite (by decide)
  · rintro ⟨event, made, _⟩
    obtain ⟨⟨_, inside⟩, _⟩ := toEvent_tells rfl made
    exact absurd inside (by decide)

end CotProof
