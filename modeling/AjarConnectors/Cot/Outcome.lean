import AjarConnectors.Cot.Parser
import AjarConnectors.Registers.Latest

namespace CotModel

open EventModel TextModel BuilderModel

/-- The attributes of an event, each as element, key and value. -/
def XmlEvent.writes : XmlEvent → List (String × String × String)
  | .start name attributes => attributes.map fun a => (name, a.1, a.2)
  | .empty name attributes => attributes.map fun a => (name, a.1, a.2)
  | .text _ => []
  | .other => []

def valued (name key : String) (w : String × String × String) : Option String :=
  if w.1 = name ∧ w.2.1 = key then some w.2.2 else none

/-- What a document says last in an attribute. -/
def said (name key : String) (events : List XmlEvent) : Option String :=
  Registers.latest (valued name key) (events.flatMap XmlEvent.writes)

/-- The strings in which the confidence is sought, and whether the next text is one of them. -/
structure Sought where
  waiting : Bool := false
  texts : List String := []

def Sought.tag (s : Sought) (name : String) (attributes : List (String × String)) : Sought :=
  if name = "confidence" then
    { waiting := true
      texts := match Registers.latest (valued name "value") (attributes.map fun a => (name, a.1, a.2)) with
        | some value => [value]
        | none => s.texts }
  else s

def Sought.step (s : Sought) : XmlEvent → Sought
  | .start name attributes => s.tag name attributes
  | .empty name attributes => s.tag name attributes
  | .text content => if s.waiting then { waiting := false, texts := s.texts ++ [trim content] } else s
  | .other => s

def Sought.of (events : List XmlEvent) : Sought := events.foldl Sought.step {}

section

variable (floats : Floats)

/-- The first of these strings that is a number. -/
def Sought.confidence (s : Sought) : Option F64 := s.texts.findSome? (normalizeConfidence floats)

def haeSaid (events : List XmlEvent) : F64 := ((said "point" "hae" events).bind floats.parse).getD .zero

/-- A place, if both coordinates are there. -/
def placeAt (lat lon : Option F64) (haeM : F64) : Option GeoPoint :=
  match lat, lon with
  | some lat, some lon => some ⟨lat, lon, haeM⟩
  | _, _ => none

def placeSaid (events : List XmlEvent) : Option GeoPoint :=
  placeAt ((said "point" "lat" events).bind floats.parse) ((said "point" "lon" events).bind floats.parse)
    (haeSaid floats events)

/-- A coordinate has to be a number. -/
def Readable (w : String × String × String) : Prop :=
  w.1 = "point" → w.2.1 = "lat" ∨ w.2.1 = "lon" → (floats.parse w.2.2).isSome = true

/-- What `to_event` asks of a document, but for the confidence. -/
structure Acceptable (p : CotParser) (events : List XmlEvent) : Prop where
  source : p.sourceId ≠ ""
  coordinates : ∀ w ∈ events.flatMap XmlEvent.writes, Readable floats w
  uid : (said "event" "uid" events).isSome = true
  type : ∃ cotType, said "event" "type" events = some cotType ∧ Rust.isNamespaced (p.mapType cotType) = true
  time : ∃ time, said "event" "time" events = some time ∧ Rust.isRfc3339 time = true
  place : ∀ loc, placeSaid floats events = some loc → Rust.validLocation loc = true

/-- An event says what its document says. -/
structure Tells (events : List XmlEvent) (event : Event) : Prop where
  uid : ∃ uid, said "event" "uid" events = some uid ∧ ⟨"source_uid", uid⟩ ∈ event.metadata
  time : said "event" "time" events = some event.timestamp
  place : event.location = placeSaid floats events
  confidence : event.confidence = ((Sought.of events).confidence floats).getD .zero

end

end CotModel

namespace CotProof

open EventModel BuilderModel BuilderProof CotModel Registers

instance (floats : Floats) (w : String × String × String) : Decidable (Readable floats w) :=
  inferInstanceAs (Decidable (w.1 = "point" → w.2.1 = "lat" ∨ w.2.1 = "lon" → (floats.parse w.2.2).isSome = true))

/-- What a stretch of attributes does to the variables of `to_event`. -/
structure Gathers (floats : Floats) (f : Found) (writes : List (String × String × String)) (f' : Found) : Prop where
  uid : f'.uid = (latest (valued "event" "uid") writes).or f.uid
  cotType : f'.cotType = (latest (valued "event" "type") writes).or f.cotType
  time : f'.time = (latest (valued "event" "time") writes).or f.time
  lat : f'.lat = ((latest (valued "point" "lat") writes).bind floats.parse).or f.lat
  lon : f'.lon = ((latest (valued "point" "lon") writes).bind floats.parse).or f.lon
  haeM : f'.haeM = ((latest (valued "point" "hae") writes).map fun s => (floats.parse s).getD .zero).getD f.haeM
  confidence : f'.confidence = ((latest (valued "confidence" "value") writes).map (normalizeConfidence floats)).getD f.confidence
  waits : f'.inConfidence = f.inConfidence
  saw : f'.sawEvent = f.sawEvent
  coordinates : ∀ w ∈ writes, Readable floats w

section

variable {floats : Floats}

theorem gathers_nil (f : Found) : Gathers floats f [] f := by
  constructor <;> first | rfl | (intro w member; cases member)

/-- Where the later value is a number, only it counts. -/
theorem parse_or {later earlier : Option String} (number : ∀ s, later = some s → (floats.parse s).isSome = true) :
    (later.or earlier).bind floats.parse = (later.bind floats.parse).or (earlier.bind floats.parse) := by
  cases later with
  | none => rfl
  | some s =>
    obtain ⟨v, parsed⟩ := Option.isSome_iff_exists.mp (number s rfl)
    simp only [Option.some_or, Option.bind_some, parsed]

theorem coordinate_parses {writes : List (String × String × String)} (readable : ∀ w ∈ writes, Readable floats w) {key : String}
    (coordinate : key = "lat" ∨ key = "lon") (s : String) (last : latest (valued "point" key) writes = some s) :
    (floats.parse s).isSome = true := by
  obtain ⟨w, member, value⟩ := latest_eq_some last
  rw [valued] at value
  by_cases here : w.1 = "point" ∧ w.2.1 = key
  · rw [if_pos here] at value
    cases value
    exact readable w member here.1 (here.2 ▸ coordinate)
  · rw [if_neg here] at value
    cases value

theorem Gathers.append {f f' f'' : Found} {first second : List (String × String × String)} (here : Gathers floats f first f')
    (later : Gathers floats f' second f'') : Gathers floats f (first ++ second) f'' := by
  have lat := coordinate_parses later.coordinates (Or.inl rfl)
  have lon := coordinate_parses later.coordinates (Or.inr rfl)
  constructor
  · rw [later.uid, here.uid, latest_append, Option.or_assoc]
  · rw [later.cotType, here.cotType, latest_append, Option.or_assoc]
  · rw [later.time, here.time, latest_append, Option.or_assoc]
  · rw [later.lat, here.lat, latest_append, parse_or lat, Option.or_assoc]
  · rw [later.lon, here.lon, latest_append, parse_or lon, Option.or_assoc]
  · rw [later.haeM, here.haeM, latest_append]
    cases latest (valued "point" "hae") second <;> rfl
  · rw [later.confidence, here.confidence, latest_append]
    cases latest (valued "confidence" "value") second <;> rfl
  · rw [later.waits, here.waits]
  · rw [later.saw, here.saw]
  · intro w member
    rcases List.mem_append.mp member with member | member
    · exact here.coordinates w member
    · exact later.coordinates w member

theorem gathers_foldl {name : String} {g : Found → String × String → Found}
    (each : ∀ f a, Gathers floats f [(name, a.1, a.2)] (g f a)) (attributes : List (String × String)) (f : Found) :
    Gathers floats f (attributes.map fun a => (name, a.1, a.2)) (attributes.foldl g f) := by
  induction attributes generalizing f with
  | nil => exact gathers_nil f
  | cons a attributes ih => exact (each f a).append (ih (g f a))

theorem gathers_foldlM {name : String} {g : Found → String × String → Except CotError Found}
    (each : ∀ f a f', g f a = .ok f' → Gathers floats f [(name, a.1, a.2)] f') {attributes : List (String × String)}
    {f f' : Found} (run : attributes.foldlM g f = .ok f') :
    Gathers floats f (attributes.map fun a => (name, a.1, a.2)) f' := by
  induction attributes generalizing f with
  | nil =>
    cases run
    exact gathers_nil _
  | cons a attributes ih =>
    rw [List.foldlM_cons] at run
    cases here : g f a with
    | error e =>
      rw [here] at run
      cases run
    | ok next =>
      rw [here] at run
      exact (each _ a next here).append (ih run)

theorem eventAttribute_gathers (f : Found) (a : String × String) :
    Gathers floats f [("event", a.1, a.2)] (f.eventAttribute a) := by
  obtain ⟨key, value⟩ := a
  unfold Found.eventAttribute
  split <;> constructor <;> simp_all [latest_singleton, valued, Readable]

theorem pointAttribute_gathers (f : Found) (a : String × String) (f' : Found)
    (run : f.pointAttribute floats a = .ok f') : Gathers floats f [("point", a.1, a.2)] f' := by
  obtain ⟨key, value⟩ := a
  unfold Found.pointAttribute at run
  dsimp only at run
  split at run
  · cases parsed : floats.parse value with
    | none =>
      rw [parsed] at run
      cases run
    | some lat =>
      rw [parsed] at run
      cases run
      constructor <;> simp [latest_singleton, valued, Readable, parsed]
  · cases parsed : floats.parse value with
    | none =>
      rw [parsed] at run
      cases run
    | some lon =>
      rw [parsed] at run
      cases run
      constructor <;> simp [latest_singleton, valued, Readable, parsed]
  · cases run
    constructor <;> simp [latest_singleton, valued, Readable]
  · rename_i notLat notLon notHae
    cases run
    constructor <;> simp_all [latest_singleton, valued, Readable]

theorem contactAttribute_gathers (f : Found) (a : String × String) :
    Gathers floats f [("contact", a.1, a.2)] (if a.1 = "callsign" then { f with callsign := some a.2 } else f) := by
  by_cases callsign : a.1 = "callsign" <;> simp only [callsign, if_true, if_false] <;>
    constructor <;> simp [latest_singleton, valued, Readable]

theorem trackAttribute_gathers (f : Found) (a : String × String) :
    Gathers floats f [("track", a.1, a.2)] (f.trackAttribute floats a) := by
  unfold Found.trackAttribute
  split <;> constructor <;> simp [latest_singleton, valued, Readable]

theorem confidenceAttribute_gathers (f : Found) (a : String × String) :
    Gathers floats f [("confidence", a.1, a.2)]
      (if a.1 = "value" then { f with confidence := normalizeConfidence floats a.2 } else f) := by
  by_cases value : a.1 = "value" <;> simp only [value, if_true, if_false] <;>
    constructor <;> simp [latest_singleton, valued, Readable, value]

/-- What a tag sets ahead of its attributes. -/
def entered (f : Found) (name : String) : Found :=
  if name = "event" then { f with sawEvent := true }
  else if name = "confidence" then { f with inConfidence := true } else f

theorem entered_same {β : Type} (get : Found → β) (saw : ∀ f : Found, ∀ b, get { f with sawEvent := b } = get f)
    (waits : ∀ f : Found, ∀ b, get { f with inConfidence := b } = get f) (f : Found) (name : String) :
    get (entered f name) = get f := by
  rw [entered]
  split
  · exact saw f true
  · split
    · exact waits f true
    · rfl

theorem tag_gathers {f f' : Found} {name : String} {attributes : List (String × String)}
    (run : f.tag floats name attributes = .ok f') :
    Gathers floats (entered f name) (attributes.map fun a => (name, a.1, a.2)) f' := by
  unfold Found.tag at run
  split at run
  · cases run
    exact gathers_foldl eventAttribute_gathers attributes _
  · exact gathers_foldlM pointAttribute_gathers run
  · cases run
    exact gathers_foldl contactAttribute_gathers attributes f
  · cases run
    exact gathers_foldl trackAttribute_gathers attributes f
  · cases run
    exact gathers_foldl confidenceAttribute_gathers attributes _
  · rename_i event point contact track confidence
    cases run
    replace event : name ≠ "event" := event
    replace point : name ≠ "point" := point
    replace confidence : name ≠ "confidence" := confidence
    have idle (f : Found) (a : String × String) : Gathers floats f [(name, a.1, a.2)] f := by
      constructor <;> simp [latest_singleton, valued, Readable, event, point, confidence]
    have whole := gathers_foldl idle attributes f
    rw [List.foldl_fixed] at whole
    rw [entered, if_neg event, if_neg confidence]
    exact whole

theorem pointAttribute_runs {a : String × String} (readable : Readable floats ("point", a.1, a.2)) (f : Found) :
    ∃ f', f.pointAttribute floats a = .ok f' := by
  unfold Found.pointAttribute
  split
  · rename_i lat
    obtain ⟨v, parsed⟩ := Option.isSome_iff_exists.mp (readable rfl (Or.inl lat))
    rw [parsed]
    exact ⟨_, rfl⟩
  · rename_i lon
    obtain ⟨v, parsed⟩ := Option.isSome_iff_exists.mp (readable rfl (Or.inr lon))
    rw [parsed]
    exact ⟨_, rfl⟩
  · exact ⟨_, rfl⟩
  · exact ⟨_, rfl⟩

theorem points_run {attributes : List (String × String)} (readable : ∀ a ∈ attributes, Readable floats ("point", a.1, a.2))
    (f : Found) : ∃ f', attributes.foldlM (Found.pointAttribute floats) f = .ok f' := by
  induction attributes generalizing f with
  | nil => exact ⟨f, rfl⟩
  | cons a attributes ih =>
    obtain ⟨next, run⟩ := pointAttribute_runs (readable a List.mem_cons_self) f
    rw [List.foldlM_cons, run]
    exact ih (fun b member => readable b (List.mem_cons_of_mem a member)) next

theorem tag_runs {name : String} {attributes : List (String × String)}
    (readable : ∀ w ∈ attributes.map (fun a => (name, a.1, a.2)), Readable floats w) (f : Found) :
    ∃ f', f.tag floats name attributes = .ok f' := by
  unfold Found.tag
  split
  · exact ⟨_, rfl⟩
  · apply points_run
    intro a member
    exact readable _ (List.mem_map_of_mem member)
  · exact ⟨_, rfl⟩
  · exact ⟨_, rfl⟩
  · exact ⟨_, rfl⟩
  · exact ⟨_, rfl⟩

theorem step_runs {e : XmlEvent} (readable : ∀ w ∈ e.writes, Readable floats w) (f : Found) :
    ∃ f', f.step floats e = .ok f' := by
  cases e with
  | start name attributes => exact tag_runs readable f
  | empty name attributes => exact tag_runs readable f
  | text content =>
    rw [Found.step]
    split <;> exact ⟨_, rfl⟩
  | other => exact ⟨f, rfl⟩

/-- What `to_event` has found after these events. -/
structure Gathered (floats : Floats) (events : List XmlEvent) (f : Found) : Prop where
  uid : f.uid = said "event" "uid" events
  cotType : f.cotType = said "event" "type" events
  time : f.time = said "event" "time" events
  lat : f.lat = (said "point" "lat" events).bind floats.parse
  lon : f.lon = (said "point" "lon" events).bind floats.parse
  haeM : f.haeM = haeSaid floats events
  confidence : f.confidence = (Sought.of events).confidence floats
  waits : f.inConfidence = (Sought.of events).waiting
  saw : f.uid.isSome = true → f.sawEvent = true
  coordinates : ∀ w ∈ events.flatMap XmlEvent.writes, Readable floats w

theorem said_append (name key : String) (before after : List XmlEvent) :
    said name key (before ++ after) =
      (latest (valued name key) (after.flatMap XmlEvent.writes)).or (said name key before) := by
  rw [said, List.flatMap_append, latest_append]
  rfl

theorem sought_concat (events : List XmlEvent) (e : XmlEvent) : Sought.of (events ++ [e]) = (Sought.of events).step e := by
  rw [Sought.of, List.foldl_append]
  rfl

theorem valued_elsewhere {name key other : String} (apart : other ≠ name) (attributes : List (String × String)) :
    latest (valued name key) (attributes.map fun a => (other, a.1, a.2)) = none := by
  apply latest_eq_none_iff.mpr
  intro w member
  obtain ⟨a, _, rfl⟩ := List.mem_map.mp member
  exact if_neg fun both => apart both.1

theorem tag_gathered {events : List XmlEvent} {e : XmlEvent} {name : String} {attributes : List (String × String)} {f f' : Found}
    (gathered : Gathered floats events f) (writes : e.writes = attributes.map fun a => (name, a.1, a.2))
    (sought : ∀ s, Sought.step s e = s.tag name attributes) (run : f.tag floats name attributes = .ok f') :
    Gathered floats (events ++ [e]) f' := by
  have gathers := tag_gathers run
  rw [← writes] at gathers
  have before : ([e] : List XmlEvent).flatMap XmlEvent.writes = e.writes := List.append_nil e.writes
  have lat := coordinate_parses gathers.coordinates (Or.inl rfl)
  have lon := coordinate_parses gathers.coordinates (Or.inr rfl)
  constructor
  · rw [gathers.uid, entered_same Found.uid (fun _ _ => rfl) fun _ _ => rfl, gathered.uid, said_append, before]
  · rw [gathers.cotType, entered_same Found.cotType (fun _ _ => rfl) fun _ _ => rfl, gathered.cotType, said_append, before]
  · rw [gathers.time, entered_same Found.time (fun _ _ => rfl) fun _ _ => rfl, gathered.time, said_append, before]
  · rw [gathers.lat, entered_same Found.lat (fun _ _ => rfl) fun _ _ => rfl, gathered.lat, said_append, before, parse_or lat]
  · rw [gathers.lon, entered_same Found.lon (fun _ _ => rfl) fun _ _ => rfl, gathered.lon, said_append, before, parse_or lon]
  · rw [gathers.haeM, entered_same Found.haeM (fun _ _ => rfl) fun _ _ => rfl, gathered.haeM, haeSaid, haeSaid, said_append, before]
    cases latest (valued "point" "hae") e.writes <;> rfl
  · rw [gathers.confidence, entered_same Found.confidence (fun _ _ => rfl) fun _ _ => rfl, gathered.confidence, sought_concat,
      sought, Sought.tag, writes]
    by_cases here : name = "confidence"
    · rw [if_pos here, here]
      cases latest (valued "confidence" "value") (attributes.map fun a => ("confidence", a.1, a.2)) with
      | none => rfl
      | some value => simp [Sought.confidence]
    · rw [if_neg here, valued_elsewhere here]
      rfl
  · rw [gathers.waits, sought_concat, sought, Sought.tag, entered]
    by_cases here : name = "confidence"
    · simp [here]
    · rw [if_neg here, if_neg here, ← gathered.waits]
      split <;> rfl
  · intro given
    rw [gathers.saw, entered]
    by_cases here : name = "event"
    · rw [if_pos here]
    · rw [gathers.uid, writes, valued_elsewhere here, Option.none_or,
        entered_same Found.uid (fun _ _ => rfl) fun _ _ => rfl] at given
      rw [if_neg here]
      split <;> exact gathered.saw given
  · intro w member
    rw [List.flatMap_append, before] at member
    rcases List.mem_append.mp member with member | member
    · exact gathered.coordinates w member
    · exact gathers.coordinates w member

theorem said_silent {events : List XmlEvent} {e : XmlEvent} (silent : e.writes = []) (name key : String) :
    said name key (events ++ [e]) = said name key events := by
  rw [said, said, List.flatMap_append, List.flatMap_singleton, silent, List.append_nil]

theorem silent_gathered {events : List XmlEvent} {e : XmlEvent} {f : Found} (gathered : Gathered floats events f)
    (silent : e.writes = []) {confidence : Option F64} {waits : Bool}
    (sought : confidence = ((Sought.of events).step e).confidence floats)
    (waiting : waits = ((Sought.of events).step e).waiting) :
    Gathered floats (events ++ [e]) { f with confidence := confidence, inConfidence := waits } := by
  constructor
  · rw [said_silent silent]
    exact gathered.uid
  · rw [said_silent silent]
    exact gathered.cotType
  · rw [said_silent silent]
    exact gathered.time
  · rw [said_silent silent]
    exact gathered.lat
  · rw [said_silent silent]
    exact gathered.lon
  · rw [haeSaid, said_silent silent]
    exact gathered.haeM
  · rw [sought_concat]
    exact sought
  · rw [sought_concat]
    exact waiting
  · exact gathered.saw
  · rw [List.flatMap_append, List.flatMap_singleton, silent, List.append_nil]
    exact gathered.coordinates

theorem step_gathered {events : List XmlEvent} {e : XmlEvent} {f f' : Found} (gathered : Gathered floats events f)
    (run : f.step floats e = .ok f') : Gathered floats (events ++ [e]) f' := by
  cases e with
  | start name attributes => exact tag_gathered gathered rfl (fun _ => rfl) run
  | empty name attributes => exact tag_gathered gathered rfl (fun _ => rfl) run
  | text content =>
    rw [Found.step, gathered.waits] at run
    cases waiting : (Sought.of events).waiting with
    | false =>
      rw [waiting] at run
      cases run
      apply silent_gathered gathered rfl
      · rw [Sought.step, waiting]
        exact gathered.confidence
      · rw [Sought.step, waiting]
        exact gathered.waits
    | true =>
      rw [waiting] at run
      cases run
      apply silent_gathered gathered rfl
      · rw [Sought.step, waiting, gathered.confidence]
        simp [Sought.confidence, List.findSome?_append]
      · rw [Sought.step, waiting]
        rfl
  | other =>
    cases run
    exact silent_gathered gathered rfl gathered.confidence gathered.waits

theorem gathered_nil : Gathered floats [] {} := by
  constructor <;> first | rfl | (intro w member; cases member) | (intro h; cases h)

/-- Whatever is read, what `to_event` has found is what the document says. -/
theorem reading_gathered {events : List XmlEvent} {f : Found} (run : events.foldlM (Found.step floats) {} = .ok f) :
    Gathered floats events f := by
  induction events using List.reverseRecOn generalizing f with
  | nil =>
    cases run
    exact gathered_nil
  | append_singleton events e ih =>
    rw [List.foldlM_append] at run
    cases before : events.foldlM (Found.step floats) {} with
    | error err =>
      rw [before] at run
      cases run
    | ok middle =>
      rw [before] at run
      change (Found.step floats middle e >>= pure) = .ok f at run
      rw [bind_pure] at run
      exact step_gathered (ih before) run

/-- Only a coordinate that is no number stops the reading. -/
theorem reading_runs {events : List XmlEvent} (readable : ∀ w ∈ events.flatMap XmlEvent.writes, Readable floats w) (f : Found) :
    ∃ f', events.foldlM (Found.step floats) f = .ok f' := by
  induction events generalizing f with
  | nil => exact ⟨f, rfl⟩
  | cons e events ih =>
    rw [List.flatMap_cons] at readable
    obtain ⟨next, run⟩ := step_runs (fun w member => readable w (List.mem_append_left _ member)) f
    rw [List.foldlM_cons, run]
    exact ih (fun w member => readable w (List.mem_append_right _ member)) next

theorem toEvent_eq_ok {reader : Bytes → Reading} {p : CotParser} {newId : String} {native : Bytes} {events : List XmlEvent}
    {event : Event} (read : reader native = { events := events }) :
    p.toEvent floats reader newId native = .ok event ↔
      ∃ f uid cotType time, events.foldlM (Found.step floats) {} = .ok f ∧ f.uid = some uid ∧ f.cotType = some cotType ∧
        f.time = some time ∧
        Rust.run p.sourceId (p.mapType cotType) (CotParser.calls floats newId native f uid cotType time) = .ok event := by
  rw [CotParser.toEvent, read]
  dsimp only
  constructor
  · intro made
    cases run : events.foldlM (Found.step floats) {} with
    | error e =>
      rw [run] at made
      cases made
    | ok f =>
      rw [run] at made
      dsimp only at made
      cases saw : f.sawEvent with
      | false =>
        rw [saw] at made
        cases made
      | true =>
        cases uid : f.uid with
        | none =>
          rw [saw, uid] at made
          cases made
        | some u =>
          cases type : f.cotType with
          | none =>
            rw [saw, uid, type] at made
            cases made
          | some cotType =>
            cases time : f.time with
            | none =>
              rw [saw, uid, type, time] at made
              cases made
            | some t =>
              rw [saw, uid, type, time] at made
              dsimp only at made
              cases built : Rust.run p.sourceId (p.mapType cotType) (CotParser.calls floats newId native f u cotType t) with
              | error e =>
                rw [built] at made
                cases made
              | ok built' =>
                rw [built] at made
                cases made
                exact ⟨f, u, cotType, t, rfl, uid, type, time, built⟩
  · rintro ⟨f, uid, cotType, time, run, named, typed, timed, built⟩
    have saw := (reading_gathered run).saw (by rw [named]; rfl)
    rw [run]
    simp only [saw, named, typed, timed, built, Bool.not_true, Bool.false_eq_true, if_false]

section

variable (floats) (newId : String) (native : Bytes) (f : Found) (uid cotType time : String)

/-- The calls that say neither confidence nor place. -/
theorem calls_fit :
    Fits { attributes := ["alt_id", "alt_id_standard", "hostility", "callsign", "course", "speed"]
           metadata := ["source_uid"], ids := [newId], times := [time], payloads := [native]
           places := (placeAt f.lat f.lon f.haeM).toList }
      (CotParser.calls floats newId native { f with confidence := none } uid cotType time) := by
  have start : Fits ⟨[], ["source_uid"], [newId], [time], [], [native]⟩
      [.id newId, .payload native, .timestamp time, .metadata "source_uid" uid] := by
    constructor <;> first | exact List.Sublist.refl _ | exact List.nil_sublist _ | rfl
  have place : Fits { places := (placeAt f.lat f.lon f.haeM).toList } (match f.lat, f.lon with
      | some lat, some lon => [.location lat lon f.haeM]
      | _, _ => []) := by
    cases f.lat with
    | none => exact Fits.empty [] []
    | some lat =>
      cases f.lon with
      | none => exact Fits.empty [] []
      | some lon => exact Fits.location lat lon f.haeM
  have fits := ((((((start.append (Fits.identity "CoT" uid)).append (Fits.attr "hostility" (hostility cotType))).append
    (Fits.ifGiven f.callsign fun callsign => Fits.attr "callsign" callsign)).append
    (Fits.ifGiven (f.courseDeg.filter (F64.between .zero threeSixty)) fun course =>
      Fits.attr "course" (floats.fixed 1 course))).append
    (Fits.ifGiven (f.speedMps.filter (F64.le .zero)) fun speed => Fits.attr "speed" (floats.fixed 2 speed))).append
    (Fits.empty [] [])).append place
  exact fits.of_eq (by simp [Outline.append])

theorem calls_quiet {α : Type} {pick : Call → Option α} (deaf : ∀ c, pick (.confidence c) = none) :
    (CotParser.calls floats newId native f uid cotType time).filterMap pick =
      (CotParser.calls floats newId native { f with confidence := none } uid cotType time).filterMap pick := by
  unfold CotParser.calls
  cases f.confidence with
  | none => rfl
  | some c => simp only [List.filterMap_append, ifGiven, Option.map_some, Option.map_none, Option.getD_some, Option.getD_none,
      List.filterMap_cons_none (deaf c), List.filterMap_nil]

theorem calls_confidence :
    confidenceOf (CotParser.calls floats newId native f uid cotType time) = f.confidence.getD .zero := by
  have silent := (calls_fit floats newId native f uid cotType time).confidence
  unfold CotParser.calls at silent
  rw [List.filterMap_append, List.filterMap_append, List.append_eq_nil_iff, List.append_eq_nil_iff] at silent
  rw [confidenceOf, lastGiven_getLast]
  unfold CotParser.calls
  rw [List.filterMap_append, List.filterMap_append, silent.1.1, silent.2]
  cases f.confidence <;> rfl

theorem calls_place :
    lastGiven Call.location? (CotParser.calls floats newId native f uid cotType time) = placeAt f.lat f.lon f.haeM := by
  rw [lastGiven_getLast, calls_quiet floats newId native f uid cotType time fun _ => rfl, (calls_fit floats newId native f uid cotType time).places]
  cases placeAt f.lat f.lon f.haeM <;> rfl

theorem calls_valid_iff {sourceId entityType : String} :
    CommonlyValid sourceId entityType (CotParser.calls floats newId native f uid cotType time) ↔
      sourceId ≠ "" ∧ Rust.isNamespaced entityType = true := by
  have fits := calls_fit floats newId native f uid cotType time
  have quiet {α : Type} {pick : Call → Option α} (deaf : ∀ c, pick (.confidence c) = none) :=
    calls_quiet floats newId native f uid cotType time deaf
  have strict : Call.allowUnnamespacedEntityType ∉ CotParser.calls floats newId native f uid cotType time := by
    have identified : Call.allowUnnamespacedEntityType ∉ identity "CoT" uid := by
      unfold BuilderModel.identity
      split <;> simp
    unfold CotParser.calls
    cases f.lat <;> cases f.lon <;> simp [mem_ifGiven, identified]
  constructor
  · intro valid
    exact ⟨valid.source, valid.namespaced.resolve_left strict⟩
  · rintro ⟨source, named⟩
    have filled : entityType ≠ "" := by
      rintro rfl
      exact absurd named (by decide)
    apply CommonlyValid.mk source filled (Or.inr named)
    · rw [quiet fun _ => rfl, fits.tags]
      exact Nat.zero_le _
    · have count := fits.attributes.length_le
      rw [attributeKeys, List.length_map] at count
      rw [quiet fun _ => rfl]
      exact count.trans (show 6 ≤ maxAttributes by decide)
    · have count := fits.metadata.length_le
      rw [metadataKeys, List.length_map] at count
      rw [quiet fun _ => rfl]
      exact count.trans (show 1 ≤ maxMetadata by decide)
    · rw [quiet fun _ => rfl]
      exact (by decide : ["alt_id", "alt_id_standard", "hostility", "callsign", "course", "speed"].Nodup).sublist fits.attributes
    · rw [quiet fun _ => rfl]
      exact (List.nodup_singleton "source_uid").sublist fits.metadata

theorem calls_run_iff {sourceId entityType : String} {event : Event} :
    Rust.run sourceId entityType (CotParser.calls floats newId native f uid cotType time) = .ok event ↔
      (Rust.isRfc3339 time = true ∧ (∀ loc, placeAt f.lat f.lon f.haeM = some loc → Rust.validLocation loc = true) ∧
        (sourceId ≠ "" ∧ Rust.isNamespaced entityType = true) ∧ Rust.outsideUnit (f.confidence.getD .zero) = false) ∧
        event = eventOf (fieldsOf sourceId entityType (CotParser.calls floats newId native f uid cotType time)) newId time
          (placeAt f.lat f.lon f.haeM) := by
  have fits := calls_fit floats newId native f uid cotType time
  have id : lastGiven Call.id? (CotParser.calls floats newId native f uid cotType time) = some newId := by
    rw [lastGiven_getLast, calls_quiet floats newId native f uid cotType time fun _ => rfl, fits.ids]
    rfl
  have stamp : lastGiven Call.timestamp? (CotParser.calls floats newId native f uid cotType time) = some time := by
    rw [lastGiven_getLast, calls_quiet floats newId native f uid cotType time fun _ => rfl, fits.times]
    rfl
  have run := rust_run sourceId entityType (CotParser.calls floats newId native f uid cotType time)
  rw [id, stamp, Option.bind_some, Option.bind_some, LocationValid, calls_place, calls_valid_iff, calls_confidence] at run
  have toOption : Rust.run sourceId entityType (CotParser.calls floats newId native f uid cotType time) = .ok event ↔
      (Rust.run sourceId entityType (CotParser.calls floats newId native f uid cotType time)).toOption = some event := by
    cases Rust.run sourceId entityType (CotParser.calls floats newId native f uid cotType time) <;> simp [Except.toOption]
  rw [toOption, run]
  split
  · rename_i valid
    exact ⟨fun same => ⟨valid, (Option.some.inj same).symm⟩, fun made => congrArg some made.2.symm⟩
  · rename_i invalid
    exact ⟨fun same => absurd same (Option.some_ne_none event).symm, fun made => absurd made.1 invalid⟩

end

section

variable {reader : Bytes → Reading} {p : CotParser} {newId : String} {native : Bytes} {events : List XmlEvent}
  (read : reader native = { events := events })
include read

theorem toEvent_tells {event : Event} (made : p.toEvent floats reader newId native = .ok event) :
    (Acceptable floats p events ∧ Rust.outsideUnit (((Sought.of events).confidence floats).getD .zero) = false) ∧
      Tells floats events event := by
  obtain ⟨f, uid, cotType, time, run, named, typed, timed, built⟩ := (toEvent_eq_ok read).mp made
  have gathered := reading_gathered run
  obtain ⟨⟨dated, placed, valid, inside⟩, rfl⟩ := (calls_run_iff floats newId native f uid cotType time).mp built
  have place : placeAt f.lat f.lon f.haeM = placeSaid floats events := by
    rw [gathered.lat, gathered.lon, gathered.haeM, placeSaid]
  rw [gathered.uid] at named
  rw [gathered.cotType] at typed
  rw [gathered.time] at timed
  rw [gathered.confidence] at inside
  rw [place] at placed
  have records := eventOf_records p.sourceId (p.mapType cotType) (CotParser.calls floats newId native f uid cotType time) newId
    time (placeAt f.lat f.lon f.haeM)
  have noted : Call.metadata "source_uid" uid ∈ CotParser.calls floats newId native f uid cotType time := by
    unfold CotParser.calls
    simp only [List.mem_append, List.mem_cons]
    simp
  apply And.intro
  · exact ⟨⟨valid.1, gathered.coordinates, by rw [named]; rfl, ⟨cotType, typed, valid.2⟩, ⟨time, timed, dated⟩, placed⟩, inside⟩
  · apply Tells.mk ⟨uid, named, (records.metadata _ _).mpr noted⟩ timed place
    rw [eventOf, (fieldsAfter _ _ _).confidence, calls_confidence, gathered.confidence]

/-- An acceptable document is refused for its confidence only. -/
theorem toEvent_accepts (acceptable : Acceptable floats p events)
    (inside : Rust.outsideUnit (((Sought.of events).confidence floats).getD .zero) = false) :
    ∃ event, p.toEvent floats reader newId native = .ok event := by
  obtain ⟨f, run⟩ := reading_runs acceptable.coordinates {}
  have gathered := reading_gathered run
  obtain ⟨uid, named⟩ := Option.isSome_iff_exists.mp acceptable.uid
  obtain ⟨cotType, typed, entity⟩ := acceptable.type
  obtain ⟨time, timed, dated⟩ := acceptable.time
  rw [← gathered.uid] at named
  rw [← gathered.cotType] at typed
  rw [← gathered.time] at timed
  have placed := acceptable.place
  rw [placeSaid, ← gathered.lat, ← gathered.lon, ← gathered.haeM] at placed
  rw [← gathered.confidence] at inside
  have built := (calls_run_iff floats newId native f uid cotType time).mpr
    ⟨⟨dated, placed, ⟨acceptable.source, entity⟩, inside⟩, rfl⟩
  exact ⟨_, (toEvent_eq_ok read).mpr ⟨f, uid, cotType, time, run, named, typed, timed, built⟩⟩

end

end

end CotProof
