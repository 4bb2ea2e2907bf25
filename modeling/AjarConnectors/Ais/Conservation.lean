import AjarConnectors.Ais.RoundTrip

namespace AisModel

open EventModel BuilderModel HttpModel CarryForward

variable {ρ : Type} (floats : Floats) (radar : Radar ρ)

/-- The sentences of the message a frame completes, under the MMSI it is decoded for. -/
def Parser.decoded (p : Parser ρ) (a : Arrival) : List (Nat × Bytes) :=
  match readSentence a.frame with
  | .ok (some s) => match (receive p.pending a.now s).1 with
    | .ok (some (bits, raws)) => if bits.validBits < 38 then [] else raws.map fun raw => (bits.u 8 30, raw)
    | _ => []
  | _ => []

/-- A parser with all the sentences it decoded and all the events it returned. -/
structure Watched (ρ : Type) where
  parser : Parser ρ
  history : List (Nat × Bytes) := []
  events : List Event := []

def Watched.parse (w : Watched ρ) (a : Arrival) : Watched ρ :=
  let (result, parser) := w.parser.parse floats radar a
  { parser := parser, history := w.history ++ w.parser.decoded a, events := w.events ++ result.toOption.getD [] }

def Watched.run (w : Watched ρ) (arrivals : List Arrival) : Watched ρ := arrivals.foldl (Watched.parse floats radar) w

def Parser.buffer (p : Parser ρ) (mmsi : Nat) : Carry := p.carry.value mmsi {}

/-- A vessel event, with the MMSI, the sentences and the mark it carries. -/
structure Carries (event : Event) (sent : Nat × List Bytes × Bool) : Prop where
  mmsi : ⟨"mmsi", toString sent.1⟩ ∈ event.metadata
  payload : event.payload = [10].intercalate sent.2.1
  mark : ⟨"payload_truncated", "true"⟩ ∈ event.metadata ↔ sent.2.2 = true

/-- Every decoded sentence is in one event of its MMSI, or pending for it, or counted with the next
    event marked. -/
def Watched.Conserved (w : Watched ρ) : Prop :=
  ∃ sent, List.Forall₂ Carries (w.events.filter fun event => event.entityType = "mim:vessel") sent ∧
    Balanced w.history sent w.parser.buffer w.parser.dropped

/-- The vessel a full cache evicts for a new one has nothing to lose. -/
def Parser.Spares (p : Parser ρ) (a : Arrival) : Prop :=
  ∀ mmsi ∈ (p.decoded a).map Prod.fst, p.carry.map mmsi = none → maxVessels ≤ p.carry.order.length →
    ∀ oldest ∈ p.carry.order.head?, (p.buffer oldest).pending = [] ∧ (p.buffer oldest).droppedSinceEmit = false

/-- Every eviction of the run spares what is pending. -/
def Watched.Spares (w : Watched ρ) : List Arrival → Prop
  | [] => True
  | a :: rest => w.parser.Spares a ∧ (w.parse floats radar a).Spares rest

end AisModel

namespace AisProof

open AisModel EventModel BuilderModel BuilderProof CarryForward
open HttpModel (Text Bytes trimText)

variable {ρ : Type} (floats : Floats) (radar : Radar ρ) {p p' : Parser ρ}

/-- The keys of a vessel event. -/
def vesselOutline (id ts : String) (payload : Bytes) (places : List GeoPoint) : Outline where
  attributes := ["alt_id", "alt_id_standard", "hostility", "speed", "course", "heading", "rate_of_turn", "nav_status",
    "vessel_type", "vessel_name", "callsign"]
  metadata := ["source_uid", "mmsi", "imo", "payload_truncated", "speed_kn"]
  ids := [id]
  times := [ts]
  places := places
  payloads := [payload]

theorem vessel_namespaced : Rust.isNamespaced "mim:vessel" = true := by decide

theorem vessel_attributes {id ts : String} {payload : Bytes} {places : List GeoPoint} :
    (vesselOutline id ts payload places).attributes.Nodup := by
  simp [vesselOutline]

theorem vessel_metadata {id ts : String} {payload : Bytes} {places : List GeoPoint} :
    (vesselOutline id ts payload places).metadata.Nodup := by
  simp [vesselOutline]

def placesOf (pos : AisPosition) : List GeoPoint :=
  match pos.lat, pos.lon with
  | some lat, some lon => [⟨lat, lon, .zero⟩]
  | _, _ => []

theorem vessel_fits (hostility : Option String) (id ts : String) (pos : AisPosition) :
    Fits (vesselOutline id ts pos.raw (placesOf pos)) (baseBuilder floats hostility id pos ++ [.timestamp ts]) := by
  have place : Fits { places := placesOf pos } (locationCalls pos.lat pos.lon) := by
    unfold placesOf
    cases pos.lat with
    | none => exact Fits.empty [] []
    | some lat => cases pos.lon with
      | none => exact Fits.empty [] []
      | some lon => exact Fits.location lat lon .zero
  apply Fits.of_eq
  · exact (Fits.id id).append (Fits.payload pos.raw) |>.append (Fits.metadatum _ _) |>.append (Fits.metadatum _ _)
      |>.append (Fits.when (Fits.identity _ _)) |>.append place
      |>.append (Fits.ifGiven pos.imo fun imo => Fits.metadatum _ _)
      |>.append (Fits.when (Fits.metadatum _ _))
      |>.append (Fits.ifGiven hostility fun aff => Fits.attr _ _)
      |>.append (Fits.ifGiven pos.sogKn fun kn => (Fits.attr _ _).append (Fits.metadatum _ _))
      |>.append (Fits.ifGiven pos.cogDeg fun deg => Fits.attr _ _)
      |>.append (Fits.ifGiven pos.headingDeg fun deg => Fits.attr _ _)
      |>.append (Fits.ifGiven pos.rotDegmin fun rot => Fits.attr _ _)
      |>.append (Fits.ifGiven pos.navStatus fun ns => Fits.attr _ _)
      |>.append (Fits.ifGiven pos.shipType fun vt => Fits.attr _ _)
      |>.append (Fits.ifGiven pos.name fun name => Fits.attr _ _)
      |>.append (Fits.ifGiven pos.callsign fun cs => Fits.attr _ _)
      |>.append (Fits.timestamp ts)
  · simp [Outline.append, vesselOutline]

theorem validLocation_of_between {lat lon : F64} (latitude : F64.between Rust.minusNinety Rust.ninety lat = true)
    (longitude : F64.between Rust.minusOneEighty Rust.oneEighty lon = true) :
    Rust.validLocation ⟨lat, lon, .zero⟩ = true := by
  have first := EventProof.finite_of_between latitude (by decide) (by decide)
  have second := EventProof.finite_of_between longitude (by decide) (by decide)
  rw [F64.between] at latitude longitude
  simp only [Rust.validLocation, first, second, latitude, longitude, Bool.true_and, Bool.and_true]
  decide

/-- Latitude and longitude, where given, are on the globe. -/
structure OnGlobe (pos : AisPosition) : Prop where
  lat : ∀ lat ∈ pos.lat, F64.between Rust.minusNinety Rust.ninety lat = true
  lon : ∀ lon ∈ pos.lon, F64.between Rust.minusOneEighty Rust.oneEighty lon = true

theorem placesOf_valid {pos : AisPosition} (globe : OnGlobe pos) :
    ∀ place ∈ placesOf pos, Rust.validLocation place = true := by
  intro place member
  unfold placesOf at member
  split at member
  · rename_i lat lon latitude longitude
    rw [List.mem_singleton] at member
    subst member
    exact validLocation_of_between (globe.lat lat latitude) (globe.lon lon longitude)
  · cases member

/-- A position on the globe becomes an event that carries its sentences and its mark. -/
theorem vessel_built {sourceId : String} (source : sourceId ≠ "") (hostility : Option String) (id : String) {ts : String}
    (dated : Rust.isRfc3339 ts = true) {pos : AisPosition} (globe : OnGlobe pos) {frames : List Bytes}
    (raw : pos.raw = [10].intercalate frames) :
    ∃ event, Rust.run sourceId "mim:vessel" (baseBuilder floats hostility id pos ++ [.timestamp ts]) = .ok event ∧
      event.entityType = "mim:vessel" ∧ Carries event (pos.mmsi, frames, pos.truncated) := by
  have fits : Fits _ (baseBuilder floats hostility id pos ++ [.timestamp ts]) := vessel_fits floats hostility id ts pos
  have built := fits.build source vessel_namespaced vessel_attributes (by simp [vesselOutline, maxAttributes])
    vessel_metadata (by simp [vesselOutline, maxMetadata]) rfl rfl dated (placesOf_valid globe)
  have records := eventOf_records sourceId "mim:vessel" (baseBuilder floats hostility id pos ++ [.timestamp ts]) id ts
    (placesOf pos).getLast?
  refine ⟨_, built, eventOf_entityType _ _ _ _ _ _, ?_, ?_, ?_⟩
  · apply (records.metadata _ _).mpr
    unfold baseBuilder
    simp
  · apply records.payload.trans
    rw [fits.payloads]
    exact raw
  · apply (records.metadata _ _).trans
    have place : Call.metadata "payload_truncated" "true" ∉ locationCalls pos.lat pos.lon := by
      unfold locationCalls
      split <;> simp
    have named : Call.metadata "payload_truncated" "true" ∉
        (if 1 ≤ pos.mmsi ∧ pos.mmsi ≤ 999999999 then identity "AIS" (nineDigits pos.mmsi) else []) := by
      split
      · exact identity_metadata
      · simp
    unfold baseBuilder
    simp [mem_ifGiven, place, named]

/-- The parts of the parser that a step without a message of a vessel leaves alone. -/
structure SameCarry (p p' : Parser ρ) : Prop where
  sourceId : p'.sourceId = p.sourceId
  carry : p'.carry = p.carry
  dropped : p'.dropped = p.dropped

theorem SameCarry.buffer (same : SameCarry p p') : p'.buffer = p.buffer := by
  funext mmsi
  rw [Parser.buffer, Parser.buffer, same.carry]

theorem noteStatic_same (bits : Bits) (msgType mmsi : Nat) : SameCarry p (p.noteStatic bits msgType mmsi) := by
  unfold Parser.noteStatic Parser.staticClassB
  repeat' split
  all_goals exact ⟨rfl, rfl, rfl⟩

theorem position_same (bits : Bits) (msgType mmsi : Nat) (layout : AisModel.Layout) :
    SameCarry p (p.position floats bits msgType mmsi layout).2 := by
  unfold Parser.position
  dsimp only
  split <;> exact ⟨rfl, rfl, rfl⟩

theorem degrees_between {low high d : F64} {v : Option Int} (found : degrees floats low high v = some d) :
    F64.between low high d = true := (Option.filter_eq_some_iff.mp found).2

theorem position_globe (bits : Bits) (msgType mmsi : Nat) (layout : AisModel.Layout) (raw : Bytes) (truncated : Bool) :
    OnGlobe { (p.position floats bits msgType mmsi layout).1 with raw := raw, truncated := truncated } :=
  ⟨fun _ found => degrees_between floats found, fun _ found => degrees_between floats found⟩

theorem value_set (c : MmsiCache Carry) (mmsi : Nat) (v : Carry) :
    (fun k => (c.set mmsi v).value k {}) = Function.update (fun k => c.value k {}) mmsi v := by
  funext k
  by_cases same : k = mmsi
  · subst same
    simp [MmsiCache.set, MmsiCache.value]
  · simp [MmsiCache.set, MmsiCache.value, Function.update_of_ne same]

/-- Room is made for a vessel without changing what waits for any. -/
theorem entry_keeps {c : MmsiCache Carry} {mmsi : Nat}
    (spared : c.map mmsi = none → maxVessels ≤ c.order.length → ∀ oldest ∈ c.order.head?,
      (c.value oldest {}).pending = [] ∧ (c.value oldest {}).droppedSinceEmit = false) (k : Nat) :
    ((c.entry mmsi {}).value k {}).pending = (c.value k {}).pending ∧
      ((c.entry mmsi {}).value k {}).droppedSinceEmit = (c.value k {}).droppedSinceEmit := by
  unfold MmsiCache.entry
  split
  · rename_i fresh
    rw [Option.isNone_iff_eq_none] at fresh
    by_cases here : k = mmsi
    · subst here
      simp [MmsiCache.value, fresh]
    · simp only [MmsiCache.value, Function.update_of_ne here]
      unfold MmsiCache.evict
      split
      · rename_i full
        split
        · exact ⟨rfl, rfl⟩
        · rename_i oldest rest order
          have empty := spared fresh full oldest (by rw [order]; rfl)
          by_cases gone : k = oldest
          · subst gone
            rw [MmsiCache.value] at empty
            simp [empty.1, empty.2]
          · simp [Function.update_of_ne gone]
      · exact ⟨rfl, rfl⟩
  · exact ⟨rfl, rfl⟩

section

variable {history : List (Nat × Bytes)} {sent : List (Nat × List Bytes × Bool)}

theorem pushRaws_balanced {mmsi : Nat} (raws : List Bytes) (balanced : Balanced history sent p.buffer p.dropped) :
    Balanced (history ++ raws.map fun raw => (mmsi, raw)) sent
      (raws.foldl (fun p raw => p.pushRaw mmsi raw) p).buffer (raws.foldl (fun p raw => p.pushRaw mmsi raw) p).dropped := by
  induction raws generalizing p history with
  | nil => simpa using balanced
  | cons raw raws ih =>
    have pushed := balanced.push carryCaps List.length mmsi raw
    rw [List.map_cons, ← List.singleton_append, ← List.append_assoc, List.foldl_cons]
    apply ih
    have buffers : (p.pushRaw mmsi raw).buffer = Function.update p.buffer mmsi (Carry.pushRaw (p.buffer mmsi) raw).1 :=
      value_set p.carry mmsi _
    rw [buffers]
    exact pushed

theorem pushRaws_sourceId {mmsi : Nat} (raws : List Bytes) :
    (raws.foldl (fun p raw => p.pushRaw mmsi raw) p).sourceId = p.sourceId := by
  induction raws generalizing p with
  | nil => rfl
  | cons raw raws ih => exact ih

/-- What a decoded message does to the accounts: its sentences wait, or an event takes them. -/
structure Accounted (history : List (Nat × Bytes)) (sent : List (Nat × List Bytes × Bool)) (p' : Parser ρ) (mmsi : Nat)
    (raws : List Bytes) (pos : AisPosition) : Prop where
  globe : OnGlobe pos
  named : pos.mmsi = mmsi
  frames : ∃ frames, pos.raw = [10].intercalate frames ∧
    Balanced (history ++ raws.map fun raw => (mmsi, raw)) (sent ++ [(mmsi, frames, pos.truncated)]) p'.buffer p'.dropped

/-- What is left of `decode` once the vessel's entry is there. -/
def report (q : Parser ρ) (bits : Bits) (raws : List Bytes) : Except AisError (Option AisPosition) × Parser ρ :=
  match layoutOf (bits.u 0 6) with
  | none => (.ok none, raws.foldl (fun p raw => p.pushRaw (bits.u 8 30) raw) q)
  | some layout =>
    let (raw, truncated, carry) := Carry.drainWith (q.carry.value (bits.u 8 30) {}) raws
    let (pos, p) := ({ q with carry := q.carry.set (bits.u 8 30) carry } : Parser ρ).position floats bits (bits.u 0 6)
      (bits.u 8 30) layout
    (.ok (some { pos with raw := raw, truncated := truncated }), p)

theorem decode_cases (bits : Bits) (raws : List Bytes) (full : ¬ bits.validBits < 38)
    (balanced : Balanced history sent p.buffer p.dropped)
    (spared : p.carry.map (bits.u 8 30) = none → maxVessels ≤ p.carry.order.length → ∀ oldest ∈ p.carry.order.head?,
      (p.buffer oldest).pending = [] ∧ (p.buffer oldest).droppedSinceEmit = false) :
    (∃ p', p.decode floats bits raws = (.ok none, p') ∧ p'.sourceId = p.sourceId ∧
      Balanced (history ++ raws.map fun raw => (bits.u 8 30, raw)) sent p'.buffer p'.dropped) ∨
    (∃ pos p', p.decode floats bits raws = (.ok (some pos), p') ∧ p'.sourceId = p.sourceId ∧
      Accounted history sent p' (bits.u 8 30) raws pos) := by
  have noted : SameCarry p (p.noteStatic bits (bits.u 0 6) (bits.u 8 30)) := noteStatic_same bits _ _
  let q := { p.noteStatic bits (bits.u 0 6) (bits.u 8 30) with carry := p.carry.entry (bits.u 8 30) {} }
  have kept : Balanced history sent q.buffer q.dropped := by
    have count : q.dropped = p.dropped := noted.dropped
    rw [count]
    exact balanced.congr (fun k => (entry_keeps spared k).1) (fun k => (entry_keeps spared k).2)
  have decode : p.decode floats bits raws = report floats q bits raws := by
    rw [Parser.decode, if_neg full, report]
    simp only [noted.carry]
    rfl
  rw [decode, report]
  cases layoutOf (bits.u 0 6) with
  | none => exact Or.inl ⟨_, rfl, (pushRaws_sourceId raws).trans noted.sourceId, pushRaws_balanced raws kept⟩
  | some layout =>
    right
    let drained : Parser ρ := { q with carry := q.carry.set (bits.u 8 30) {} }
    let report := drained.position floats bits (bits.u 0 6) (bits.u 8 30) layout
    let frames := (q.buffer (bits.u 8 30)).pending ++ raws
    have same : SameCarry drained report.2 := position_same floats bits (bits.u 0 6) (bits.u 8 30) layout
    have buffers : drained.buffer = Function.update q.buffer (bits.u 8 30) {} := value_set q.carry (bits.u 8 30) {}
    have balanced := kept.drain (bits.u 8 30) raws
    rw [← buffers, ← same.buffer] at balanced
    have count : report.2.dropped = q.dropped := same.dropped
    rw [← count] at balanced
    exact ⟨{ report.1 with raw := [10].intercalate frames, truncated := (q.buffer (bits.u 8 30)).droppedSinceEmit }, report.2,
      rfl, same.sourceId.trans noted.sourceId, position_globe floats bits _ _ layout _ _, rfl, frames, rfl, balanced⟩

end

theorem endsWith_drop {suffix text : Text} (ends : endsWith suffix text = true) :
    suffix = text.drop (text.length - suffix.length) :=
  List.suffix_iff_eq_drop.mp (List.isSuffixOf_iff_suffix.mp ends)

/-- A sentence for the radar is not one of a vessel. -/
theorem radar_talker {talker : Text}
    (wanted : (endsWith "TTM".toList talker || endsWith "GGA".toList talker || endsWith "RMC".toList talker) = true) :
    (endsWith "VDM".toList talker || endsWith "VDO".toList talker) = false := by
  have three : ∀ t ∈ ["TTM".toList, "GGA".toList, "RMC".toList], ∀ v ∈ ["VDM".toList, "VDO".toList],
      t.length = v.length ∧ t ≠ v := by decide
  have apart : ∀ t ∈ ["TTM".toList, "GGA".toList, "RMC".toList], ∀ v ∈ ["VDM".toList, "VDO".toList],
      endsWith t talker = true → endsWith v talker = false := by
    intro t radar v vessel ends
    by_contra other
    have same := endsWith_drop ends
    rw [(three t radar v vessel).1, ← endsWith_drop (by simpa using other)] at same
    exact (three t radar v vessel).2 same
  rw [Bool.or_eq_true, Bool.or_eq_true] at wanted
  rw [Bool.or_eq_false_iff]
  rcases wanted with (ends | ends) | ends
  · exact ⟨apart _ (by simp) _ (by simp) ends, apart _ (by simp) _ (by simp) ends⟩
  · exact ⟨apart _ (by simp) _ (by simp) ends, apart _ (by simp) _ (by simp) ends⟩
  · exact ⟨apart _ (by simp) _ (by simp) ends, apart _ (by simp) _ (by simp) ends⟩

theorem radar_not_read {frame : Bytes} {s : Text} (wanted : radarSentence frame = some s) (sentence : Sentence) :
    readSentence frame ≠ .ok (some sentence) := by
  rcases Option.filter_eq_some_iff.mp wanted with ⟨found, kind⟩
  rcases Option.map_eq_some_iff.mp found with ⟨text, decoded, rfl⟩
  rw [Bool.and_eq_true, radarWants, Bool.and_eq_true] at kind
  have other := radar_talker kind.2.2
  intro read
  unfold readSentence at read
  rw [decoded] at read
  dsimp only at read
  split at read
  · cases read
  · split at read
    · cases read
    · split at read
      · cases read
      · rename_i talker rest fields
        rw [fields, List.headD_cons] at other
        rw [other] at read
        cases read

theorem radar_decodes_nothing {a : Arrival} {s : Text} (wanted : radarSentence a.frame = some s) : p.decoded a = [] := by
  unfold Parser.decoded
  split
  · rename_i sentence read
    exact absurd read (radar_not_read wanted sentence)
  · rfl

/-- A step that only the radar sees. -/
theorem radar_step {a : Arrival} {s : Text} (wanted : radarSentence a.frame = some s) :
    SameCarry p (p.parse floats radar a).2 ∧
      ∀ event ∈ (p.parse floats radar a).1.toOption.getD [], event.entityType = "mim:object" := by
  unfold Parser.parse
  rw [wanted]
  dsimp only
  split
  · exact ⟨⟨rfl, rfl, rfl⟩, by simp [Except.toOption]⟩
  · split
    · exact ⟨⟨rfl, rfl, rfl⟩, by simp [Except.toOption]⟩
    · exact ⟨⟨rfl, rfl, rfl⟩, by simp [Except.toOption]⟩
    · split
      · exact ⟨⟨rfl, rfl, rfl⟩, by simp [Except.toOption]⟩
      · rename_i built
        refine ⟨⟨rfl, rfl, rfl⟩, ?_⟩
        intro event member
        simp only [Except.toOption, Option.getD_some, List.mem_singleton] at member
        subst member
        rcases (run_ok built).1 with ⟨id, ts, rfl⟩
        exact eventOf_entityType _ _ _ _ _ _

theorem receive_raws {q q' : Reassembly} {now : Nat} {s : Sentence} {bits : Bits} {raws : List Bytes}
    (received : receive q now s = (.ok (some (bits, raws)), q')) : raws ≠ [] := by
  have mapped : ∀ {payload : Except AisError Bits} {all : List Bytes},
      payload.map (fun bits => some (bits, all)) = .ok (some (bits, raws)) → raws = all := by
    intro payload all made
    cases payload with
    | error e => cases made
    | ok b =>
      cases made
      rfl
  unfold receive at received
  split at received
  · rw [Prod.mk.injEq] at received
    rw [mapped received.1]
    simp
  · split at received
    · cases received
    · dsimp only at received
      split at received
      · cases received
      · rw [Prod.mk.injEq] at received
        rw [mapped received.1]
        simp

/-- The sentences a complete message brings, under its vessel. -/
def broughtBy (outcome : Except AisError (Option (Bits × List Bytes))) : List (Nat × Bytes) :=
  match outcome with
  | .ok (some (bits, raws)) => if bits.validBits < 38 then [] else raws.map fun raw => (bits.u 8 30, raw)
  | _ => []

/-- What a frame can do: leave the carry alone, or complete a message for some vessel. -/
theorem parse_cases (p : Parser ρ) (a : Arrival) :
    (SameCarry p (p.parse floats radar a).2 ∧ p.decoded a = [] ∧
      ∀ event ∈ (p.parse floats radar a).1.toOption.getD [], event.entityType = "mim:object") ∨
    (∃ q bits raws, ¬ bits.validBits < 38 ∧ raws ≠ [] ∧ (p.decoded a = raws.map fun raw => (bits.u 8 30, raw)) ∧
      p.parse floats radar a = stamp floats a (({ p with pending := q } : Parser ρ).decode floats bits raws)) := by
  cases wanted : radarSentence a.frame with
  | some s =>
    have step : SameCarry p (p.parse floats radar a).2 ∧ _ := radar_step floats radar wanted
    exact Or.inl ⟨step.1, radar_decodes_nothing wanted, step.2⟩
  | none =>
    have parse : p.parse floats radar a = stamp floats a (p.parseSentence floats a.now a.frame) := by
      rw [Parser.parse, wanted]
    -- no event is returned and nothing carried until a message is complete
    have quiet : ∀ result q, p.parseSentence floats a.now a.frame = (result, { p with pending := q }) →
        result.toOption.join = none → p.decoded a = [] → SameCarry p (p.parse floats radar a).2 ∧ p.decoded a = [] ∧
          ∀ event ∈ (p.parse floats radar a).1.toOption.getD [], event.entityType = "mim:object" := by
      intro result q parsed silent nothing
      rw [parse, parsed]
      cases result with
      | error e => exact ⟨⟨rfl, rfl, rfl⟩, nothing, fun event member => by cases member⟩
      | ok pos => cases pos with
        | none => exact ⟨⟨rfl, rfl, rfl⟩, nothing, fun event member => by cases member⟩
        | some pos => cases silent
    cases read : readSentence a.frame with
    | error e =>
      apply Or.inl (quiet (.error e) p.pending _ rfl _)
      · rw [Parser.parseSentence, read]
      · rw [Parser.decoded, read]
    | ok found => cases found with
      | none =>
        apply Or.inl (quiet (.ok none) p.pending _ rfl _)
        · rw [Parser.parseSentence, read]
        · rw [Parser.decoded, read]
      | some s =>
        have decoded : p.decoded a = broughtBy (receive p.pending a.now s).1 := by
          rw [Parser.decoded, read]
          rfl
        rcases received : receive p.pending a.now s with ⟨e | ⟨_ | ⟨bits, raws⟩⟩, q⟩
        · rw [received] at decoded
          apply Or.inl (quiet (.error e) q _ rfl decoded)
          rw [Parser.parseSentence, read]
          dsimp only
          rw [received]
        · rw [received] at decoded
          exact Or.inl (quiet (.ok none) q (parseSentence_kept floats p read received) rfl decoded)
        · rw [received] at decoded
          have parsed := parseSentence_completed floats p read received
          dsimp only [broughtBy] at decoded
          by_cases short : bits.validBits < 38
          · rw [if_pos short] at decoded
            apply Or.inl (quiet (.error .truncated) q _ rfl decoded)
            rw [parsed, Parser.decode, if_pos short]
          · rw [if_neg short] at decoded
            exact Or.inr ⟨q, bits, raws, short, receive_raws received, decoded, by rw [parse, parsed]⟩

theorem watched_parse (w : Watched ρ) (a : Arrival) : w.parse floats radar a =
    { parser := (w.parser.parse floats radar a).2, history := w.history ++ w.parser.decoded a,
      events := w.events ++ (w.parser.parse floats radar a).1.toOption.getD [] } := rfl

/-- One frame keeps every sentence accounted for, if an eviction spares what is pending. -/
theorem parse_conserves {w : Watched ρ} (conserved : w.Conserved) (source : w.parser.sourceId ≠ "") {a : Arrival}
    (dated : Rust.isRfc3339 a.clock = true) (spared : w.parser.Spares a) :
    (w.parse floats radar a).Conserved ∧ (w.parse floats radar a).parser.sourceId = w.parser.sourceId := by
  rcases conserved with ⟨sent, carries, balanced⟩
  rcases parse_cases floats radar w.parser a with
    ⟨same, nothing, others⟩ | ⟨q, bits, raws, full, filled, decoded, parse⟩
  · have none : ((w.parser.parse floats radar a).1.toOption.getD []).filter
        (fun event => event.entityType = "mim:vessel") = [] := by
      rw [List.filter_eq_nil_iff]
      intro event member
      rw [others event member]
      decide
    refine ⟨⟨sent, ?_, ?_⟩, same.sourceId⟩
    · rw [watched_parse, List.filter_append, none, List.append_nil]
      exact carries
    · rw [watched_parse, nothing, List.append_nil, same.buffer, same.dropped]
      exact balanced
  · let received : Parser ρ := { w.parser with pending := q }
    have room := spared (bits.u 8 30) (by
      rw [decoded, List.map_map]
      rcases List.exists_mem_of_ne_nil raws filled with ⟨raw, member⟩
      exact List.mem_map.mpr ⟨raw, member, rfl⟩)
    rcases decode_cases floats (p := received) bits raws full balanced room with
      ⟨p', done, sourceId, after⟩ | ⟨pos, p', done, sourceId, account⟩
    · have step : w.parser.parse floats radar a = (.ok [], p') := by rw [parse, done]; rfl
      refine ⟨⟨sent, ?_, ?_⟩, ?_⟩
      · rw [watched_parse, step]
        change List.Forall₂ Carries ((w.events ++ []).filter _) sent
        rw [List.append_nil]
        exact carries
      · rw [watched_parse, step, decoded]
        exact after
      · rw [watched_parse, step]
        exact sourceId
    · rcases account.frames with ⟨frames, raw, after⟩
      have named : p'.sourceId ≠ "" := by
        rw [sourceId]
        exact source
      rcases vessel_built floats named p'.hostility a.id dated account.globe raw with ⟨event, built, kind, carried⟩
      rw [account.named] at carried
      have step : w.parser.parse floats radar a = (.ok [event], p') := by
        rw [parse, done, stamp, built]
      refine ⟨⟨sent ++ [(bits.u 8 30, frames, pos.truncated)], ?_, ?_⟩, ?_⟩
      · rw [watched_parse, step, List.filter_append]
        apply List.rel_append carries
        change List.Forall₂ Carries (List.filter _ [event]) _
        rw [List.filter_cons_of_pos (by simpa using kind)]
        exact List.Forall₂.cons carried List.Forall₂.nil
      · rw [watched_parse, step, decoded]
        exact after
      · rw [watched_parse, step]
        exact sourceId

theorem run_concat (w : Watched ρ) (before : List Arrival) (a : Arrival) :
    w.run floats radar (before ++ [a]) = (w.run floats radar before).parse floats radar a := by
  rw [Watched.run, Watched.run, List.foldl_append, List.foldl_cons, List.foldl_nil]

theorem run_conserves {w : Watched ρ} (conserved : w.Conserved) (source : w.parser.sourceId ≠ "") {arrivals : List Arrival}
    (dated : ∀ a ∈ arrivals, Rust.isRfc3339 a.clock = true) (spared : w.Spares floats radar arrivals) :
    (w.run floats radar arrivals).Conserved := by
  induction arrivals generalizing w with
  | nil => exact conserved
  | cons a arrivals ih =>
    have step := parse_conserves floats radar conserved source (dated a List.mem_cons_self) spared.1
    apply ih step.1 _ (fun b member => dated b (List.mem_cons_of_mem _ member)) spared.2
    rw [step.2]
    exact source

theorem spares_of_append {w : Watched ρ} {before after : List Arrival} (spared : w.Spares floats radar (before ++ after)) :
    w.Spares floats radar before := by
  induction before generalizing w with
  | nil => trivial
  | cons a before ih => exact ⟨spared.1, ih spared.2⟩

theorem new_conserved (sourceId : String) (hostility : Option String) (r : ρ) :
    Watched.Conserved { parser := Parser.new sourceId hostility r } :=
  ⟨[], List.Forall₂.nil, balanced_start⟩

/-- At every point of a run whose evictions spare what is pending, every sentence is accounted for. -/
theorem sentences_are_conserved (sourceId : String) (hostility : Option String) (r : ρ) (arrivals : List Arrival)
    (source : sourceId ≠ "") (dated : ∀ a ∈ arrivals, Rust.isRfc3339 a.clock = true)
    (spared : Watched.Spares floats radar { parser := Parser.new sourceId hostility r } arrivals)
    (before after : List Arrival) (point : arrivals = before ++ after) :
    (Watched.run floats radar { parser := Parser.new sourceId hostility r } before).Conserved := by
  subst point
  apply run_conserves floats radar (new_conserved sourceId hostility r) source
  · exact fun a member => dated a (List.mem_append_left _ member)
  · exact spares_of_append floats radar spared

theorem entry_order {V : Type} (c : MmsiCache V) (mmsi : Nat) (fresh : V) :
    (c.entry mmsi fresh).order.length ≤ c.order.length + 1 := by
  unfold MmsiCache.entry MmsiCache.evict
  split
  · split
    · split
      · rename_i order
        simp [order]
      · rename_i order
        simp [order]
    · simp
  · exact Nat.le_succ _

theorem pushRaws_order {mmsi : Nat} (raws : List Bytes) :
    (raws.foldl (fun p raw => p.pushRaw mmsi raw) p).carry.order = p.carry.order := by
  induction raws generalizing p with
  | nil => rfl
  | cons raw raws ih => exact ih

theorem decode_order (bits : Bits) (raws : List Bytes) :
    (p.decode floats bits raws).2.carry.order.length ≤ p.carry.order.length + 1 := by
  have noted : SameCarry p (p.noteStatic bits (bits.u 0 6) (bits.u 8 30)) := noteStatic_same bits _ _
  have room := entry_order p.carry (bits.u 8 30) {}
  rw [Parser.decode]
  split
  · exact Nat.le_succ _
  · dsimp only
    rw [noted.carry]
    split
    · rw [pushRaws_order]
      exact room
    · rw [(position_same floats bits _ _ _).carry]
      exact room

theorem stamp_state (a : Arrival) (outcome : Except AisError (Option AisPosition) × Parser ρ) :
    (stamp floats a outcome).2 = outcome.2 := by
  rcases outcome with ⟨result, p⟩
  match result with
  | .error e => rfl
  | .ok none => rfl
  | .ok (some pos) =>
    rw [stamp]
    split <;> rfl

theorem parse_order (a : Arrival) : (p.parse floats radar a).2.carry.order.length ≤ p.carry.order.length + 1 := by
  rcases parse_cases floats radar p a with ⟨same, _⟩ | ⟨q, bits, raws, _, _, _, parse⟩
  · rw [same.carry]
    exact Nat.le_succ _
  · rw [parse, stamp_state]
    exact decode_order floats bits raws

/-- A run too short to fill the cache evicts nobody. -/
theorem spares_short {w : Watched ρ} {arrivals : List Arrival}
    (short : w.parser.carry.order.length + arrivals.length ≤ maxVessels) : w.Spares floats radar arrivals := by
  induction arrivals generalizing w with
  | nil => trivial
  | cons a arrivals ih =>
    rw [List.length_cons] at short
    refine ⟨fun mmsi _ _ full => by omega, ih ?_⟩
    have step : (w.parse floats radar a).parser.carry.order.length ≤ w.parser.carry.order.length + 1 :=
      parse_order floats radar a
    omega

section Eviction

open FeedModel (writeFields decimal body sentence)

def deafRadar : Radar Unit where
  handle _ _ r := (.ok none, r)

/-- A message of an unmapped type for one vessel, in one sentence. -/
def vesselFields (mmsi : Nat) : List FeedModel.Field :=
  [.unsigned 8 6, .unsigned 0 2, .unsigned (UInt64.ofNat mmsi) 30]

def vesselPayload (mmsi : Nat) : Text := (writeFields (vesselFields mmsi)).armoured.1

def vesselBody (mmsi : Nat) : Text := body 1 1 [] 'A' (vesselPayload mmsi) 4

def vesselArrival (mmsi : Nat) : Arrival where
  frame := Utf8.encodeText (sentence (vesselBody mmsi))
  now := 0
  id := "01890a5d-ac96-774b-bcce-b302099a8057"
  clock := "2026-06-10T08:00:00Z"

theorem two_vessels_conserved :
    (Watched.run Floats.idle deafRadar { parser := Parser.new "ais-coast-1" none () }
      [vesselArrival 227006760, vesselArrival 603916439]).Conserved :=
  sentences_are_conserved Floats.idle deafRadar "ais-coast-1" none ()
    [vesselArrival 227006760, vesselArrival 603916439] (by decide)
    (by
      intro a member
      simp only [List.mem_cons, List.not_mem_nil, or_false] at member
      rcases member with rfl | rfl <;> decide)
    (spares_short Floats.idle deafRadar (by decide)) _ [] rfl

theorem vessel_bits (mmsi : Nat) : (writeFields (vesselFields mmsi)).bits.length = 38 := by
  rw [written_fields, fields_length]
  rfl

theorem vessel_plain (mmsi : Nat) : Plain 1 1 4 [] (vesselPayload mmsi) 'A' :=
  ⟨by decide, by decide, by decide, by decide, by decide, armoured_plain _, by decide⟩

theorem vessel_read (mmsi : Nat) :
    ∃ s, readSentence (vesselArrival mmsi).frame = .ok (some s) ∧ s.fragCount = 1 ∧ s.payload = vesselPayload mmsi ∧
      s.fill = 4 ∧ s.raw = rawOf (vesselBody mmsi) :=
  ⟨_, readSentence_body (vessel_plain mmsi), rfl, rfl, rfl, rfl⟩

theorem vessel_received (mmsi : Nat) :
    ∃ bits, Holds bits (writeFields (vesselFields mmsi)).bits ∧
      Bits.fromPayload (vesselPayload mmsi) 4 = .ok bits := by
  rcases fromPayload_armoured (writeFields (vesselFields mmsi)) with ⟨bits, payload, holds⟩
  have fill : (writeFields (vesselFields mmsi)).armoured.2 = 4 := by
    rw [FeedModel.Bits.armoured, vessel_bits]
  rw [fill] at payload
  exact ⟨bits, holds, payload⟩

theorem vessel_step (p : Parser Unit) {mmsi : Nat} (small : mmsi < 2^30) :
    p.decoded (vesselArrival mmsi) = [(mmsi, rawOf (vesselBody mmsi))] ∧
      p.parse Floats.idle deafRadar (vesselArrival mmsi) =
        (.ok [], ({ p with carry := p.carry.entry mmsi {} } : Parser Unit).pushRaw mmsi (rawOf (vesselBody mmsi))) := by
  rcases vessel_read mmsi with ⟨s, read, single, payload, fill, raw⟩
  rcases vessel_received mmsi with ⟨bits, holds, whole⟩
  rw [← payload, ← fill] at whole
  have received := receive_single p.pending (vesselArrival mmsi).now single whole
  rw [raw] at received
  have valid : bits.validBits = 38 := by rw [holds.valid, vessel_bits]
  have kind : bits.optU 0 6 = some 8 :=
    fields_read_back [] [.unsigned 0 2, .unsigned (UInt64.ofNat mmsi) 30] (by simp [FeedModel.Field.Fits]) holds
  have owner : bits.optU 8 30 = some ((UInt64.ofNat mmsi).toNat % 2^30) :=
    fields_read_back [.unsigned 8 6, .unsigned 0 2] [] (by simp [FeedModel.Field.Fits]) holds
  rw [Bits.optU, if_pos (by omega)] at kind owner
  have number : (UInt64.ofNat mmsi).toNat % 2^30 = mmsi := by
    rw [UInt64.toNat_ofNat_of_lt' (by change mmsi < 2^64; omega), Nat.mod_eq_of_lt small]
  rw [number] at owner
  have wanted : radarSentence (vesselArrival mmsi).frame = none := by
    cases found : radarSentence (vesselArrival mmsi).frame with
    | none => rfl
    | some t => exact absurd read (radar_not_read found s)
  constructor
  · rw [Parser.decoded, read]
    dsimp only
    rw [received]
    dsimp only
    rw [if_neg (by omega), Option.some.inj owner]
    rfl
  · rw [Parser.parse, wanted]
    dsimp only
    rw [parseSentence_completed Floats.idle p read received, Parser.decode, if_neg (by omega), Option.some.inj owner,
      Option.some.inj kind]
    rfl

theorem encodeText_length (text : Text) : (Utf8.encodeText text).length ≤ 4 * text.length := by
  induction text with
  | nil => exact Nat.le_refl _
  | cons c text ih =>
    have one : (String.utf8EncodeChar c).length ≤ 4 := by
      have size : (Utf8.encode c).length = (String.utf8EncodeChar c).length := List.length_map _
      rw [← size]
      rcases Utf8.encode_cases c with ⟨_, same⟩ | ⟨_, _, same⟩ | ⟨_, _, same⟩ | ⟨_, _, same⟩ <;> simp [same]
    change (String.utf8EncodeChar c ++ Utf8.encodeText text).length ≤ _
    rw [List.length_append, List.length_cons]
    omega

theorem vessel_raw_short (mmsi : Nat) : (rawOf (vesselBody mmsi)).length ≤ carryCaps.bytes := by
  have payload : (vesselPayload mmsi).length = 7 := by
    rw [vesselPayload, FeedModel.Bits.armoured, List.length_map, List.length_range, vessel_bits]
  have talker : FeedModel.talker.length = 5 := by decide
  have one : (decimal 1).length = 1 := by decide
  have four : (decimal 4).length = 1 := by decide
  have size := encodeText_length (trimText (sentence (vesselBody mmsi)))
  rw [sentence_trim] at size
  simp only [vesselBody, body, List.length_append, List.length_cons, List.length_nil, payload, talker, one, four] at size
  rw [rawOf, sentence_trim]
  exact size.trans (by decide)

theorem pushRaw_first {raw : Bytes} (short : raw.length ≤ carryCaps.bytes) :
    Carry.pushRaw {} raw = (⟨[raw], raw.length, false⟩, 0) := by
  have fits : ¬ (carryCaps.frames < ([] : List Bytes).length + 1 ∨ carryCaps.bytes < 0 + raw.length) := by
    rintro (many | long)
    · exact absurd many (by decide)
    · omega
  change Buffer.dropOver carryCaps List.length [raw] (0 + raw.length) false 0 = _
  rw [Buffer.dropOver, if_neg fits, Nat.zero_add]

/-- After the messages of the vessels `0, 1, ..., n - 1`, and no others. -/
structure Filled (n : Nat) (w : Watched Unit) : Prop where
  order : w.parser.carry.order = List.range n
  free : ∀ k, n ≤ k → w.parser.carry.map k = none
  dropped : w.parser.dropped = 0
  events : w.events = []
  history : w.history = (List.range n).map fun k => (k, rawOf (vesselBody k))

/-- The message of one more vessel, which finds no entry of its own. -/
theorem vessel_parse {n : Nat} {w : Watched Unit} (filled : Filled n w) (small : n < 2^30) :
    w.parse Floats.idle deafRadar (vesselArrival n) =
      { parser := { w.parser with carry :=
          ⟨Function.update w.parser.carry.evict.map n (some ⟨[rawOf (vesselBody n)], (rawOf (vesselBody n)).length, false⟩),
            w.parser.carry.evict.order ++ [n]⟩ },
        history := (List.range (n + 1)).map fun k => (k, rawOf (vesselBody k)), events := [] } := by
  have step := vessel_step w.parser small
  have entry : w.parser.carry.entry n {} = ⟨Function.update w.parser.carry.evict.map n (some {}),
      w.parser.carry.evict.order ++ [n]⟩ := by
    rw [MmsiCache.entry, filled.free n (Nat.le_refl n)]
    rfl
  have carried : ({ w.parser with carry := w.parser.carry.entry n {} } : Parser Unit).pushRaw n (rawOf (vesselBody n)) =
      { w.parser with carry := ⟨Function.update w.parser.carry.evict.map n
        (some ⟨[rawOf (vesselBody n)], (rawOf (vesselBody n)).length, false⟩), w.parser.carry.evict.order ++ [n]⟩ } := by
    rw [Parser.pushRaw, entry]
    have value : (MmsiCache.mk (Function.update w.parser.carry.evict.map n (some ({} : Carry)))
        (w.parser.carry.evict.order ++ [n])).value n {} = {} := by
      simp [MmsiCache.value]
    dsimp only
    rw [value, pushRaw_first (vessel_raw_short n)]
    simp only [MmsiCache.set, Function.update_idem, Nat.add_zero]
  rw [watched_parse, step.1, step.2, carried, filled.history, filled.events, List.range_succ, List.map_append]
  rfl

theorem filled_step {n : Nat} {w : Watched Unit} (filled : Filled n w) (room : n < maxVessels) :
    Filled (n + 1) (w.parse Floats.idle deafRadar (vesselArrival n)) := by
  have small : n < 2^30 := Nat.lt_trans room (by decide)
  have stay : w.parser.carry.evict = w.parser.carry := by
    rw [MmsiCache.evict, filled.order, List.length_range, if_neg (Nat.not_le.mpr room)]
  rw [vessel_parse filled small, stay]
  refine ⟨?_, ?_, filled.dropped, rfl, rfl⟩
  · dsimp only
    rw [filled.order, List.range_succ]
  · intro k later
    dsimp only
    rw [Function.update_of_ne (by omega)]
    exact filled.free k (by omega)

def crowd : Watched Unit := { parser := Parser.new "ais-coast-1" none () }

theorem filled_run {n : Nat} (room : n ≤ maxVessels) :
    Filled n (crowd.run Floats.idle deafRadar ((List.range n).map vesselArrival)) := by
  induction n with
  | zero => exact ⟨rfl, fun _ _ => rfl, rfl, rfl, rfl⟩
  | succ n ih =>
    rw [List.range_succ, List.map_append, List.map_singleton, run_concat]
    exact filled_step (ih (by omega)) room

/-- With nothing counted and no event, a sentence that is not pending is not accounted for. -/
theorem not_conserved {w : Watched ρ} (mmsi : Nat) (raw : Bytes) (carried : (mmsi, raw) ∈ w.history)
    (silent : w.events = []) (uncounted : w.parser.dropped = 0) (gone : w.parser.carry.map mmsi = none) :
    ¬ w.Conserved := by
  rintro ⟨sent, carries, balanced⟩
  rw [silent] at carries
  rw [List.forall₂_nil_left_iff.mp carries, uncounted] at balanced
  have buffer : (w.parser.buffer mmsi).pending = [] := by
    rw [Parser.buffer, MmsiCache.value, gone]
    rfl
  have member : raw ∈ ofKey mmsi w.history := List.mem_filterMap.mpr ⟨(mmsi, raw), carried, by simp⟩
  rw [balanced.all_pending, buffer] at member
  cases member

theorem full_cache_loses {n : Nat} {w : Watched Unit} (filled : Filled n w) (full : n = maxVessels) :
    ¬ (w.parse Floats.idle deafRadar (vesselArrival n)).Conserved := by
  have some : 0 < n := by rw [full]; decide
  have small : n < 2^30 := by rw [full]; decide
  have evicted : w.parser.carry.evict.map 0 = none := by
    rw [MmsiCache.evict, filled.order, List.length_range, if_pos full.ge]
    obtain ⟨m, rfl⟩ : ∃ m, n = m + 1 := ⟨n - 1, by omega⟩
    rw [List.range_succ_eq_map]
    simp
  rw [vessel_parse filled small]
  apply not_conserved 0 (rawOf (vesselBody 0))
  · exact List.mem_map.mpr ⟨0, List.mem_range.mpr (by omega), rfl⟩
  · rfl
  · exact filled.dropped
  · dsimp only
    rw [Function.update_of_ne (by omega)]
    exact evicted

/-- One vessel more than the cache holds, and the first vessel's sentence is nowhere. -/
theorem evicted_sentence_is_lost :
    ¬ (crowd.run Floats.idle deafRadar ((List.range (maxVessels + 1)).map vesselArrival)).Conserved := by
  have lost := full_cache_loses (filled_run (Nat.le_refl maxVessels)) rfl
  rw [List.range_succ, List.map_append, List.map_singleton, run_concat]
  exact lost

end Eviction

end AisProof
