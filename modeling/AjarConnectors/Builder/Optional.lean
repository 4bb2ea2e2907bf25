import AjarConnectors.Builder.Verdicts

namespace BuilderModel

/-- The calls made if a value is there. -/
def ifGiven {α : Type} (value : Option α) (calls : α → List Call) : List Call := (value.map calls).getD []

def maxAltIdLen : Nat := 128

/-- `GovernedIdentity::identity`: both keys, or neither when the id is empty or too long. -/
def identity (standard id : String) : List Call :=
  if id = "" ∨ maxAltIdLen < (Utf8.bytes id).length then []
  else [.attribute "alt_id" id, .attribute "alt_id_standard" standard]

end BuilderModel

namespace BuilderProof

open BuilderModel EventModel

def payload? : Call → Option (List UInt8)
  | .payload bytes => some bytes
  | _ => none

def attributeKeys (calls : List Call) : List String := (calls.filterMap Call.attribute?).map Attribute.key

def metadataKeys (calls : List Call) : List String := (calls.filterMap Call.metadata?).map Attribute.key

/-- What a list of calls can set: some of these keys, in this order, and exactly these other values. -/
structure Outline where
  attributes : List String := []
  metadata : List String := []
  ids : List String := []
  times : List String := []
  places : List GeoPoint := []
  payloads : List (List UInt8) := []

def Outline.append (a b : Outline) : Outline where
  attributes := a.attributes ++ b.attributes
  metadata := a.metadata ++ b.metadata
  ids := a.ids ++ b.ids
  times := a.times ++ b.times
  places := a.places ++ b.places
  payloads := a.payloads ++ b.payloads

structure Fits (o : Outline) (calls : List Call) : Prop where
  attributes : (attributeKeys calls).Sublist o.attributes
  metadata : (metadataKeys calls).Sublist o.metadata
  ids : calls.filterMap Call.id? = o.ids
  times : calls.filterMap Call.timestamp? = o.times
  places : calls.filterMap Call.location? = o.places
  payloads : calls.filterMap payload? = o.payloads
  tags : calls.filterMap Call.policyTag? = []
  confidence : calls.filterMap Call.confidence? = []

namespace Fits

section

variable {o o' : Outline} {calls calls' : List Call}

theorem id (value : String) : Fits { ids := [value] } [.id value] := by
  constructor <;> first | exact List.Sublist.refl _ | rfl

theorem timestamp (ts : String) : Fits { times := [ts] } [.timestamp ts] := by
  constructor <;> first | exact List.Sublist.refl _ | rfl

theorem location (latitude longitude altitudeM : F64) :
    Fits { places := [⟨latitude, longitude, altitudeM⟩] } [.location latitude longitude altitudeM] := by
  constructor <;> first | exact List.Sublist.refl _ | rfl

theorem payload (bytes : List UInt8) : Fits { payloads := [bytes] } [.payload bytes] := by
  constructor <;> first | exact List.Sublist.refl _ | rfl

theorem attr (key value : String) : Fits { attributes := [key] } [.attribute key value] := by
  constructor <;> first | exact List.Sublist.refl _ | rfl

theorem metadatum (key value : String) : Fits { metadata := [key] } [.metadata key value] := by
  constructor <;> first | exact List.Sublist.refl _ | rfl

theorem append (first : Fits o calls) (second : Fits o' calls') : Fits (o.append o') (calls ++ calls') := by
  constructor
  · rw [attributeKeys, List.filterMap_append, List.map_append]
    exact first.attributes.append second.attributes
  · rw [metadataKeys, List.filterMap_append, List.map_append]
    exact first.metadata.append second.metadata
  · rw [List.filterMap_append, first.ids, second.ids]
    rfl
  · rw [List.filterMap_append, first.times, second.times]
    rfl
  · rw [List.filterMap_append, first.places, second.places]
    rfl
  · rw [List.filterMap_append, first.payloads, second.payloads]
    rfl
  · rw [List.filterMap_append, first.tags, second.tags]
    rfl
  · rw [List.filterMap_append, first.confidence, second.confidence]
    rfl

theorem of_eq (fits : Fits o calls) (same : o = o') : Fits o' calls := same ▸ fits

theorem empty (attributes metadata : List String) : Fits { attributes := attributes, metadata := metadata } [] :=
  ⟨List.nil_sublist _, List.nil_sublist _, rfl, rfl, rfl, rfl, rfl, rfl⟩

/-- Calls that set keys only may be left out. -/
theorem ifGiven {α : Type} {attributes metadata : List String} {make : α → List Call} (value : Option α)
    (each : ∀ v, Fits { attributes := attributes, metadata := metadata } (make v)) :
    Fits { attributes := attributes, metadata := metadata } (BuilderModel.ifGiven value make) := by
  cases value with
  | none => exact empty attributes metadata
  | some v => exact each v

theorem when {p : Prop} [Decidable p] {attributes metadata : List String}
    (inside : Fits { attributes := attributes, metadata := metadata } calls) :
    Fits { attributes := attributes, metadata := metadata } (if p then calls else []) := by
  split
  · exact inside
  · exact empty attributes metadata

theorem identity (standard id : String) :
    Fits { attributes := ["alt_id", "alt_id_standard"] } (BuilderModel.identity standard id) := by
  rw [BuilderModel.identity]
  split
  · exact empty _ _
  · exact (attr "alt_id" id).append (attr "alt_id_standard" standard)

end

end Fits

theorem lastGiven_getLast {α : Type} (pick : Call → Option α) (calls : List Call) :
    lastGiven pick calls = (calls.filterMap pick).getLast? := by
  induction calls using List.reverseRecOn with
  | nil => rfl
  | append_singleton calls call ih =>
    rw [lastGiven_concat, List.filterMap_append, ih]
    cases picked : pick call <;> simp [picked]

theorem payload_after (sourceId entityType : String) (calls : List Call) :
    (fieldsOf sourceId entityType calls).payload = (calls.filterMap payload?).getLast?.getD [] := by
  induction calls using List.reverseRecOn with
  | nil => rfl
  | append_singleton calls call ih =>
    rw [fieldsOf_concat, List.filterMap_append]
    cases call <;> simp [Fields.call, payload?, ih]

/-- A builder whose keys cannot collide builds, if its time and place are valid. -/
theorem Fits.build {o : Outline} {calls : List Call} {sourceId entityType id ts : String} (fits : Fits o calls)
    (source : sourceId ≠ "") (entity : Rust.isNamespaced entityType = true) (attributes : o.attributes.Nodup)
    (few : o.attributes.length ≤ maxAttributes) (metadata : o.metadata.Nodup) (small : o.metadata.length ≤ maxMetadata)
    (named : o.ids = [id]) (timed : o.times = [ts]) (dated : Rust.isRfc3339 ts = true)
    (placed : ∀ place ∈ o.places, Rust.validLocation place = true) :
    Rust.run sourceId entityType calls =
      .ok (eventOf (fieldsOf sourceId entityType calls) id ts o.places.getLast?) := by
  have valid : CommonlyValid sourceId entityType calls := by
    have filled : entityType ≠ "" := by
      rintro rfl
      exact absurd entity (by decide)
    refine ⟨source, filled, Or.inr entity, ?_, ?_, ?_, ?_, ?_⟩
    · rw [fits.tags]
      exact Nat.zero_le _
    · have count := fits.attributes.length_le
      rw [attributeKeys, List.length_map] at count
      exact count.trans few
    · have count := fits.metadata.length_le
      rw [metadataKeys, List.length_map] at count
      exact count.trans small
    · exact attributes.sublist fits.attributes
    · exact metadata.sublist fits.metadata
  have kept : Rust.outsideUnit (confidenceOf calls) = false := by
    rw [confidenceOf, lastGiven_getLast, fits.confidence]
    decide
  have place : LocationValid calls := by
    intro loc found
    rw [lastGiven_getLast, fits.places] at found
    exact placed loc (List.mem_of_getLast? found)
  have built := rust_run sourceId entityType calls
  rw [lastGiven_getLast Call.id?, lastGiven_getLast Call.timestamp?, lastGiven_getLast Call.location?, fits.ids, fits.times,
    fits.places, named, timed] at built
  simp only [List.getLast?_singleton, Option.bind_some] at built
  rw [if_pos ⟨dated, place, valid, kept⟩] at built
  cases found : Rust.run sourceId entityType calls with
  | error e =>
    rw [found] at built
    cases built
  | ok event =>
    rw [found] at built
    exact congrArg Except.ok (Option.some.inj built)

theorem mem_ifGiven {α : Type} {value : Option α} {make : α → List Call} {call : Call} :
    call ∈ ifGiven value make ↔ ∃ v, value = some v ∧ call ∈ make v := by
  cases value <;> simp [ifGiven]

theorem identity_metadata {standard id key value : String} : .metadata key value ∉ identity standard id := by
  unfold BuilderModel.identity
  split <;> simp

theorem mem_metadata {calls : List Call} {key value : String} :
    ⟨key, value⟩ ∈ calls.filterMap Call.metadata? ↔ .metadata key value ∈ calls := by
  rw [List.mem_filterMap]
  constructor
  · rintro ⟨call, member, found⟩
    cases call <;> cases found
    exact member
  · exact fun member => ⟨_, member, rfl⟩

theorem mem_attributes {calls : List Call} {key value : String} :
    ⟨key, value⟩ ∈ calls.filterMap Call.attribute? ↔ .attribute key value ∈ calls := by
  rw [List.mem_filterMap]
  constructor
  · rintro ⟨call, member, found⟩
    cases call <;> cases found
    exact member
  · exact fun member => ⟨_, member, rfl⟩

theorem mem_sortByKey {entries : List Attribute} {entry : Attribute} :
    entry ∈ Fields.sortByKey byteLess entries ↔ entry ∈ entries :=
  (Keyed.perm_stableSort _ entries).mem_iff

/-- The event holds what the calls said. -/
structure Records (calls : List Call) (event : Event) : Prop where
  attributes : ∀ key value, ⟨key, value⟩ ∈ event.attributes ↔ .attribute key value ∈ calls
  metadata : ∀ key value, ⟨key, value⟩ ∈ event.metadata ↔ .metadata key value ∈ calls
  payload : event.payload = (calls.filterMap payload?).getLast?.getD []

theorem eventOf_records (sourceId entityType : String) (calls : List Call) (id ts : String) (place : Option GeoPoint) :
    Records calls (eventOf (fieldsOf sourceId entityType calls) id ts place) := by
  have after := fieldsAfter sourceId entityType calls
  refine ⟨fun key value => ?_, fun key value => ?_, payload_after sourceId entityType calls⟩
  · rw [eventOf, mem_sortByKey, after.attributes, mem_attributes]
  · rw [eventOf, mem_sortByKey, after.metadata, mem_metadata]

theorem eventOf_entityType (sourceId entityType : String) (calls : List Call) (id ts : String)
    (place : Option GeoPoint) : (eventOf (fieldsOf sourceId entityType calls) id ts place).entityType = entityType :=
  (fieldsAfter sourceId entityType calls).entityType

/-- Whatever is built has the type it was asked for and holds what the calls said, and they were valid. -/
theorem run_ok {sourceId entityType : String} {calls : List Call} {event : Event}
    (built : Rust.run sourceId entityType calls = .ok event) :
    (∃ id ts, event = eventOf (fieldsOf sourceId entityType calls) id ts (lastGiven Call.location? calls)) ∧
      CommonlyValid sourceId entityType calls ∧ LocationValid calls := by
  have run := rust_run sourceId entityType calls
  rw [built] at run
  rcases Option.bind_eq_some_iff.mp run.symm with ⟨id, _, rest⟩
  rcases Option.bind_eq_some_iff.mp rest with ⟨ts, _, made⟩
  split at made
  · rename_i valid
    exact ⟨⟨id, ts, (Option.some.inj made).symm⟩, valid.2.2.1, valid.2.1⟩
  · cases made

/-- With keys that cannot collide, only the source id, the time and the place can be refused. -/
theorem Fits.built_iff {o : Outline} {calls : List Call} {sourceId entityType id ts : String} {place : GeoPoint}
    (fits : Fits o calls) (entity : Rust.isNamespaced entityType = true) (attributes : o.attributes.Nodup)
    (few : o.attributes.length ≤ maxAttributes) (metadata : o.metadata.Nodup) (small : o.metadata.length ≤ maxMetadata)
    (named : o.ids = [id]) (timed : o.times = [ts]) (located : o.places = [place]) :
    (∃ event, Rust.run sourceId entityType calls = .ok event) ↔
      sourceId ≠ "" ∧ Rust.isRfc3339 ts = true ∧ Rust.validLocation place = true := by
  constructor
  · rintro ⟨event, built⟩
    have run := rust_run sourceId entityType calls
    rw [built, lastGiven_getLast Call.id?, lastGiven_getLast Call.timestamp?, fits.ids, fits.times, named, timed] at run
    simp only [List.getLast?_singleton, Option.bind_some] at run
    split at run
    · rename_i valid
      refine ⟨valid.2.2.1.source, valid.1, valid.2.1 place ?_⟩
      rw [lastGiven_getLast, fits.places, located]
      rfl
    · cases run
  · rintro ⟨source, dated, placed⟩
    refine ⟨_, fits.build source entity attributes few metadata small named timed dated ?_⟩
    intro other member
    rw [located] at member
    rw [List.mem_singleton.mp member]
    exact placed

end BuilderProof
