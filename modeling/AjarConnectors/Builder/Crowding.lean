import AjarConnectors.Builder.Optional

namespace BuilderModel

open EventModel

/-- The errors of a builder that was told too many entries, or one key twice. -/
def BuildError.crowds : BuildError → Bool
  | .tooManyAttributes _ _ | .tooManyMetadata _ _ | .duplicateAttributeKey _ | .duplicateMetadataKey _ => true
  | _ => false

end BuilderModel

namespace BuilderProof

open BuilderModel EventModel

/-- The entries fit and no key is there twice. -/
structure Roomy (calls : List Call) : Prop where
  attributes : (attributeKeys calls).length ≤ maxAttributes
  metadata : (metadataKeys calls).length ≤ maxMetadata
  attributeKeys : (attributeKeys calls).Nodup
  metadataKeys : (metadataKeys calls).Nodup

/-- What the builder asks before it counts the entries. -/
structure Admitted (sourceId entityType : String) (calls : List Call) : Prop where
  id : (lastGiven Call.id? calls).isSome
  timestamp : ∃ ts, lastGiven Call.timestamp? calls = some ts ∧ Rust.isRfc3339 ts = true
  location : LocationValid calls
  source : sourceId ≠ ""
  entity : entityType ≠ ""
  namespaced : .allowUnnamespacedEntityType ∈ calls ∨ Rust.isNamespaced entityType = true
  confidence : Rust.outsideUnit (confidenceOf calls) = false
  tags : (calls.filterMap Call.policyTag?).length ≤ maxPolicyTags

/-- The fields that pass the checks before the entries are counted. -/
structure Passable (f : Fields) : Prop where
  source : f.sourceId ≠ ""
  entity : f.entityType ≠ ""
  named : ¬ (f.strictEntityNamespace && !Rust.isNamespaced f.entityType) = true
  confidence : ¬ Rust.outsideUnit f.confidence = true
  tags : ¬ maxPolicyTags < f.policyTags.length

def Crowded (result : Except BuildError Event) : Prop := ∃ err, result = .error err ∧ err.crowds = true

theorem crowded_error (err : BuildError) : Crowded (.error err) ↔ err.crowds = true := by
  constructor
  · rintro ⟨_, same, crowds⟩
    cases same
    exact crowds
  · exact fun crowds => ⟨err, rfl, crowds⟩

theorem crowded_ok (event : Event) : ¬ Crowded (.ok event) := by
  rintro ⟨_, same, _⟩
  cases same

section Finish

variable (f : Fields) (id timestamp : String) (location : Option GeoPoint)

theorem finish_not_crowded (refused : ¬ Passable f) :
    ¬ Crowded (f.finish Rust.isNamespaced Rust.outsideUnit byteLess id timestamp location) := by
  unfold Fields.finish
  split
  · simp [crowded_error, BuildError.crowds]
  split
  · simp [crowded_error, BuildError.crowds]
  split
  · simp [crowded_error, BuildError.crowds]
  split
  · simp [crowded_error, BuildError.crowds]
  split
  · simp [crowded_error, BuildError.crowds]
  · rename_i source entity named confidence tags
    exact absurd ⟨source, entity, named, confidence, tags⟩ refused

theorem finish_crowded_iff (passable : Passable f) :
    Crowded (f.finish Rust.isNamespaced Rust.outsideUnit byteLess id timestamp location) ↔
      ¬ (f.attributes.length ≤ maxAttributes ∧ f.metadata.length ≤ maxMetadata ∧
        (f.attributes.map Attribute.key).Nodup ∧ (f.metadata.map Attribute.key).Nodup) := by
  unfold Fields.finish
  rw [if_neg passable.source, if_neg passable.entity, if_neg passable.named, if_neg passable.confidence,
    if_neg passable.tags]
  split
  · rename_i many
    simp only [crowded_error, BuildError.crowds, true_iff]
    exact fun room => absurd room.1 (Nat.not_le.mpr many)
  split
  · rename_i many
    simp only [crowded_error, BuildError.crowds, true_iff]
    exact fun room => absurd room.2.1 (Nat.not_le.mpr many)
  rename_i attributes metadata
  cases first : Keyed.firstRepeat Attribute.key (Fields.sortByKey byteLess f.attributes) with
  | some key =>
    simp only [crowded_error, BuildError.crowds, true_iff]
    intro room
    rw [(firstRepeat_sortByKey f.attributes).mpr room.2.2.1] at first
    cases first
  | none =>
    cases second : Keyed.firstRepeat Attribute.key (Fields.sortByKey byteLess f.metadata) with
    | some key =>
      simp only [crowded_error, BuildError.crowds, true_iff]
      intro room
      rw [(firstRepeat_sortByKey f.metadata).mpr room.2.2.2] at second
      cases second
    | none =>
      simp only [crowded_ok, false_iff, not_not]
      exact ⟨Nat.not_lt.mp attributes, Nat.not_lt.mp metadata, (firstRepeat_sortByKey f.attributes).mp first,
        (firstRepeat_sortByKey f.metadata).mp second⟩

end Finish

section Run

variable (sourceId entityType : String) (calls : List Call)

theorem passable_iff :
    Passable (fieldsOf sourceId entityType calls) ↔ sourceId ≠ "" ∧ entityType ≠ "" ∧
      (.allowUnnamespacedEntityType ∈ calls ∨ Rust.isNamespaced entityType = true) ∧
      Rust.outsideUnit (confidenceOf calls) = false ∧ (calls.filterMap Call.policyTag?).length ≤ maxPolicyTags := by
  have after := fieldsAfter sourceId entityType calls
  have named : ¬ ((fieldsOf sourceId entityType calls).strictEntityNamespace &&
      !Rust.isNamespaced (fieldsOf sourceId entityType calls).entityType) = true ↔
      (.allowUnnamespacedEntityType ∈ calls ∨ Rust.isNamespaced entityType = true) := by
    rw [Bool.and_eq_true, after.strict, after.entityType]
    simp only [Bool.not_eq_true', ← Bool.not_eq_true]
    tauto
  constructor
  · rintro ⟨source, entity, strict, confidence, tags⟩
    rw [after.sourceId] at source
    rw [after.entityType] at entity
    rw [after.confidence] at confidence
    rw [after.policyTags] at tags
    exact ⟨source, entity, named.mp strict, by simpa using confidence, Nat.not_lt.mp tags⟩
  · rintro ⟨source, entity, lenient, confidence, tags⟩
    constructor
    · rw [after.sourceId]
      exact source
    · rw [after.entityType]
      exact entity
    · exact named.mpr lenient
    · rw [after.confidence]
      simp [confidence]
    · rw [after.policyTags]
      exact Nat.not_lt.mpr tags

theorem roomy_iff :
    Roomy calls ↔ (fieldsOf sourceId entityType calls).attributes.length ≤ maxAttributes ∧
      (fieldsOf sourceId entityType calls).metadata.length ≤ maxMetadata ∧
      ((fieldsOf sourceId entityType calls).attributes.map Attribute.key).Nodup ∧
      ((fieldsOf sourceId entityType calls).metadata.map Attribute.key).Nodup := by
  have after := fieldsAfter sourceId entityType calls
  rw [after.attributes, after.metadata]
  constructor
  · rintro ⟨attributes, metadata, attributeKeys, metadataKeys⟩
    rw [BuilderProof.attributeKeys, List.length_map] at attributes
    rw [BuilderProof.metadataKeys, List.length_map] at metadata
    exact ⟨attributes, metadata, attributeKeys, metadataKeys⟩
  · rintro ⟨attributes, metadata, attributeKeys, metadataKeys⟩
    refine ⟨?_, ?_, attributeKeys, metadataKeys⟩
    · rw [BuilderProof.attributeKeys, List.length_map]
      exact attributes
    · rw [BuilderProof.metadataKeys, List.length_map]
      exact metadata

/-- The builder complains of its entries exactly if they do not fit and nothing else is wrong before them. -/
theorem run_crowded_iff :
    Crowded (Rust.run sourceId entityType calls) ↔ Admitted sourceId entityType calls ∧ ¬ Roomy calls := by
  unfold Rust.run Rust.EventBuilder.build
  rw [rust_state]
  cases named : lastGiven Call.id? calls with
  | none =>
    simp only [crowded_error, BuildError.crowds, Bool.false_eq_true, false_iff]
    rintro ⟨admitted, _⟩
    have given := admitted.id
    rw [named] at given
    cases given
  | some id =>
    cases dated : lastGiven Call.timestamp? calls with
    | none =>
      simp only [crowded_error, BuildError.crowds, Bool.false_eq_true, false_iff]
      rintro ⟨admitted, _⟩
      rcases admitted.timestamp with ⟨_, given, _⟩
      rw [dated] at given
      cases given
    | some ts =>
      simp only
      by_cases valid : Rust.isRfc3339 ts = true
      · rw [if_neg (by simp [valid])]
        cases placed : (lastGiven Call.location? calls).filter fun loc => !Rust.validLocation loc with
        | some loc =>
          simp only [crowded_error, BuildError.crowds, Bool.false_eq_true, false_iff]
          rintro ⟨admitted, _⟩
          rcases Option.filter_eq_some_iff.mp placed with ⟨given, bad⟩
          rw [admitted.location loc given] at bad
          cases bad
        | none =>
          have location : LocationValid calls := by
            intro loc given
            have kept := Option.filter_eq_none_iff.mp placed loc given
            simpa using kept
          simp only
          rw [show Rust.keyLess = byteLess from rfl]
          by_cases passable : Passable (fieldsOf sourceId entityType calls)
          · rw [finish_crowded_iff _ _ _ _ passable, ← roomy_iff]
            have passed := (passable_iff sourceId entityType calls).mp passable
            have admitted : Admitted sourceId entityType calls :=
              ⟨by rw [named]; rfl, ⟨ts, dated, valid⟩, location, passed.1, passed.2.1, passed.2.2.1, passed.2.2.2.1,
                passed.2.2.2.2⟩
            simp only [admitted, true_and]
          · simp only [finish_not_crowded _ _ _ _ passable, false_iff]
            rintro ⟨admitted, _⟩
            exact passable ((passable_iff sourceId entityType calls).mpr
              ⟨admitted.source, admitted.entity, admitted.namespaced, admitted.confidence, admitted.tags⟩)
      · rw [if_pos (by simpa using valid)]
        simp only [crowded_error, BuildError.crowds, Bool.false_eq_true, false_iff]
        rintro ⟨admitted, _⟩
        rcases admitted.timestamp with ⟨_, given, right⟩
        rw [dated] at given
        cases given
        exact valid right

end Run

/-! What a part of a call sequence adds: the keys it can set, how many of each kind, and the places. -/

def entry? : Call → Option String
  | .attribute key _ | .metadata key _ => some key
  | _ => none

def entryKeys (calls : List Call) : List String := calls.filterMap entry?

/-- A call that sets neither id nor time nor tags, and no confidence the builder refuses. -/
def plain : Call → Bool
  | .attribute _ _ | .metadata _ _ | .location _ _ _ => true
  | .confidence c => !Rust.outsideUnit c
  | _ => false

structure Layout where
  /-- The keys of either kind that can be set, in this order. -/
  keys : List String := []
  /-- At most so many attributes. -/
  attributes : Nat := 0
  /-- Exactly so many metadata entries. -/
  metadata : Nat := 0
  places : List GeoPoint := []

def Layout.append (a b : Layout) : Layout where
  keys := a.keys ++ b.keys
  attributes := a.attributes + b.attributes
  metadata := a.metadata + b.metadata
  places := a.places ++ b.places

structure Tells (layout : Layout) (calls : List Call) : Prop where
  keys : (entryKeys calls).Sublist layout.keys
  attributes : (attributeKeys calls).length ≤ layout.attributes
  metadata : (metadataKeys calls).length = layout.metadata
  places : calls.filterMap Call.location? = layout.places
  plain : ∀ call ∈ calls, plain call = true

theorem attributeKeys_sublist (calls : List Call) : (attributeKeys calls).Sublist (entryKeys calls) := by
  induction calls with
  | nil => exact List.Sublist.refl _
  | cons call calls ih =>
    cases call <;> simp only [attributeKeys, entryKeys, List.filterMap_cons, Call.attribute?, entry?, List.map_cons] <;>
      first | exact ih | exact ih.cons_cons _ | exact ih.cons _

theorem metadataKeys_sublist (calls : List Call) : (metadataKeys calls).Sublist (entryKeys calls) := by
  induction calls with
  | nil => exact List.Sublist.refl _
  | cons call calls ih =>
    cases call <;> simp only [metadataKeys, entryKeys, List.filterMap_cons, Call.metadata?, entry?, List.map_cons] <;>
      first | exact ih | exact ih.cons_cons _ | exact ih.cons _

theorem attributeKeys_append (calls more : List Call) :
    attributeKeys (calls ++ more) = attributeKeys calls ++ attributeKeys more := by
  rw [attributeKeys, List.filterMap_append, List.map_append, ← attributeKeys, ← attributeKeys]

theorem metadataKeys_append (calls more : List Call) :
    metadataKeys (calls ++ more) = metadataKeys calls ++ metadataKeys more := by
  rw [metadataKeys, List.filterMap_append, List.map_append, ← metadataKeys, ← metadataKeys]

theorem metadataKeys_mono {calls more : List Call} (within : calls.Sublist more) :
    (metadataKeys calls).Sublist (metadataKeys more) := (within.filterMap _).map _

namespace Tells

section

variable {layout layout' : Layout} {calls calls' : List Call}

theorem attr (key value : String) : Tells { keys := [key], attributes := 1 } [.attribute key value] :=
  ⟨List.Sublist.refl _, Nat.le_refl _, rfl, rfl, by simp [BuilderProof.plain]⟩

theorem metadatum (key value : String) : Tells { keys := [key], metadata := 1 } [.metadata key value] :=
  ⟨List.Sublist.refl _, Nat.le_refl _, rfl, rfl, by simp [BuilderProof.plain]⟩

theorem location (latitude longitude altitudeM : F64) :
    Tells { places := [⟨latitude, longitude, altitudeM⟩] } [.location latitude longitude altitudeM] :=
  ⟨List.Sublist.refl _, Nat.le_refl _, rfl, rfl, by simp [BuilderProof.plain]⟩

theorem confidence {c : F64} (inside : Rust.outsideUnit c = false) : Tells {} [.confidence c] :=
  ⟨List.Sublist.refl _, Nat.le_refl _, rfl, rfl, by simp [BuilderProof.plain, inside]⟩

theorem empty (keys : List String) (attributes : Nat) : Tells { keys := keys, attributes := attributes } [] :=
  ⟨List.nil_sublist _, Nat.zero_le _, rfl, rfl, by simp⟩

theorem append (first : Tells layout calls) (second : Tells layout' calls') :
    Tells (layout.append layout') (calls ++ calls') := by
  constructor
  · rw [entryKeys, List.filterMap_append]
    exact first.keys.append second.keys
  · rw [attributeKeys_append, List.length_append]
    exact Nat.add_le_add first.attributes second.attributes
  · rw [metadataKeys_append, List.length_append, first.metadata, second.metadata]
    rfl
  · rw [List.filterMap_append, first.places, second.places]
    rfl
  · intro call member
    rcases List.mem_append.mp member with member | member
    · exact first.plain call member
    · exact second.plain call member

theorem of_eq (tells : Tells layout calls) (same : layout = layout') : Tells layout' calls := same ▸ tells

theorem widen {keys : List String} (tells : Tells layout calls) (within : layout.keys.Sublist keys) :
    Tells { layout with keys := keys } calls :=
  ⟨tells.keys.trans within, tells.attributes, tells.metadata, tells.places, tells.plain⟩

/-- Where every key makes an entry of metadata, these are the keys. -/
theorem metadataKeys_eq (tells : Tells layout calls) (full : layout.metadata = layout.keys.length) :
    metadataKeys calls = layout.keys :=
  ((metadataKeys_sublist calls).trans tells.keys).eq_of_length (tells.metadata.trans full)

theorem metadata_le (tells : Tells layout calls) : layout.metadata ≤ layout.keys.length := by
  rw [← tells.metadata]
  exact ((metadataKeys_sublist calls).trans tells.keys).length_le

theorem ifGiven {α : Type} {keys : List String} {attributes : Nat} {count : α → Nat} {make : α → List Call}
    (value : Option α) (each : ∀ v, Tells ⟨keys, attributes, count v, []⟩ (make v)) :
    Tells ⟨keys, attributes, value.elim 0 count, []⟩ (BuilderModel.ifGiven value make) := by
  cases value with
  | none => exact empty keys attributes
  | some v => exact each v

/-- An optional field that becomes one metadata entry. -/
theorem optional {α : Type} (value : Option α) (key : String) (text : α → String) :
    Tells ⟨[key], 0, value.isSome.toNat, []⟩ (BuilderModel.ifGiven value fun v => [.metadata key (text v)]) := by
  cases value with
  | none => exact empty [key] 0
  | some v => exact metadatum key (text v)

theorem when {keys : List String} {attributes count : Nat} (flag : Bool)
    (inside : Tells ⟨keys, attributes, count, []⟩ calls) :
    Tells ⟨keys, attributes, flag.toNat * count, []⟩ (if flag then calls else []) := by
  cases flag with
  | false => exact of_eq (empty keys attributes) (by simp)
  | true => exact of_eq inside (by simp)

theorem flatMap {α : Type} {keys : α → List String} {count : α → Nat} {make : α → List Call} (items : List α)
    (each : ∀ item, Tells ⟨keys item, 0, count item, []⟩ (make item)) :
    Tells ⟨items.flatMap keys, 0, (items.map count).sum, []⟩ (items.flatMap make) := by
  induction items with
  | nil => exact empty [] 0
  | cons item items ih => exact (each item).append ih

end

end Tells

/-- After calls that set the id and the time, plain calls leave both. -/
theorem lastGiven_plain {α : Type} {pick : Call → Option α} (calls more : List Call)
    (silent : ∀ call, plain call = true → pick call = none) (tells : ∀ call ∈ more, plain call = true) :
    lastGiven pick (calls ++ more) = lastGiven pick calls := by
  rw [lastGiven_getLast, lastGiven_getLast, List.filterMap_append,
    List.filterMap_eq_nil_iff.mpr fun call member => silent call (tells call member), List.append_nil]

end BuilderProof
