import AjarConnectors.Builder.Agreement

namespace BuilderModel

open EventModel

namespace Call

def id? : Call → Option String
  | .id value => some value
  | _ => none

def timestamp? : Call → Option String
  | .timestamp ts => some ts
  | _ => none

def location? : Call → Option GeoPoint
  | .location latitude longitude altitudeM => some ⟨latitude, longitude, altitudeM⟩
  | _ => none

def confidence? : Call → Option F64
  | .confidence value => some value
  | _ => none

def policyTag? : Call → Option String
  | .policyTag tag => some tag
  | _ => none

def attribute? : Call → Option Attribute
  | .attribute key value => some ⟨key, value⟩
  | _ => none

def metadata? : Call → Option Attribute
  | .metadata key value => some ⟨key, value⟩
  | _ => none

end Call

/-- What the last call of one kind set. -/
def lastGiven {α : Type} (pick : Call → Option α) (calls : List Call) : Option α := calls.reverse.findSome? pick

def confidenceOf (calls : List Call) : F64 := (lastGiven Call.confidence? calls).getD .zero

/-- What all four builders ask of a call sequence, apart from id, timestamp, location and confidence. -/
structure CommonlyValid (sourceId entityType : String) (calls : List Call) : Prop where
  source : sourceId ≠ ""
  entity : entityType ≠ ""
  namespaced : .allowUnnamespacedEntityType ∈ calls ∨ Rust.isNamespaced entityType = true
  tags : (calls.filterMap Call.policyTag?).length ≤ maxPolicyTags
  attributes : (calls.filterMap Call.attribute?).length ≤ maxAttributes
  metadata : (calls.filterMap Call.metadata?).length ≤ maxMetadata
  attributeKeys : ((calls.filterMap Call.attribute?).map Attribute.key).Nodup
  metadataKeys : ((calls.filterMap Call.metadata?).map Attribute.key).Nodup

/-- No location, or one inside WGS-84 bounds. -/
def LocationValid (calls : List Call) : Prop :=
  ∀ loc, lastGiven Call.location? calls = some loc → Rust.validLocation loc = true

/-- A call sequence on which the four validators draw the same line. -/
def SameLine (sourceId entityType : String) (calls : List Call) : Prop :=
  CommonlyValid sourceId entityType calls →
    (lastGiven Call.id? calls = some "" → ∀ ts, lastGiven Call.timestamp? calls = some ts →
      Rust.isRfc3339 ts = true → LocationValid calls → Rust.outsideUnit (confidenceOf calls) = true) ∧
    (∀ id ts, lastGiven Call.id? calls = some id → id ≠ "" → lastGiven Call.timestamp? calls = some ts → ts ≠ "" →
      (confidenceOf calls).isNaN = false ∧
      (Rust.outsideUnit (confidenceOf calls) = false → Rust.isRfc3339 ts = true ∧ LocationValid calls))

/-- All four builds succeed with one event, or all four fail. -/
def Agree (sourceId entityType : String) (calls : List Call) : Prop :=
  (Go.run sourceId entityType calls).toOption = (Rust.run sourceId entityType calls).toOption ∧
  (Python.run sourceId entityType calls).toOption = (Rust.run sourceId entityType calls).toOption ∧
  (Cpp.run sourceId entityType calls).toOption = (Rust.run sourceId entityType calls).toOption

end BuilderModel

namespace BuilderProof

open BuilderModel EventModel

theorem filterMap_silent {α β : Type} {pick : Call → Option β} {make : α → Call} (silent : ∀ x, pick (make x) = none)
    (entries : List α) : (entries.map make).filterMap pick = [] := by
  rw [List.filterMap_map, List.filterMap_eq_nil_iff]
  exact fun x _ => silent x

theorem filterMap_given {α β : Type} {pick : Call → Option β} {make : α → Call} {value : α → β}
    (given : ∀ x, pick (make x) = some (value x)) (entries : List α) :
    (entries.map make).filterMap pick = entries.map value := by
  rw [List.filterMap_map, ← List.filterMap_eq_map]
  exact List.filterMap_congr fun x _ => given x

theorem lastGiven_concat {α : Type} (pick : Call → Option α) (calls : List Call) (call : Call) :
    lastGiven pick (calls ++ [call]) = (pick call).or (lastGiven pick calls) := by
  unfold lastGiven
  rw [List.reverse_append, List.reverse_singleton, List.singleton_append, List.findSome?_cons]
  cases pick call <;> rfl

def fieldsOf (sourceId entityType : String) (calls : List Call) : Fields :=
  calls.foldl Fields.call { sourceId := sourceId, entityType := entityType }

theorem fieldsOf_concat (sourceId entityType : String) (calls : List Call) (call : Call) :
    fieldsOf sourceId entityType (calls ++ [call]) = (fieldsOf sourceId entityType calls).call call := by
  unfold fieldsOf
  rw [List.foldl_append]
  rfl

structure FieldsAfter (sourceId entityType : String) (calls : List Call) (f : Fields) : Prop where
  sourceId : f.sourceId = sourceId
  entityType : f.entityType = entityType
  policyTags : f.policyTags = calls.filterMap Call.policyTag?
  confidence : f.confidence = confidenceOf calls
  attributes : f.attributes = calls.filterMap Call.attribute?
  metadata : f.metadata = calls.filterMap Call.metadata?
  strict : f.strictEntityNamespace = true ↔ .allowUnnamespacedEntityType ∉ calls

theorem fieldsAfter (sourceId entityType : String) (calls : List Call) :
    FieldsAfter sourceId entityType calls (fieldsOf sourceId entityType calls) := by
  induction calls using List.reverseRecOn with
  | nil => exact ⟨rfl, rfl, rfl, rfl, rfl, rfl, by simp [fieldsOf]⟩
  | append_singleton calls call ih =>
    rw [fieldsOf_concat]
    rcases ih with ⟨source, entity, tags, confidence, attributes, metadata, strict⟩
    unfold confidenceOf at confidence
    cases call <;> constructor <;>
      simp [Fields.call, Call.policyTag?, Call.attribute?, Call.metadata?, Call.confidence?,
        confidenceOf, lastGiven_concat, source, entity, tags, confidence, attributes, metadata, strict]

theorem rust_state (sourceId entityType : String) (calls : List Call) :
    calls.foldl Rust.EventBuilder.call { sourceId := sourceId, entityType := entityType } =
      { toFields := fieldsOf sourceId entityType calls, id := lastGiven Call.id? calls,
        timestamp := lastGiven Call.timestamp? calls, location := lastGiven Call.location? calls } := by
  induction calls using List.reverseRecOn with
  | nil => rfl
  | append_singleton calls call ih =>
    rw [List.foldl_append, ih]
    simp only [List.foldl_cons, List.foldl_nil, lastGiven_concat, fieldsOf_concat]
    cases call <;> rfl

theorem python_state (sourceId entityType : String) (calls : List Call) :
    calls.foldl Python.EventBuilder.call { sourceId := sourceId, entityType := entityType } =
      { toFields := fieldsOf sourceId entityType calls, id := lastGiven Call.id? calls,
        timestamp := lastGiven Call.timestamp? calls,
        location := (lastGiven Call.location? calls).map fun loc => (loc.latitude, loc.longitude, loc.altitudeM) } := by
  induction calls using List.reverseRecOn with
  | nil => rfl
  | append_singleton calls call ih =>
    rw [List.foldl_append, ih]
    simp only [List.foldl_cons, List.foldl_nil, lastGiven_concat, fieldsOf_concat]
    cases call <;> rfl

theorem go_state (sourceId entityType : String) (calls : List Call) :
    calls.foldl Go.EventBuilder.call { sourceId := sourceId, entityType := entityType } =
      { toFields := fieldsOf sourceId entityType calls, id := (lastGiven Call.id? calls).getD "",
        timestamp := (lastGiven Call.timestamp? calls).getD "", location := lastGiven Call.location? calls } := by
  induction calls using List.reverseRecOn with
  | nil => rfl
  | append_singleton calls call ih =>
    rw [List.foldl_append, ih]
    simp only [List.foldl_cons, List.foldl_nil, lastGiven_concat, fieldsOf_concat]
    cases call <;> rfl

theorem cpp_state (sourceId entityType : String) (calls : List Call) :
    calls.foldl Cpp.EventBuilder.call { sourceId := sourceId, entityType := entityType } =
      { toFields := fieldsOf sourceId entityType calls, id := (lastGiven Call.id? calls).getD "",
        timestamp := (lastGiven Call.timestamp? calls).getD "",
        hasLocation := (lastGiven Call.location? calls).isSome,
        lat := ((lastGiven Call.location? calls).map GeoPoint.latitude).getD .zero,
        lon := ((lastGiven Call.location? calls).map GeoPoint.longitude).getD .zero,
        alt := ((lastGiven Call.location? calls).map GeoPoint.altitudeM).getD .zero } := by
  induction calls using List.reverseRecOn with
  | nil => rfl
  | append_singleton calls call ih =>
    rw [List.foldl_append, ih]
    simp only [List.foldl_cons, List.foldl_nil, lastGiven_concat, fieldsOf_concat]
    cases call <;> rfl

structure Valid (f : Fields) : Prop where
  source : f.sourceId ≠ ""
  entity : f.entityType ≠ ""
  named : f.strictEntityNamespace = false ∨ Rust.isNamespaced f.entityType = true
  tags : f.policyTags.length ≤ maxPolicyTags
  attributes : f.attributes.length ≤ maxAttributes
  metadata : f.metadata.length ≤ maxMetadata
  attributeKeys : (f.attributes.map Attribute.key).Nodup
  metadataKeys : (f.metadata.map Attribute.key).Nodup

theorem valid_iff (sourceId entityType : String) (calls : List Call) :
    Valid (fieldsOf sourceId entityType calls) ↔ CommonlyValid sourceId entityType calls := by
  have after := fieldsAfter sourceId entityType calls
  have lenient : (fieldsOf sourceId entityType calls).strictEntityNamespace = false ↔
      .allowUnnamespacedEntityType ∈ calls := by
    rw [← Bool.not_eq_true, after.strict, not_not]
  constructor
  · intro valid
    rcases valid with ⟨source, entity, named, tags, attributes, metadata, attributeKeys, metadataKeys⟩
    rw [after.sourceId] at source
    rw [lenient, after.entityType] at named
    rw [after.entityType] at entity
    rw [after.policyTags] at tags
    rw [after.attributes] at attributes attributeKeys
    rw [after.metadata] at metadata metadataKeys
    exact ⟨source, entity, named, tags, attributes, metadata, attributeKeys, metadataKeys⟩
  · intro valid
    constructor
    · rw [after.sourceId]
      exact valid.source
    · rw [after.entityType]
      exact valid.entity
    · rw [lenient, after.entityType]
      exact valid.namespaced
    · rw [after.policyTags]
      exact valid.tags
    · rw [after.attributes]
      exact valid.attributes
    · rw [after.metadata]
      exact valid.metadata
    · rw [after.attributes]
      exact valid.attributeKeys
    · rw [after.metadata]
      exact valid.metadataKeys

def eventOf (f : Fields) (id timestamp : String) (location : Option GeoPoint) : Event :=
  { schemaVersion := "v1", id := id, sourceId := f.sourceId, entityType := f.entityType,
    timestamp := timestamp, receivedAt := "", location := location, payload := f.payload,
    policyTags := f.policyTags, confidence := f.confidence,
    attributes := Fields.sortByKey byteLess f.attributes, metadata := Fields.sortByKey byteLess f.metadata }

theorem finish_ok (refused : F64 → Bool) (f : Fields) (id timestamp : String) (location : Option GeoPoint)
    (valid : Valid f) (kept : refused f.confidence = false) :
    f.finish Rust.isNamespaced refused byteLess id timestamp location = .ok (eventOf f id timestamp location) := by
  have named : ¬ (f.strictEntityNamespace && !Rust.isNamespaced f.entityType) = true := by
    rcases valid.named with lenient | named
    · simp [lenient]
    · simp [named]
  unfold Fields.finish
  rw [if_neg valid.source, if_neg valid.entity, if_neg named, if_neg (by simp [kept]),
    if_neg (Nat.not_lt.mpr valid.tags), if_neg (Nat.not_lt.mpr valid.attributes),
    if_neg (Nat.not_lt.mpr valid.metadata), (firstRepeat_sortByKey f.attributes).mpr valid.attributeKeys,
    (firstRepeat_sortByKey f.metadata).mpr valid.metadataKeys]
  rfl

theorem finish_valid (refused : F64 → Bool) (f : Fields) (id timestamp : String) (location : Option GeoPoint)
    (event : Event) (built : f.finish Rust.isNamespaced refused byteLess id timestamp location = .ok event) :
    Valid f ∧ refused f.confidence = false := by
  unfold Fields.finish at built
  repeat' split at built
  all_goals try contradiction
  rename_i source entity named kept tags attributes metadata _ attributeKeys _ metadataKeys
  apply And.intro _ (by simpa using kept)
  constructor
  · exact source
  · exact entity
  · by_cases strict : f.strictEntityNamespace = true
    · right
      simpa [strict] using named
    · left
      simpa using strict
  · exact Nat.not_lt.mp tags
  · exact Nat.not_lt.mp attributes
  · exact Nat.not_lt.mp metadata
  · exact (firstRepeat_sortByKey f.attributes).mp attributeKeys
  · exact (firstRepeat_sortByKey f.metadata).mp metadataKeys

theorem finish_toOption (refused : F64 → Bool) (f : Fields) (id timestamp : String) (location : Option GeoPoint)
    [Decidable (Valid f ∧ refused f.confidence = false)] :
    (f.finish Rust.isNamespaced refused byteLess id timestamp location).toOption =
      if Valid f ∧ refused f.confidence = false then some (eventOf f id timestamp location) else none := by
  split
  · rename_i good
    rw [finish_ok refused f id timestamp location good.1 good.2]
    rfl
  · rename_i bad
    cases result : f.finish Rust.isNamespaced refused byteLess id timestamp location with
    | error e => rfl
    | ok event => exact absurd (finish_valid refused f id timestamp location event result) bad

theorem isNamespaced_eq : Go.isNamespaced = Rust.isNamespaced ∧ Python.isNamespaced = Rust.isNamespaced ∧
    Cpp.isNamespaced = Rust.isNamespaced := by
  apply And.intro _ (And.intro _ _)
  · funext text
    rw [go_isNamespaced, rust_isNamespaced]
  · funext text
    rw [python_isNamespaced, rust_isNamespaced]
  · funext text
    rw [cpp_isNamespaced, rust_isNamespaced]

/-- Two comparisons refuse what one range check refuses, except a NaN. -/
theorem belowOrAbove_eq (c : F64) : Go.belowOrAbove c = (!c.isNaN && Rust.outsideUnit c) := by
  have zero : F64.zero.isNaN = false := by decide
  have one : F64.one.isNaN = false := by decide
  unfold Go.belowOrAbove Rust.outsideUnit F64.lt F64.le
  rw [zero, one]
  cases c.isNaN
  · simp only [Bool.not_false, Bool.true_and, Bool.not_and, ← decide_not, Int.not_le]
  · rfl

theorem not_rfc3339_empty : Rust.isRfc3339 "" = false := by decide

section Runs

open Classical

variable (sourceId entityType : String) (calls : List Call)

theorem rust_run :
    (Rust.run sourceId entityType calls).toOption =
      (lastGiven Call.id? calls).bind fun id => (lastGiven Call.timestamp? calls).bind fun ts =>
        if Rust.isRfc3339 ts = true ∧ LocationValid calls ∧ CommonlyValid sourceId entityType calls ∧
            Rust.outsideUnit (confidenceOf calls) = false then
          some (eventOf (fieldsOf sourceId entityType calls) id ts (lastGiven Call.location? calls))
        else none := by
  have after := fieldsAfter sourceId entityType calls
  unfold Rust.run Rust.EventBuilder.build
  rw [rust_state]
  cases lastGiven Call.id? calls with
  | none => rfl
  | some id =>
    cases lastGiven Call.timestamp? calls with
    | none => rfl
    | some ts =>
      simp only [Option.bind_some]
      by_cases dated : Rust.isRfc3339 ts = true
      · rw [if_neg (by simp [dated])]
        by_cases placed : LocationValid calls
        · have kept : (lastGiven Call.location? calls).filter (fun loc => !Rust.validLocation loc) = none := by
            rw [Option.filter_eq_none_iff]
            intro loc found
            simp [placed loc found]
          rw [kept]
          change Except.toOption (Fields.finish Rust.isNamespaced Rust.outsideUnit byteLess _ id ts _) = _
          rw [finish_toOption, valid_iff, after.confidence]
          simp only [dated, placed, true_and]
        · have refused : ∃ loc, lastGiven Call.location? calls = some loc ∧ Rust.validLocation loc = false := by
            unfold LocationValid at placed
            push Not at placed
            rcases placed with ⟨loc, found, bad⟩
            exact ⟨loc, found, by simpa using bad⟩
          rcases refused with ⟨loc, found, bad⟩
          rw [if_neg (by simp [placed]), found]
          simp [Option.filter, bad, Except.toOption]
      · rw [if_pos (by simpa using dated), if_neg (by simp [dated])]
        rfl

theorem go_run :
    (Go.run sourceId entityType calls).toOption =
      if (lastGiven Call.id? calls).getD "" ≠ "" ∧ (lastGiven Call.timestamp? calls).getD "" ≠ "" ∧
          CommonlyValid sourceId entityType calls ∧
          (!(confidenceOf calls).isNaN && Rust.outsideUnit (confidenceOf calls)) = false then
        some (eventOf (fieldsOf sourceId entityType calls) ((lastGiven Call.id? calls).getD "")
          ((lastGiven Call.timestamp? calls).getD "") (lastGiven Call.location? calls))
      else none := by
  have after := fieldsAfter sourceId entityType calls
  unfold Go.run Go.EventBuilder.build
  rw [go_state]
  by_cases named : (lastGiven Call.id? calls).getD "" = ""
  · simp [named, Except.toOption]
  by_cases dated : (lastGiven Call.timestamp? calls).getD "" = ""
  · simp [named, dated, Except.toOption]
  simp only [named, dated, if_false]
  rw [isNamespaced_eq.1]
  change Except.toOption (Fields.finish Rust.isNamespaced Go.belowOrAbove byteLess _ _ _ _) = _
  rw [finish_toOption, valid_iff, after.confidence, belowOrAbove_eq]
  simp only [named, dated, ne_eq, not_false_eq_true, true_and]

theorem cpp_run : Cpp.run sourceId entityType calls = Go.run sourceId entityType calls := by
  unfold Cpp.run Go.run Cpp.EventBuilder.build Go.EventBuilder.build
  rw [cpp_state, go_state, isNamespaced_eq.1, isNamespaced_eq.2.2]
  cases lastGiven Call.location? calls <;> rfl

theorem python_run :
    (Python.run sourceId entityType calls).toOption =
      if (lastGiven Call.id? calls).getD "" ≠ "" ∧ (lastGiven Call.timestamp? calls).getD "" ≠ "" ∧
          CommonlyValid sourceId entityType calls ∧ Rust.outsideUnit (confidenceOf calls) = false then
        some (eventOf (fieldsOf sourceId entityType calls) ((lastGiven Call.id? calls).getD "")
          ((lastGiven Call.timestamp? calls).getD "") (lastGiven Call.location? calls))
      else none := by
  have after := fieldsAfter sourceId entityType calls
  unfold Python.run Python.EventBuilder.build
  rw [python_state]
  by_cases named : (lastGiven Call.id? calls).getD "" = ""
  · simp [named, Except.toOption]
  by_cases dated : (lastGiven Call.timestamp? calls).getD "" = ""
  · simp [named, dated, Except.toOption]
  simp only [named, dated, if_false]
  rw [isNamespaced_eq.2.1, show Python.keyLess = byteLess from codePointLess_eq_byteLess,
    Option.map_map, show (_ ∘ _) = (id : GeoPoint → GeoPoint) from rfl, Option.map_id, id_eq]
  change Except.toOption (Fields.finish Rust.isNamespaced Rust.outsideUnit byteLess _ _ _ _) = _
  rw [finish_toOption, valid_iff, after.confidence]
  simp only [named, dated, ne_eq, not_false_eq_true, true_and]

theorem agree_of_invalid (invalid : ¬ CommonlyValid sourceId entityType calls) :
    Agree sourceId entityType calls := by
  unfold Agree
  rw [cpp_run, go_run, python_run, rust_run]
  cases lastGiven Call.id? calls <;> cases lastGiven Call.timestamp? calls <;> simp [invalid]

theorem agree_of_absent (absent : lastGiven Call.id? calls = none ∨ lastGiven Call.timestamp? calls = none) :
    Agree sourceId entityType calls := by
  unfold Agree
  rw [cpp_run, go_run, python_run, rust_run]
  rcases absent with absent | absent
  · simp [absent]
  · cases lastGiven Call.id? calls <;> simp [absent]

theorem agree_empty_id_iff (valid : CommonlyValid sourceId entityType calls) (ts : String)
    (named : lastGiven Call.id? calls = some "") (dated : lastGiven Call.timestamp? calls = some ts) :
    Agree sourceId entityType calls ↔
      (Rust.isRfc3339 ts = true → LocationValid calls → Rust.outsideUnit (confidenceOf calls) = true) := by
  unfold Agree
  rw [cpp_run, go_run, python_run, rust_run, named, dated]
  simp [valid]

theorem agree_empty_timestamp (id : String) (named : lastGiven Call.id? calls = some id)
    (dated : lastGiven Call.timestamp? calls = some "") : Agree sourceId entityType calls := by
  unfold Agree
  rw [cpp_run, go_run, python_run, rust_run, named, dated]
  simp [not_rfc3339_empty]

theorem agree_present_iff (valid : CommonlyValid sourceId entityType calls) (id ts : String)
    (named : lastGiven Call.id? calls = some id) (nonempty : id ≠ "")
    (dated : lastGiven Call.timestamp? calls = some ts) (written : ts ≠ "") :
    Agree sourceId entityType calls ↔ (confidenceOf calls).isNaN = false ∧
      (Rust.outsideUnit (confidenceOf calls) = false → Rust.isRfc3339 ts = true ∧ LocationValid calls) := by
  have nan : (confidenceOf calls).isNaN = true → Rust.outsideUnit (confidenceOf calls) = true := by
    intro nan
    simp [Rust.outsideUnit, F64.le, nan]
  unfold Agree
  rw [cpp_run, go_run, python_run, rust_run, named, dated]
  simp only [Option.getD_some, Option.bind_some, valid, nonempty, written, ne_eq, not_false_eq_true, true_and]
  cases isNaN : (confidenceOf calls).isNaN with
  | true => simp [nan isNaN]
  | false =>
    cases Rust.outsideUnit (confidenceOf calls) with
    | true => simp
    | false => simp

end Runs

/-- The four builders agree on a call sequence exactly when it stays where their validators draw
    the same line. -/
theorem builders_agree_iff (sourceId entityType : String) (calls : List Call) :
    Agree sourceId entityType calls ↔ SameLine sourceId entityType calls := by
  by_cases valid : CommonlyValid sourceId entityType calls
  · unfold SameLine
    cases named : lastGiven Call.id? calls with
    | none => simp [agree_of_absent sourceId entityType calls (Or.inl named)]
    | some id =>
      cases dated : lastGiven Call.timestamp? calls with
      | none => simp [agree_of_absent sourceId entityType calls (Or.inr dated)]
      | some ts =>
        by_cases empty : id = ""
        · subst empty
          rw [agree_empty_id_iff sourceId entityType calls valid ts named dated]
          simp [valid]
        · by_cases blank : ts = ""
          · subst blank
            simp only [agree_empty_timestamp sourceId entityType calls id named dated, true_iff]
            intro _
            apply And.intro (fun same => absurd (Option.some.inj same) empty)
            intro _ ts _ _ same written
            exact absurd (Option.some.inj same).symm written
          · rw [agree_present_iff sourceId entityType calls valid id ts named empty dated blank]
            simp [valid, empty, blank]
  · simp [agree_of_invalid sourceId entityType calls valid, SameLine, valid]

/-- Go, Python and C++ sign an event dated "yesterday", which Rust refuses. -/
theorem yesterday_builds_apart :
    ¬ Agree "sensor-1" "mim:aircraft" [.id "e1", .timestamp "yesterday"] := by
  unfold Agree
  decide

end BuilderProof
