import AjarConnectors.Builder.Optional

namespace BuilderModel

open EventModel

namespace Call

def isEntry : Call → Bool
  | .attribute _ _ | .metadata _ _ => true
  | _ => false

end Call

/-- The same `attribute` and `metadata` calls in any order among themselves and among the others, which stay in
    theirs. -/
structure Reordered (calls others : List Call) : Prop where
  entries : (calls.filter Call.isEntry).Perm (others.filter Call.isEntry)
  rest : (calls.filter fun call => !call.isEntry) = others.filter fun call => !call.isEntry

/-- A location that is not a finite point within WGS-84 bounds. -/
inductive Misplaced (loc : GeoPoint) : Prop where
  | latitudeNotFinite (fault : loc.latitude.isFinite = false)
  | longitudeNotFinite (fault : loc.longitude.isFinite = false)
  | altitudeNotFinite (fault : loc.altitudeM.isFinite = false)
  | latitudeOutside (fault : ¬ (Rust.minusNinety.le loc.latitude = true ∧ loc.latitude.le Rust.ninety = true))
  | longitudeOutside (fault : ¬ (Rust.minusOneEighty.le loc.longitude = true ∧ loc.longitude.le Rust.oneEighty = true))

/-- What `build` refuses. -/
inductive Faulty (sourceId entityType : String) (calls : List Call) : Prop where
  | idMissing (never : ∀ id, .id id ∉ calls)
  | timestampMissing (never : ∀ ts, .timestamp ts ∉ calls)
  | timestampMalformed (ts : String) (given : lastGiven Call.timestamp? calls = some ts)
    (malformed : Rust.isRfc3339 ts = false)
  | misplaced (loc : GeoPoint) (given : lastGiven Call.location? calls = some loc) (fault : Misplaced loc)
  | confidenceOutside (fault : ¬ (F64.zero.le (confidenceOf calls) = true ∧ (confidenceOf calls).le .one = true))
  | sourceMissing (empty : sourceId = "")
  | entityMissing (empty : entityType = "")
  | unnamespaced (strict : .allowUnnamespacedEntityType ∉ calls) (bare : Rust.isNamespaced entityType = false)
  | tooManyPolicyTags (many : maxPolicyTags < (calls.filterMap Call.policyTag?).length)
  | tooManyAttributes (many : maxAttributes < (calls.filterMap Call.attribute?).length)
  | tooManyMetadata (many : maxMetadata < (calls.filterMap Call.metadata?).length)
  | attributeKeyTwice (shared : ¬ ((calls.filterMap Call.attribute?).map Attribute.key).Nodup)
  | metadataKeyTwice (shared : ¬ ((calls.filterMap Call.metadata?).map Attribute.key).Nodup)

/-- Strictly increasing in key, and exactly what was given. -/
structure Canonical (given held : List Attribute) : Prop where
  increasing : held.Pairwise fun a b => byteLess a.key b.key = true
  same : held.Perm given

end BuilderModel

namespace BuilderProof

open BuilderModel EventModel

theorem byteLess_compares :
    Keyed.Compares (fun a b => List.Lex (· < ·) (Utf8.codePoints a) (Utf8.codePoints b)) Attribute.key
      (fun a b => byteLess a.key b.key) := by
  rw [← codePointLess_eq_byteLess]
  exact codePointLess_compares

section Reordered

variable {calls others : List Call}

theorem filterMap_entries {α : Type} {pick : Call → Option α} (only : ∀ call, call.isEntry = false → pick call = none)
    (calls : List Call) : calls.filterMap pick = (calls.filter Call.isEntry).filterMap pick := by
  rw [List.filterMap_filter]
  congr 1
  funext call
  cases entry : call.isEntry with
  | true => rfl
  | false => exact only call entry

theorem filterMap_rest {α : Type} {pick : Call → Option α} (none : ∀ call, call.isEntry = true → pick call = none)
    (calls : List Call) : calls.filterMap pick = (calls.filter fun call => !call.isEntry).filterMap pick := by
  rw [List.filterMap_filter]
  congr 1
  funext call
  cases entry : call.isEntry with
  | true => exact none call entry
  | false => rfl

theorem reordered_picked (reordered : Reordered calls others) {α : Type} {pick : Call → Option α}
    (only : ∀ call, call.isEntry = false → pick call = none) : (calls.filterMap pick).Perm (others.filterMap pick) := by
  rw [filterMap_entries only calls, filterMap_entries only others]
  exact reordered.entries.filterMap pick

theorem reordered_lastGiven (reordered : Reordered calls others) {α : Type} {pick : Call → Option α}
    (none : ∀ call, call.isEntry = true → pick call = none) : lastGiven pick calls = lastGiven pick others := by
  rw [lastGiven_getLast, lastGiven_getLast, filterMap_rest none calls, filterMap_rest none others, reordered.rest]

theorem attribute_entry (call : Call) (other : call.isEntry = false) : call.attribute? = none := by
  cases call <;> first | rfl | cases other

theorem metadata_entry (call : Call) (other : call.isEntry = false) : call.metadata? = none := by
  cases call <;> first | rfl | cases other

theorem id_rest (call : Call) (entry : call.isEntry = true) : call.id? = none := by
  cases call <;> first | rfl | cases entry

theorem timestamp_rest (call : Call) (entry : call.isEntry = true) : call.timestamp? = none := by
  cases call <;> first | rfl | cases entry

theorem location_rest (call : Call) (entry : call.isEntry = true) : call.location? = none := by
  cases call <;> first | rfl | cases entry

/-- The fields that no `attribute` or `metadata` call touches. -/
def bare (f : Fields) : Fields := { f with attributes := [], metadata := [] }

theorem bare_call (f : Fields) (call : Call) :
    bare (f.call call) = if call.isEntry = true then bare f else (bare f).call call := by
  cases call <;> rfl

theorem bare_fieldsOf (sourceId entityType : String) (calls : List Call) :
    bare (fieldsOf sourceId entityType calls) =
      fieldsOf sourceId entityType (calls.filter fun call => !call.isEntry) := by
  induction calls using List.reverseRecOn with
  | nil => rfl
  | append_singleton calls call ih =>
    rw [fieldsOf_concat, bare_call, ih, List.filter_append]
    cases entry : call.isEntry with
    | true => simp [entry]
    | false => simp [entry, fieldsOf_concat]

/-- The checks and the sorted lists do not see in which order attributes and metadata were given. -/
theorem finish_perm {f g : Fields} (same : bare f = bare g) (attributes : f.attributes.Perm g.attributes)
    (metadata : f.metadata.Perm g.metadata) (isNamespaced : String → Bool) (refused : F64 → Bool) (id timestamp : String)
    (location : Option GeoPoint) :
    f.finish isNamespaced refused byteLess id timestamp location =
      g.finish isNamespaced refused byteLess id timestamp location := by
  have attributeKey := byteLess_compares.firstRepeat_of_perm attributes
  have metadataKey := byteLess_compares.firstRepeat_of_perm metadata
  have sortedAttributes := byteLess_compares.stableSort_of_perm attributes
  have sortedMetadata := byteLess_compares.stableSort_of_perm metadata
  have attributeCount := attributes.length_eq
  have metadataCount := metadata.length_eq
  rcases f with ⟨sourceId, entityType, payload, tags, confidence, given, entries, strict⟩
  rcases g with ⟨sourceId', entityType', payload', tags', confidence', given', entries', strict'⟩
  simp only [bare, Fields.mk.injEq] at same
  obtain ⟨rfl, rfl, rfl, rfl, rfl, -, -, rfl⟩ := same
  dsimp only at attributeKey metadataKey sortedAttributes sortedMetadata attributeCount metadataCount
  unfold Fields.finish Fields.sortByKey
  dsimp only
  rw [attributeCount, metadataCount, ← attributeKey, ← metadataKey]
  cases repeated : Keyed.firstRepeat Attribute.key (Keyed.stableSort (fun a b => byteLess a.key b.key) given) with
  | some key => rfl
  | none =>
    cases repeated' : Keyed.firstRepeat Attribute.key (Keyed.stableSort (fun a b => byteLess a.key b.key) entries) with
    | some key => rfl
    | none => rw [sortedAttributes repeated, sortedMetadata repeated']

/-- `build` gives the same event, or the same error. -/
theorem run_reordered (reordered : Reordered calls others) (sourceId entityType : String) :
    Rust.run sourceId entityType calls = Rust.run sourceId entityType others := by
  have after := fieldsAfter sourceId entityType calls
  have after' := fieldsAfter sourceId entityType others
  have same : bare (fieldsOf sourceId entityType calls) = bare (fieldsOf sourceId entityType others) := by
    rw [bare_fieldsOf, bare_fieldsOf, reordered.rest]
  have attributes := reordered_picked reordered attribute_entry
  have metadata := reordered_picked reordered metadata_entry
  rw [← after.attributes, ← after'.attributes] at attributes
  rw [← after.metadata, ← after'.metadata] at metadata
  have finish := finish_perm same attributes metadata Rust.isNamespaced Rust.outsideUnit
  unfold Rust.run Rust.EventBuilder.build
  rw [rust_state, rust_state, reordered_lastGiven reordered id_rest, reordered_lastGiven reordered timestamp_rest,
    reordered_lastGiven reordered location_rest]
  cases lastGiven Call.id? others with
  | none => rfl
  | some id =>
    cases lastGiven Call.timestamp? others with
    | none => rfl
    | some ts =>
      dsimp only
      rw [show Rust.keyLess = byteLess from rfl, finish]

end Reordered

theorem canonical_sort {entries : List Attribute} (distinct : (entries.map Attribute.key).Nodup) :
    Canonical entries (Fields.sortByKey byteLess entries) := by
  constructor
  · apply (byteLess_compares.rising ((firstRepeat_sortByKey entries).mpr distinct)).imp
    intro a b below
    exact (byteLess_compares.agrees a b).mpr below
  · exact Keyed.perm_stableSort _ entries

theorem misplaced_iff (loc : GeoPoint) : Misplaced loc ↔ Rust.validLocation loc = false := by
  unfold Rust.validLocation
  constructor
  · intro misplaced
    cases misplaced with
    | latitudeNotFinite fault => simp [fault]
    | longitudeNotFinite fault => simp [fault]
    | altitudeNotFinite fault => simp [fault]
    | latitudeOutside fault => simp_all
    | longitudeOutside fault => simp_all
  · intro invalid
    simp only [Bool.and_eq_false_iff] at invalid
    rcases invalid with ((((latitude | longitude) | altitude) | inside) | inside)
    · exact .latitudeNotFinite latitude
    · exact .longitudeNotFinite longitude
    · exact .altitudeNotFinite altitude
    · exact .latitudeOutside (by simpa [Classical.or_iff_not_imp_left] using inside)
    · exact .longitudeOutside (by simpa [Classical.or_iff_not_imp_left] using inside)

theorem lastGiven_none {α : Type} {pick : Call → Option α} {calls : List Call} :
    lastGiven pick calls = none ↔ ∀ call ∈ calls, pick call = none := by
  unfold lastGiven
  rw [List.findSome?_eq_none_iff]
  simp only [List.mem_reverse]

section Faults

variable {sourceId entityType : String} {calls : List Call}

theorem commonlyValid_of_sound (sound : ¬ Faulty sourceId entityType calls) : CommonlyValid sourceId entityType calls where
  source := fun empty => sound (.sourceMissing empty)
  entity := fun empty => sound (.entityMissing empty)
  namespaced := by
    rw [Classical.or_iff_not_imp_left]
    intro strict
    rw [← Bool.not_eq_false]
    exact fun bare => sound (.unnamespaced strict bare)
  tags := Nat.le_of_not_lt fun many => sound (.tooManyPolicyTags many)
  attributes := Nat.le_of_not_lt fun many => sound (.tooManyAttributes many)
  metadata := Nat.le_of_not_lt fun many => sound (.tooManyMetadata many)
  attributeKeys := Classical.not_not.mp fun shared => sound (.attributeKeyTwice shared)
  metadataKeys := Classical.not_not.mp fun shared => sound (.metadataKeyTwice shared)

theorem confidence_iff (c : F64) : Rust.outsideUnit c = false ↔ F64.zero.le c = true ∧ c.le .one = true := by
  unfold Rust.outsideUnit
  rw [Bool.not_eq_false', Bool.and_eq_true]

/-- Without a fault `build` succeeds. -/
theorem run_of_sound (sound : ¬ Faulty sourceId entityType calls) :
    ∃ event, Rust.run sourceId entityType calls = .ok event := by
  have run := rust_run sourceId entityType calls
  cases named : lastGiven Call.id? calls with
  | none =>
    refine absurd (.idMissing fun id member => ?_) sound
    cases lastGiven_none.mp named _ member
  | some id =>
    cases dated : lastGiven Call.timestamp? calls with
    | none =>
      refine absurd (.timestampMissing fun ts member => ?_) sound
      cases lastGiven_none.mp dated _ member
    | some ts =>
      rw [named, dated, Option.bind_some, Option.bind_some, if_pos] at run
      · cases result : Rust.run sourceId entityType calls with
        | error e =>
          rw [result] at run
          cases run
        | ok event => exact ⟨event, rfl⟩
      · refine ⟨?_, ?_, commonlyValid_of_sound sound, ?_⟩
        · rw [← Bool.not_eq_false]
          exact fun malformed => sound (.timestampMalformed ts dated malformed)
        · intro loc given
          rw [← Bool.not_eq_false, ← misplaced_iff]
          exact fun fault => sound (.misplaced loc given fault)
        · rw [confidence_iff]
          exact Classical.not_not.mp fun fault => sound (.confidenceOutside fault)

/-- What was built had none of the faults. -/
theorem sound_of_run {event : Event} (built : Rust.run sourceId entityType calls = .ok event) :
    ¬ Faulty sourceId entityType calls := by
  have run := rust_run sourceId entityType calls
  rw [built] at run
  obtain ⟨id, named, rest⟩ := Option.bind_eq_some_iff.mp run.symm
  obtain ⟨ts, dated, made⟩ := Option.bind_eq_some_iff.mp rest
  split at made
  · rename_i good
    obtain ⟨formed, placed, valid, inside⟩ := good
    intro faulty
    cases faulty with
    | idMissing never =>
      have none : lastGiven Call.id? calls = none := by
        rw [lastGiven_none]
        intro call member
        cases call with
        | id value => exact absurd member (never value)
        | _ => rfl
      rw [none] at named
      cases named
    | timestampMissing never =>
      have none : lastGiven Call.timestamp? calls = none := by
        rw [lastGiven_none]
        intro call member
        cases call with
        | timestamp value => exact absurd member (never value)
        | _ => rfl
      rw [none] at dated
      cases dated
    | timestampMalformed ts' given malformed =>
      rw [dated] at given
      cases given
      rw [formed] at malformed
      cases malformed
    | misplaced loc given fault =>
      have right := placed loc given
      rw [(misplaced_iff loc).mp fault] at right
      cases right
    | confidenceOutside fault => exact fault ((confidence_iff _).mp inside)
    | sourceMissing empty => exact valid.source empty
    | entityMissing empty => exact valid.entity empty
    | unnamespaced strict bare =>
      rcases valid.namespaced with lenient | named
      · exact strict lenient
      · rw [bare] at named
        cases named
    | tooManyPolicyTags many => exact Nat.not_lt.mpr valid.tags many
    | tooManyAttributes many => exact Nat.not_lt.mpr valid.attributes many
    | tooManyMetadata many => exact Nat.not_lt.mpr valid.metadata many
    | attributeKeyTwice shared => exact shared valid.attributeKeys
    | metadataKeyTwice shared => exact shared valid.metadataKeys
  · cases made

end Faults

theorem run_canonical {sourceId entityType : String} {calls : List Call} {event : Event}
    (built : Rust.run sourceId entityType calls = .ok event) :
    Canonical (calls.filterMap Call.attribute?) event.attributes ∧ Canonical (calls.filterMap Call.metadata?) event.metadata := by
  have after := fieldsAfter sourceId entityType calls
  obtain ⟨⟨id, ts, rfl⟩, valid, -⟩ := run_ok built
  rw [← after.attributes, ← after.metadata]
  constructor
  · apply canonical_sort
    rw [after.attributes]
    exact valid.attributeKeys
  · apply canonical_sort
    rw [after.metadata]
    exact valid.metadataKeys

/-- The order of the calls leaves no trace, the keys increase strictly and hold what was given, and `build` fails
    exactly on the faults. -/
theorem build_is_independent_of_order (sourceId entityType : String) (calls : List Call) :
    (∀ others, Reordered calls others → Rust.run sourceId entityType others = Rust.run sourceId entityType calls) ∧
    (∀ event, Rust.run sourceId entityType calls = .ok event →
      Canonical (calls.filterMap Call.attribute?) event.attributes ∧
      Canonical (calls.filterMap Call.metadata?) event.metadata) ∧
    ((∃ e, Rust.run sourceId entityType calls = .error e) ↔ Faulty sourceId entityType calls) := by
  refine ⟨fun others reordered => (run_reordered reordered sourceId entityType).symm, fun event => run_canonical, ?_⟩
  constructor
  · rintro ⟨e, failed⟩
    by_contra sound
    obtain ⟨event, built⟩ := run_of_sound sound
    rw [failed] at built
    cases built
  · intro faulty
    cases result : Rust.run sourceId entityType calls with
    | error e => exact ⟨e, rfl⟩
    | ok event => exact absurd faulty (sound_of_run result)

end BuilderProof
