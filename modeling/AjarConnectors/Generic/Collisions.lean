import AjarConnectors.Builder.Optional
import AjarConnectors.Generic.Parser

namespace GenericModel

open EventModel BuilderModel

/-- The faults of a mapping rather than of a record. -/
def Collides : BuildError → Prop
  | .unnamespacedEntityType _ | .duplicateAttributeKey _ | .duplicateMetadataKey _ => True
  | _ => False

/-- What is checked of a record before the namespace of its type. -/
structure Checked {DateTime : Type} (platform : Platform DateTime) (profile : Profile) (sourceId : String) (m : Mapping)
    (now : String) (rec : Record) : Prop where
  timestamp : ∃ ts, timestampCall platform profile m now rec = some (.ok (.timestamp ts)) ∧ Rust.isRfc3339 ts = true
  location : ∃ calls, locationCalls platform m rec = .ok calls ∧ LocationValid calls
  confidence : ∃ calls, confidenceCalls platform m rec = .ok calls
  source : sourceId ≠ ""
  entity : m.entityType ≠ ""

/-- What is checked from there on to its keys. -/
structure Measured {DateTime : Type} (platform : Platform DateTime) (m : Mapping) (hostility : Option String)
    (rec : Record) : Prop where
  confidence : ∀ calls, confidenceCalls platform m rec = .ok calls → Rust.outsideUnit (confidenceOf calls) = false
  attributes : (attributeEntries m hostility rec).length ≤ maxAttributes
  metadata : (mapped m.metadata rec).length ≤ maxMetadata

/-- No two fields of the record go to one key. -/
structure Apart (m : Mapping) (hostility : Option String) (rec : Record) : Prop where
  attributes : ((attributeEntries m hostility rec).map Prod.fst).Nodup
  metadata : ((mapped m.metadata rec).map Prod.fst).Nodup

/-- A mapping of a namespaced type in which no two fields have one key, and none the enrichment's. -/
structure Clean (m : Mapping) (hostility : Option String) : Prop where
  namespaced : Rust.isNamespaced m.entityType = true
  attributes : ((hostility.map fun _ => "hostility").toList ++ m.attributes.entries.map Prod.snd).Nodup
  metadata : (m.metadata.entries.map Prod.snd).Nodup

/-- A draft of these calls for the location and the confidence. -/
def callsOf (m : Mapping) (hostility : Option String) (newId ts : String) (frame : Bytes) (rec : Record)
    (location confidence : List Call) : List Call :=
  [Call.id newId, Call.payload frame, Call.timestamp ts] ++ location ++ confidence ++
    (attributeEntries m hostility rec).map (fun entry => Call.attribute entry.1 entry.2) ++
    (mapped m.metadata rec).map fun entry => Call.metadata entry.1 entry.2

end GenericModel

namespace GenericProof

open EventModel BuilderModel BuilderProof GenericModel

theorem error_collides {α : Type} (e : BuildError) :
    (∃ found, (Except.error e : Except BuildError α) = .error found ∧ Collides found) ↔ Collides e := by
  simp

/-- From the source id on. -/
theorem finish_collides (refused : F64 → Bool) (f : Fields) (id timestamp : String) (location : Option GeoPoint) :
    (∃ e, f.finish Rust.isNamespaced refused byteLess id timestamp location = .error e ∧ Collides e) ↔
      f.sourceId ≠ "" ∧ f.entityType ≠ "" ∧
        ((f.strictEntityNamespace && !Rust.isNamespaced f.entityType) = true ∨
          refused f.confidence = false ∧ f.policyTags.length ≤ maxPolicyTags ∧ f.attributes.length ≤ maxAttributes ∧
            f.metadata.length ≤ maxMetadata ∧
            (¬(f.attributes.map Attribute.key).Nodup ∨ ¬(f.metadata.map Attribute.key).Nodup)) := by
  rw [Fields.finish]
  by_cases source : f.sourceId = ""
  · rw [if_pos source, error_collides]
    simp [Collides, source]
  rw [if_neg source]
  by_cases entity : f.entityType = ""
  · rw [if_pos entity, error_collides]
    simp [Collides, entity]
  rw [if_neg entity]
  by_cases unnamed : (f.strictEntityNamespace && !Rust.isNamespaced f.entityType) = true
  · rw [if_pos unnamed, error_collides]
    simp only [Collides, source, entity, unnamed, ne_eq, not_false_eq_true, true_or, and_self]
  rw [if_neg unnamed]
  by_cases outside : refused f.confidence = true
  · rw [if_pos outside, error_collides]
    simp [Collides, unnamed, outside]
  rw [if_neg outside]
  by_cases tags : maxPolicyTags < f.policyTags.length
  · rw [if_pos tags, error_collides]
    simp [Collides, unnamed, Nat.not_le.mpr tags]
  rw [if_neg tags]
  by_cases attributes : maxAttributes < f.attributes.length
  · rw [if_pos attributes, error_collides]
    simp [Collides, unnamed, Nat.not_le.mpr attributes]
  rw [if_neg attributes]
  by_cases metadata : maxMetadata < f.metadata.length
  · rw [if_pos metadata, error_collides]
    simp [Collides, unnamed, Nat.not_le.mpr metadata]
  rw [if_neg metadata, ← firstRepeat_sortByKey f.attributes, ← firstRepeat_sortByKey f.metadata]
  have bounds : refused f.confidence = false ∧ f.policyTags.length ≤ maxPolicyTags ∧ f.attributes.length ≤ maxAttributes ∧
      f.metadata.length ≤ maxMetadata :=
    ⟨Bool.eq_false_iff.mpr outside, Nat.not_lt.mp tags, Nat.not_lt.mp attributes, Nat.not_lt.mp metadata⟩
  cases repeated : Keyed.firstRepeat Attribute.key (Fields.sortByKey byteLess f.attributes) with
  | some key => simp [Collides, source, entity, bounds]
  | none =>
    cases again : Keyed.firstRepeat Attribute.key (Fields.sortByKey byteLess f.metadata) with
    | some key => simp [Collides, source, entity, bounds]
    | none => simp [unnamed]

theorem run_collides (sourceId entityType id ts : String) (calls : List Call)
    (named : lastGiven Call.id? calls = some id) (dated : lastGiven Call.timestamp? calls = some ts)
    (strict : .allowUnnamespacedEntityType ∉ calls) :
    (∃ e, Rust.run sourceId entityType calls = .error e ∧ Collides e) ↔
      Rust.isRfc3339 ts = true ∧ LocationValid calls ∧ sourceId ≠ "" ∧ entityType ≠ "" ∧
        (Rust.isNamespaced entityType = false ∨
          Rust.outsideUnit (confidenceOf calls) = false ∧ (calls.filterMap Call.policyTag?).length ≤ maxPolicyTags ∧
            (calls.filterMap Call.attribute?).length ≤ maxAttributes ∧
            (calls.filterMap Call.metadata?).length ≤ maxMetadata ∧
            (¬((calls.filterMap Call.attribute?).map Attribute.key).Nodup ∨
              ¬((calls.filterMap Call.metadata?).map Attribute.key).Nodup)) := by
  have after := fieldsAfter sourceId entityType calls
  unfold Rust.run Rust.EventBuilder.build
  rw [rust_state]
  simp only [named, dated]
  by_cases formed : Rust.isRfc3339 ts = true
  · rw [if_neg (by simp [formed])]
    by_cases placed : LocationValid calls
    · have kept : (lastGiven Call.location? calls).filter (fun loc => !Rust.validLocation loc) = none := by
        rw [Option.filter_eq_none_iff]
        intro loc found
        simp [placed loc found]
      rw [kept]
      change (∃ e, Fields.finish Rust.isNamespaced Rust.outsideUnit byteLess _ id ts _ = .error e ∧ Collides e) ↔ _
      rw [finish_collides, after.sourceId, after.entityType, after.confidence, after.policyTags, after.attributes,
        after.metadata, after.strict.mpr strict]
      simp only [formed, placed, true_and, Bool.true_and, Bool.not_eq_true']
    · have refused : ∃ loc, (lastGiven Call.location? calls).filter (fun loc => !Rust.validLocation loc) = some loc := by
        by_contra none
        apply placed
        intro loc found
        by_contra bad
        apply none
        rw [found]
        exact ⟨loc, by simp [Option.filter, bad]⟩
      obtain ⟨loc, found⟩ := refused
      rw [found, error_collides]
      simp [Collides, placed]
  · rw [if_pos (by simp [formed]), error_collides]
    simp [Collides, formed]

section

variable {DateTime : Type} {platform : Platform DateTime} {profile : Profile} {m : Mapping} {hostility : Option String}
  {newId now : String} {frame : Bytes} {rec : Record} {calls : List Call}

theorem timestampCall_ok {call : Call} (ok : timestampCall platform profile m now rec = some (.ok call)) :
    ∃ ts, call = .timestamp ts := by
  unfold timestampCall at ok
  split at ok
  · cases ok
    exact ⟨now, rfl⟩
  · split at ok
    · cases ok
    · obtain ⟨result, -, same⟩ := Option.map_eq_some_iff.mp ok
      cases result with
      | error e => cases same
      | ok ts =>
        cases same
        exact ⟨ts, rfl⟩

theorem locationCalls_ok {found : List Call} (ok : locationCalls platform m rec = .ok found) :
    found = [] ∨ ∃ lat lon alt, found = [.location lat lon alt] := by
  unfold locationCalls at ok
  repeat' split at ok
  all_goals cases ok
  · exact Or.inr ⟨_, _, _, rfl⟩
  · exact Or.inl rfl
  · exact Or.inl rfl

theorem confidenceCalls_ok {found : List Call} (ok : confidenceCalls platform m rec = .ok found) :
    found = [] ∨ ∃ v, found = [.confidence v] := by
  unfold confidenceCalls at ok
  repeat' split at ok
  all_goals cases ok
  · exact Or.inl rfl
  · exact Or.inl rfl
  · exact Or.inr ⟨_, rfl⟩

theorem draft_iff : draft platform profile m hostility newId now frame rec = some (.ok calls) ↔
    ∃ ts location confidence, timestampCall platform profile m now rec = some (.ok (.timestamp ts)) ∧
      locationCalls platform m rec = .ok location ∧ confidenceCalls platform m rec = .ok confidence ∧
      calls = callsOf m hostility newId ts frame rec location confidence := by
  constructor
  · intro ok
    unfold draft at ok
    split at ok
    · cases ok
    · cases ok
    · rename_i timestamp given
      obtain ⟨ts, rfl⟩ := timestampCall_ok given
      split at ok
      · cases ok
      · rename_i location placed
        split at ok
        · cases ok
        · rename_i confidence trusted
          cases ok
          exact ⟨ts, location, confidence, given, placed, trusted, rfl⟩
  · rintro ⟨ts, location, confidence, given, placed, trusted, rfl⟩
    unfold draft
    simp only [given, placed, trusted, callsOf]

/-- What a draft says to the builder. -/
structure Spoken (m : Mapping) (hostility : Option String) (rec : Record) (newId ts : String)
    (location confidence calls : List Call) : Prop where
  id : lastGiven Call.id? calls = some newId
  timestamp : lastGiven Call.timestamp? calls = some ts
  location : lastGiven Call.location? calls = lastGiven Call.location? location
  confidence : lastGiven Call.confidence? calls = lastGiven Call.confidence? confidence
  strict : .allowUnnamespacedEntityType ∉ calls
  policyTags : calls.filterMap Call.policyTag? = []
  attributes : calls.filterMap Call.attribute? = (attributeEntries m hostility rec).map fun entry => ⟨entry.1, entry.2⟩
  metadata : calls.filterMap Call.metadata? = (mapped m.metadata rec).map fun entry => ⟨entry.1, entry.2⟩

theorem filterMap_callsOf {β : Type} (pick : Call → Option β) (ts : String) (location confidence : List Call) :
    (callsOf m hostility newId ts frame rec location confidence).filterMap pick =
      [.id newId, .payload frame, .timestamp ts].filterMap pick ++ location.filterMap pick ++ confidence.filterMap pick ++
        ((attributeEntries m hostility rec).map fun entry => Call.attribute entry.1 entry.2).filterMap pick ++
        ((mapped m.metadata rec).map fun entry => Call.metadata entry.1 entry.2).filterMap pick := by
  simp only [callsOf, List.filterMap_append]

/-- A setting that the mapped fields do not have. -/
theorem filterMap_settings {β : Type} {pick : Call → Option β} (attributes : ∀ k v, pick (.attribute k v) = none)
    (metadata : ∀ k v, pick (.metadata k v) = none) (ts : String) (location confidence : List Call) :
    (callsOf m hostility newId ts frame rec location confidence).filterMap pick =
      [.id newId, .payload frame, .timestamp ts].filterMap pick ++ location.filterMap pick ++
        confidence.filterMap pick := by
  rw [filterMap_callsOf, filterMap_silent fun entry : String × String => attributes entry.1 entry.2,
    filterMap_silent fun entry : String × String => metadata entry.1 entry.2, List.append_nil, List.append_nil]

theorem callsOf_spoken {ts : String} {location confidence : List Call} (placed : locationCalls platform m rec = .ok location)
    (trusted : confidenceCalls platform m rec = .ok confidence) :
    Spoken m hostility rec newId ts location confidence (callsOf m hostility newId ts frame rec location confidence) := by
  have given : ∀ entries : List (String × String),
      (entries.map fun entry => Call.attribute entry.1 entry.2).filterMap Call.attribute? =
        entries.map fun entry => ⟨entry.1, entry.2⟩ := filterMap_given fun _ => rfl
  have noted : ∀ entries : List (String × String),
      (entries.map fun entry => Call.metadata entry.1 entry.2).filterMap Call.metadata? =
        entries.map fun entry => ⟨entry.1, entry.2⟩ := filterMap_given fun _ => rfl
  -- neither the location's calls nor the confidence's are of another kind
  have places : ∀ {β : Type} {pick : Call → Option β}, (∀ lat lon alt, pick (.location lat lon alt) = none) →
      location.filterMap pick = [] := by
    intro β pick none
    rcases locationCalls_ok placed with rfl | ⟨lat, lon, alt, rfl⟩
    · rfl
    · rw [List.filterMap_cons_none (none lat lon alt), List.filterMap_nil]
  have trust : ∀ {β : Type} {pick : Call → Option β}, (∀ v, pick (.confidence v) = none) →
      confidence.filterMap pick = [] := by
    intro β pick none
    rcases confidenceCalls_ok trusted with rfl | ⟨v, rfl⟩
    · rfl
    · rw [List.filterMap_cons_none (none v), List.filterMap_nil]
  refine ⟨?_, ?_, ?_, ?_, ?_, ?_, ?_, ?_⟩
  · rw [lastGiven_getLast, filterMap_settings (fun _ _ => rfl) fun _ _ => rfl, places fun _ _ _ => rfl, trust fun _ => rfl]
    rfl
  · rw [lastGiven_getLast, filterMap_settings (fun _ _ => rfl) fun _ _ => rfl, places fun _ _ _ => rfl, trust fun _ => rfl]
    rfl
  · rw [lastGiven_getLast, lastGiven_getLast, filterMap_settings (fun _ _ => rfl) fun _ _ => rfl, trust fun _ => rfl,
      List.append_nil]
    rfl
  · rw [lastGiven_getLast, lastGiven_getLast, filterMap_settings (fun _ _ => rfl) fun _ _ => rfl,
      places fun _ _ _ => rfl]
    rfl
  · intro member
    rcases locationCalls_ok placed with rfl | ⟨lat, lon, alt, rfl⟩ <;>
      rcases confidenceCalls_ok trusted with rfl | ⟨v, rfl⟩ <;> simp [callsOf] at member
  · rw [filterMap_settings (fun _ _ => rfl) fun _ _ => rfl, places fun _ _ _ => rfl, trust fun _ => rfl]
    rfl
  · rw [filterMap_callsOf, places fun _ _ _ => rfl, trust fun _ => rfl, given, filterMap_silent fun _ => rfl,
      List.append_nil]
    rfl
  · rw [filterMap_callsOf, places fun _ _ _ => rfl, trust fun _ => rfl, noted, filterMap_silent fun _ => rfl]
    rfl

theorem callsOf_collides {location confidence : List Call} (placed : locationCalls platform m rec = .ok location)
    (trusted : confidenceCalls platform m rec = .ok confidence) (sourceId ts : String) :
    (∃ e, Rust.run sourceId m.entityType (callsOf m hostility newId ts frame rec location confidence) = .error e ∧
        Collides e) ↔
      Rust.isRfc3339 ts = true ∧ LocationValid location ∧ sourceId ≠ "" ∧ m.entityType ≠ "" ∧
        (Rust.isNamespaced m.entityType = false ∨ Measured platform m hostility rec ∧ ¬Apart m hostility rec) := by
  have spoken : Spoken m hostility rec newId ts location confidence
      (callsOf m hostility newId ts frame rec location confidence) := callsOf_spoken placed trusted
  have sameKeys : ∀ entries : List (String × String),
      (entries.map fun entry => (⟨entry.1, entry.2⟩ : Attribute)).map Attribute.key = entries.map Prod.fst := by
    intro entries
    rw [List.map_map]
    rfl
  have measured : Measured platform m hostility rec ↔ Rust.outsideUnit (confidenceOf confidence) = false ∧
      (attributeEntries m hostility rec).length ≤ maxAttributes ∧ (mapped m.metadata rec).length ≤ maxMetadata := by
    constructor
    · intro h
      exact ⟨h.confidence confidence trusted, h.attributes, h.metadata⟩
    · rintro ⟨inside, attributes, metadata⟩
      refine ⟨?_, attributes, metadata⟩
      intro calls found
      rw [trusted] at found
      cases found
      exact inside
  have apart : Apart m hostility rec ↔ ((attributeEntries m hostility rec).map Prod.fst).Nodup ∧
      ((mapped m.metadata rec).map Prod.fst).Nodup := ⟨fun h => ⟨h.attributes, h.metadata⟩, fun h => ⟨h.1, h.2⟩⟩
  rw [run_collides sourceId m.entityType newId ts _ spoken.id spoken.timestamp spoken.strict, LocationValid,
    spoken.location, confidenceOf, spoken.confidence, spoken.policyTags, spoken.attributes, spoken.metadata,
    sameKeys, sameKeys, List.length_map, List.length_map, measured, apart, not_and_or]
  simp only [LocationValid, confidenceOf, List.length_nil, Nat.zero_le, true_and, and_assoc]

/-- A draft meets the builder's faults of the mapping as its record does. -/
theorem draft_collides (sourceId : String) :
    (∃ calls e, draft platform profile m hostility newId now frame rec = some (.ok calls) ∧
        Rust.run sourceId m.entityType calls = .error e ∧ Collides e) ↔
      Checked platform profile sourceId m now rec ∧
        (Rust.isNamespaced m.entityType = false ∨ Measured platform m hostility rec ∧ ¬Apart m hostility rec) := by
  constructor
  · rintro ⟨calls, e, drafted, run⟩
    obtain ⟨ts, location, confidence, given, placed, trusted, rfl⟩ := draft_iff.mp drafted
    obtain ⟨formed, valid, source, entity, fault⟩ := (callsOf_collides placed trusted sourceId ts).mp ⟨e, run⟩
    exact ⟨⟨⟨ts, given, formed⟩, ⟨location, placed, valid⟩, ⟨confidence, trusted⟩, source, entity⟩, fault⟩
  · rintro ⟨⟨⟨ts, given, formed⟩, ⟨location, placed, valid⟩, ⟨confidence, trusted⟩, source, entity⟩, fault⟩
    obtain ⟨e, run⟩ : ∃ e, Rust.run sourceId m.entityType (callsOf m hostility newId ts frame rec location confidence) =
        .error e ∧ Collides e := (callsOf_collides placed trusted sourceId ts).mpr ⟨formed, valid, source, entity, fault⟩
    exact ⟨_, e, draft_iff.mpr ⟨ts, location, confidence, given, placed, trusted, rfl⟩, run⟩

/-- A record that is refused is refused for what it holds, not for what the builder makes of it. -/
theorem record_error {e : GenericError} (failed : record platform m frame = .error e) (b : BuildError) : e ≠ .build b := by
  unfold record at failed
  cases decoded : Utf8.decode frame with
  | none =>
    rw [decoded] at failed
    cases failed
    exact GenericError.noConfusion
  | some chars =>
    simp only [decoded] at failed
    cases format : m.format with
    | csv =>
      rw [format] at failed
      cases failed
    | json =>
      simp only [format] at failed
      cases read : platform.fromJson (TextModel.trim (String.ofList chars)) with
      | error message =>
        rw [read] at failed
        cases failed
        exact GenericError.noConfusion
      | ok document =>
        rw [read] at failed
        cases document <;> cases failed
        exact GenericError.noConfusion

theorem formatted_error {dt : Except String DateTime} {e : GenericError} (failed : formatted platform dt = .error e) :
    ∃ message, e = .time message := by
  unfold formatted at failed
  cases dt with
  | error message =>
    cases failed
    exact ⟨message, rfl⟩
  | ok dt =>
    simp only at failed
    cases written : platform.time.formatRfc3339 dt with
    | error message =>
      rw [written] at failed
      cases failed
      exact ⟨message, rfl⟩
    | ok text =>
      rw [written] at failed
      cases failed

theorem toRfc3339_error {raw : String} {format : TimestampFormat} {e : GenericError}
    (failed : toRfc3339 platform profile raw format = some (.error e)) : ∃ message, e = .time message := by
  cases format with
  | rfc3339 => cases failed
  | epochMillis =>
    rw [toRfc3339] at failed
    cases read : parseInt 128 raw with
    | none =>
      rw [read] at failed
      cases failed
      exact ⟨_, rfl⟩
    | some ms =>
      rw [read] at failed
      obtain ⟨ns, -, same⟩ := Option.map_eq_some_iff.mp failed
      exact formatted_error same
  | epochSeconds =>
    rw [toRfc3339] at failed
    cases read : parseInt 64 raw with
    | none =>
      rw [read] at failed
      cases failed
      exact ⟨_, rfl⟩
    | some s =>
      rw [read] at failed
      exact formatted_error (Option.some_inj.mp failed)

theorem timestampCall_error {e : GenericError} (failed : timestampCall platform profile m now rec = some (.error e))
    (b : BuildError) : e ≠ .build b := by
  unfold timestampCall at failed
  split at failed
  · cases failed
  · split at failed
    · cases failed
      exact GenericError.noConfusion
    · obtain ⟨result, made, same⟩ := Option.map_eq_some_iff.mp failed
      cases result with
      | ok ts => cases same
      | error e' =>
        cases same
        obtain ⟨message, rfl⟩ := toRfc3339_error made
        exact GenericError.noConfusion

theorem altitude_error {e : GenericError} (failed : altitude platform m rec = .error e) (b : BuildError) :
    e ≠ .build b := by
  unfold altitude at failed
  repeat' split at failed
  all_goals cases failed
  exact GenericError.noConfusion

theorem locationCalls_error {e : GenericError} (failed : locationCalls platform m rec = .error e) (b : BuildError) :
    e ≠ .build b := by
  unfold locationCalls at failed
  split at failed
  · split at failed
    · split at failed
      · cases failed
        exact GenericError.noConfusion
      · split at failed
        · cases failed
          exact GenericError.noConfusion
        · split at failed
          · rename_i e' high
            cases failed
            exact altitude_error high b
          · cases failed
    · cases failed
  · cases failed

theorem confidenceCalls_error {e : GenericError} (failed : confidenceCalls platform m rec = .error e) (b : BuildError) :
    e ≠ .build b := by
  unfold confidenceCalls at failed
  repeat' split at failed
  all_goals cases failed
  exact GenericError.noConfusion

theorem draft_error {e : GenericError} (failed : draft platform profile m hostility newId now frame rec = some (.error e))
    (b : BuildError) : e ≠ .build b := by
  unfold draft at failed
  split at failed
  · cases failed
  · rename_i e' undated
    cases failed
    exact timestampCall_error undated b
  · split at failed
    · rename_i e' unplaced
      cases failed
      exact locationCalls_error unplaced b
    · split at failed
      · rename_i e' untrusted
        cases failed
        exact confidenceCalls_error untrusted b
      · cases failed

/-- The builder speaks once the record is read and the draft is made. -/
theorem toEvent_build_iff (sourceId : String) (e : BuildError) :
    toEvent platform profile sourceId m hostility newId now frame = some (.error (.build e)) ↔
      ∃ rec, record platform m frame = .ok rec ∧
        ∃ calls, draft platform profile m hostility newId now frame rec = some (.ok calls) ∧
          Rust.run sourceId m.entityType calls = .error e := by
  rw [toEvent]
  cases read : record platform m frame with
  | error e' =>
    constructor
    · intro same
      cases same
      exact absurd rfl (record_error read e)
    · rintro ⟨rec, found, -⟩
      cases found
  | ok rec =>
    simp only [Except.ok.injEq, exists_eq_left']
    rw [Option.map_eq_some_iff]
    constructor
    · rintro ⟨drafted, made, same⟩
      cases drafted with
      | error e' =>
        cases same
        exact absurd rfl (draft_error made e)
      | ok calls =>
        refine ⟨calls, made, ?_⟩
        simp only at same
        cases built : Rust.run sourceId m.entityType calls with
        | ok event =>
          rw [built] at same
          cases same
        | error e' =>
          rw [built] at same
          cases same
          rfl
    · rintro ⟨calls, made, built⟩
      refine ⟨.ok calls, made, ?_⟩
      simp only [built]
      rfl

/-- What a record has mapped is a part of what the mapping has. -/
theorem mapped_sublist (fields : FieldMap) (rec : Record) :
    ((mapped fields rec).map Prod.fst).Sublist (fields.entries.map Prod.snd) := by
  rw [mapped]
  induction fields.entries with
  | nil => exact List.Sublist.slnil
  | cons entry rest ih =>
    rw [List.filterMap_cons, List.map_cons]
    cases rec.lookup entry.1 with
    | none => exact ih.cons entry.2
    | some v => exact ih.cons_cons entry.2

/-- The fields of a record under a mapping of distinct keys have distinct keys. -/
theorem clean_apart (clean : Clean m hostility) (rec : Record) : Apart m hostility rec := by
  refine ⟨?_, List.Nodup.sublist (mapped_sublist m.metadata rec) clean.metadata⟩
  have part : ((attributeEntries m hostility rec).map Prod.fst).Sublist
      ((hostility.map fun _ => "hostility").toList ++ m.attributes.entries.map Prod.snd) := by
    rw [attributeEntries, List.map_append]
    have own : ((hostility.map fun aff => ("hostility", aff)).toList).map Prod.fst =
        (hostility.map fun _ => "hostility").toList := by cases hostility <;> rfl
    rw [own]
    exact (List.Sublist.refl _).append (mapped_sublist m.attributes rec)
  exact List.Nodup.sublist part clean.attributes

theorem frame_collides_iff {sourceId : String} (frame : Bytes) :
    (∀ e, toEvent platform profile sourceId m hostility newId now frame = some (.error (.build e)) → ¬Collides e) ↔
      ∀ rec, record platform m frame = .ok rec → Checked platform profile sourceId m now rec →
        Rust.isNamespaced m.entityType = true ∧ (Measured platform m hostility rec → Apart m hostility rec) := by
  constructor
  · intro never rec read checked
    have quiet : ¬(Rust.isNamespaced m.entityType = false ∨
        Measured platform m hostility rec ∧ ¬Apart m hostility rec) := by
      intro fault
      obtain ⟨calls, e, made, built, collides⟩ :
          ∃ calls e, draft platform profile m hostility newId now frame rec = some (.ok calls) ∧
            Rust.run sourceId m.entityType calls = .error e ∧ Collides e :=
        (draft_collides sourceId).mpr ⟨checked, fault⟩
      exact never e ((toEvent_build_iff sourceId e).mpr ⟨rec, read, calls, made, built⟩) collides
    refine ⟨?_, ?_⟩
    · by_contra bare
      exact quiet (Or.inl (Bool.eq_false_iff.mpr bare))
    · intro measured
      by_contra together
      exact quiet (Or.inr ⟨measured, together⟩)
  · intro fine e refused collides
    obtain ⟨rec, read, calls, made, built⟩ := (toEvent_build_iff sourceId e).mp refused
    obtain ⟨checked, fault⟩ := (draft_collides sourceId).mp ⟨calls, e, made, built, collides⟩
    obtain ⟨namespaced, apart⟩ := fine rec read checked
    rcases fault with bare | ⟨measured, together⟩
    · rw [namespaced] at bare
      cases bare
    · exact together (apart measured)

end

section

variable {DateTime : Type} (platform : Platform DateTime) (profile : Profile) (sourceId : String) (m : Mapping)
  (hostility : Option String) (newId now : String)

/-- The builder refuses a frame for its keys or its type exactly when the record gets to that check and two mapped fields
    share a key, or the type has no namespace; under a clean mapping it never does. -/
theorem collisions_iff :
    (∀ frame,
      (∀ e, toEvent platform profile sourceId m hostility newId now frame = some (.error (.build e)) → ¬Collides e) ↔
      ∀ rec, record platform m frame = .ok rec → Checked platform profile sourceId m now rec →
        Rust.isNamespaced m.entityType = true ∧ (Measured platform m hostility rec → Apart m hostility rec)) ∧
    (Clean m hostility → ∀ frame e,
      toEvent platform profile sourceId m hostility newId now frame = some (.error (.build e)) → ¬Collides e) := by
  refine ⟨fun frame => frame_collides_iff frame, ?_⟩
  intro clean frame
  rw [frame_collides_iff frame]
  intro rec _ _
  exact ⟨clean.namespaced, fun _ => clean_apart clean rec⟩

end

def twoFields : String := "\x7b\"a\":1,\"b\":2\x7d"

def twoFieldsFrame : Bytes := [123, 34, 97, 34, 58, 49, 44, 34, 98, 34, 58, 50, 125]

def fieldsPlatform : Platform Int where
  floats := .idle
  time := ⟨fun _ => .error "", fun _ => .error "", fun _ => .error ""⟩
  fromJson text := if text = twoFields then .ok (.object [("a", .number "1"), ("b", .number "2")]) else .error "EOF"
  debug raw := raw

def speedTwice : Mapping where
  format := .json
  entityType := "mim:sensor"
  attributes := { entries := [("a", "speed"), ("b", "speed")] }

/-- A mapping of two fields to one attribute is loaded, and refuses a record with both. -/
theorem shared_key_collides :
    ¬∀ (m : Mapping) (hostility : Option String) (newId now : String) (frame : Bytes),
      Mapping.load (fun _ => some "") (fun _ => some m) "generic.toml" = .ok m →
        ∀ e, toEvent fieldsPlatform .release "generic-1" m hostility newId now frame = some (.error (.build e)) →
          ¬Collides e := by
  intro law
  have loaded : Mapping.load (fun _ => some "") (fun _ => some speedTwice) "generic.toml" = .ok speedTwice := rfl
  have read : record fieldsPlatform speedTwice twoFieldsFrame = .ok [("a", "1"), ("b", "2")] := by
    decide +kernel
  have drafted : draft fieldsPlatform .release speedTwice none "id" "2026-01-01T00:00:00Z" twoFieldsFrame
      [("a", "1"), ("b", "2")] = some (.ok (callsOf speedTwice none "id" "2026-01-01T00:00:00Z" twoFieldsFrame
        [("a", "1"), ("b", "2")] [] [])) := rfl
  have refused : Rust.run "generic-1" "mim:sensor" (callsOf speedTwice none "id" "2026-01-01T00:00:00Z"
      twoFieldsFrame [("a", "1"), ("b", "2")] [] []) = .error (.duplicateAttributeKey "speed") := by
    decide +kernel
  have made : toEvent fieldsPlatform .release "generic-1" speedTwice none "id" "2026-01-01T00:00:00Z"
      twoFieldsFrame = some (.error (.build (.duplicateAttributeKey "speed"))) :=
    (toEvent_build_iff "generic-1" _).mpr ⟨_, read, _, drafted, refused⟩
  exact law speedTwice none "id" "2026-01-01T00:00:00Z" twoFieldsFrame loaded _ made trivial

end GenericProof
