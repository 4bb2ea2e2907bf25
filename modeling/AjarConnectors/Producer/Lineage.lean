import AjarConnectors.Builder.Optional
import AjarConnectors.Seal.Envelope

namespace ProducerModel

open EventModel SealModel BuilderModel

/-- `str.isspace` of one character, which holds of four separators that are not Unicode white space too. -/
def isSpace (c : Char) : Bool := TextModel.isWhitespace c || (0x1c ≤ c.toNat && c.toNat ≤ 0x1f)

def strip (text : String) : String :=
  String.ofList ((text.toList.dropWhile isSpace).reverse.dropWhile isSpace).reverse

/-- `p and p.strip()`, as a condition. -/
def named (p : String) : Bool := p != "" && strip p != ""

structure Producer (SK : Type) where
  key : SK
  sourceId : String
  subject : String

structure Mapping where
  entries : List (String × String) := []
  distinct : (entries.map Prod.fst).Nodup := by decide

def Mapping.keys (m : Mapping) : List String := m.entries.map Prod.fst

/-- Each key with its value, in the order `sorted` gives the keys. -/
def Mapping.sorted (m : Mapping) : List (String × String) :=
  Keyed.stableSort (fun a b => codePointLess a.1 b.1) m.entries

/-- The keyword arguments of `publish_assessment`. -/
structure Assessment where
  entityType : String
  model : String
  derivedFrom : List String
  attributes : Option Mapping := none
  location : Option (F64 × F64 × F64) := none
  policyTags : Option (List String) := none
  confidence : Option F64 := none
  metadata : Option Mapping := none

inductive PublishError where
  | valueError (message : String)
  | build (cause : BuildError)
  deriving DecidableEq

/-- What `handle.nc.publish` is given. -/
structure Publication where
  subject : String
  sealed : SealModel.Bytes
  headers : List (String × String)
  deriving DecidableEq

def Assessment.parents (a : Assessment) : List String := a.derivedFrom.filter named

def Assessment.attributeMapping (a : Assessment) : Mapping := a.attributes.getD {}

def Assessment.reserved (a : Assessment) : List String :=
  ["derived_from", "model"].filter fun name => name ∈ a.attributeMapping.keys

def quoted (names : List String) : String := "[" ++ ", ".intercalate (names.map fun name => "'" ++ name ++ "'") ++ "]"

def lineageEntries (model : String) (parents : List String) : List (String × String) :=
  [("derived_from", ",".intercalate parents), ("model", strip model)]

def Assessment.calls (a : Assessment) (newId now : String) : List Call :=
  [Call.id newId, Call.timestamp now] ++ (lineageEntries a.model a.parents).map (fun entry => Call.attribute entry.1 entry.2) ++
    (a.location.map fun place => Call.location place.1 place.2.1 place.2.2).toList ++
    (a.confidence.map Call.confidence).toList ++ (a.policyTags.getD []).map Call.policyTag ++
    a.attributeMapping.sorted.map (fun entry => Call.attribute entry.1 entry.2) ++
    (a.metadata.getD {}).sorted.map fun entry => Call.metadata entry.1 entry.2

section

variable {SK VK : Type} (scheme : Scheme SK VK) (canonicalBytes : Event → SealModel.Bytes) (newId now : String)

/-- Up to `builder.build()`. -/
def assess (handle : Producer SK) (a : Assessment) : Except PublishError Event :=
  if !named a.model then
    .error (.valueError "model is required: name the system that produced this, e.g. 'engine@1.0'")
  else if a.parents.isEmpty then
    .error (.valueError ("derived_from is required and must name at least one source event id: " ++
      "the ids of the governed events this assessment was derived from (event.id on what you consumed)"))
  else if !a.reserved.isEmpty then
    .error (.valueError ("attributes " ++ quoted a.reserved ++ " are reserved for lineage; pass them via the " ++
      "model and derived_from arguments"))
  else (Python.run handle.sourceId a.entityType (a.calls newId now)).mapError .build

/-- What is published, and the event id handed back. -/
def publishAssessment (handle : Producer SK) (a : Assessment) : Except PublishError (Publication × String) :=
  (assess newId now handle a).map fun event =>
    (⟨handle.subject, sealCanonical scheme (canonicalBytes event) handle.key, [("Nats-Msg-Id", event.id)]⟩, event.id)

end

/-- The boundary's split of `derived_from`. -/
def split (derived : String) : List String := (derived.toList.splitOn ',').map String.ofList

/-- Exactly one `derived_from`, which names these events, and exactly one `model`. -/
def Carries (event : Event) (ids : List String) : Prop :=
  ∃ derived model, event.attributes.filter (fun a => a.key = "derived_from") = [⟨"derived_from", derived⟩] ∧
    split derived = ids ∧ event.attributes.filter (fun a => a.key = "model") = [⟨"model", model⟩]

end ProducerModel

namespace ProducerProof

open ProducerModel BuilderModel BuilderProof EventModel SealModel

/-- A piece of a text split at a character does not hold it. -/
theorem not_mem_piece {c : Char} (text : List Char) : ∀ piece ∈ text.splitOn c, c ∉ piece := by
  induction text with
  | nil =>
    intro piece member
    rw [List.splitOn_nil, List.mem_singleton] at member
    rw [member]
    exact List.not_mem_nil
  | cons d text ih =>
    intro piece member
    rw [List.splitOn_cons_eq_if_modifyHead] at member
    by_cases cut : d = c
    · rw [if_pos (beq_iff_eq.mpr cut)] at member
      rcases List.mem_cons.mp member with rfl | member
      · exact List.not_mem_nil
      · exact ih piece member
    · rw [if_neg (fun same => cut (beq_iff_eq.mp same))] at member
      obtain ⟨first, rest, pieces⟩ := List.exists_cons_of_ne_nil (List.splitOn_ne_nil c text)
      rw [pieces] at member ih
      rcases List.mem_cons.mp member with rfl | member
      · rw [List.mem_cons, not_or]
        exact ⟨Ne.symm cut, ih first List.mem_cons_self⟩
      · exact ih piece (List.mem_cons_of_mem _ member)

theorem split_join_iff {parents : List String} (some : parents ≠ []) :
    split (",".intercalate parents) = parents ↔ ∀ p ∈ parents, ',' ∉ p.toList := by
  have text : (",".intercalate parents).toList = [','].intercalate (parents.map String.toList) :=
    String.toList_intercalate
  have back : (parents.map String.toList).map String.ofList = parents := by simp
  rw [split, text]
  constructor
  · intro same p member comma
    have pieces : ([','].intercalate (parents.map String.toList)).splitOn ',' = parents.map String.toList := by
      rw [← same, List.map_map]
      simp
    have piece := @List.mem_map_of_mem _ _ _ _ String.toList member
    rw [← pieces] at piece
    exact not_mem_piece _ p.toList piece comma
  · intro clean
    rw [List.splitOn_intercalate, back]
    · intro piece member
      obtain ⟨p, inside, rfl⟩ := List.mem_map.mp member
      exact clean p inside
    · rwa [Ne, List.map_eq_nil_iff]

theorem python_ok {sourceId entityType : String} {calls : List Call} {event : Event}
    (built : Python.run sourceId entityType calls = .ok event) :
    event.attributes.Perm (calls.filterMap Call.attribute?) := by
  have run := python_run sourceId entityType calls
  rw [built] at run
  split at run
  · rw [Option.some.inj run, eventOf, (fieldsAfter sourceId entityType calls).attributes]
    exact Keyed.perm_stableSort _ _
  · cases run

theorem calls_attributes (a : Assessment) (newId now : String) :
    (a.calls newId now).filterMap Call.attribute? =
      ⟨"derived_from", ",".intercalate a.parents⟩ :: ⟨"model", strip a.model⟩ ::
        a.attributeMapping.sorted.map fun entry => ⟨entry.1, entry.2⟩ := by
  have place : (a.location.map fun place => Call.location place.1 place.2.1 place.2.2).toList.filterMap Call.attribute? = [] := by
    cases a.location <;> rfl
  have trust : (a.confidence.map Call.confidence).toList.filterMap Call.attribute? = [] := by
    cases a.confidence <;> rfl
  have entries : ∀ list : List (String × String),
      (list.map fun entry => Call.attribute entry.1 entry.2).filterMap Call.attribute? =
        list.map fun entry => ⟨entry.1, entry.2⟩ := filterMap_given fun _ => rfl
  have tags : ((a.policyTags.getD []).map Call.policyTag).filterMap Call.attribute? = [] := filterMap_silent (fun _ => rfl) _
  have metadata : (((a.metadata.getD {}).sorted.map fun entry => Call.metadata entry.1 entry.2)).filterMap Call.attribute? = [] :=
    filterMap_silent (fun _ => rfl) _
  rw [Assessment.calls]
  simp only [List.filterMap_append, place, trust, entries, tags, metadata, List.append_nil]
  rfl

theorem sorted_filter {m : Mapping} {name : String} (absent : name ∉ m.keys) :
    ((m.sorted.map fun entry => (⟨entry.1, entry.2⟩ : Attribute)).filter fun a => a.key = name) = [] := by
  rw [List.filter_eq_nil_iff]
  intro given member
  obtain ⟨entry, inside, rfl⟩ := List.mem_map.mp member
  have kept : entry ∈ m.entries := (Keyed.perm_stableSort _ _).mem_iff.mp inside
  rw [decide_eq_true_eq]
  rintro rfl
  exact absent (List.mem_map_of_mem kept)

theorem unreserved {a : Assessment} (none : a.reserved.isEmpty = true) {name : String}
    (lineage : name ∈ ["derived_from", "model"]) : name ∉ a.attributeMapping.keys := by
  intro member
  have kept : name ∈ a.reserved := List.mem_filter.mpr ⟨lineage, decide_eq_true member⟩
  rw [List.isEmpty_iff.mp none] at kept
  cases kept

theorem filter_attributes {a : Assessment} {event : Event} {newId now : String}
    (held : event.attributes.Perm ((a.calls newId now).filterMap Call.attribute?)) (none : a.reserved.isEmpty = true) :
    event.attributes.filter (fun a => a.key = "derived_from") = [⟨"derived_from", ",".intercalate a.parents⟩] ∧
      event.attributes.filter (fun a => a.key = "model") = [⟨"model", strip a.model⟩] := by
  rw [calls_attributes] at held
  constructor
  · have only := held.filter fun a => a.key = "derived_from"
    rw [List.filter_cons_of_pos (by simp), List.filter_cons_of_neg (by simp),
      sorted_filter (unreserved none (by decide))] at only
    exact List.perm_singleton.mp only
  · have only := held.filter fun a => a.key = "model"
    rw [List.filter_cons_of_neg (by simp), List.filter_cons_of_pos (by simp),
      sorted_filter (unreserved none (by decide))] at only
    exact List.perm_singleton.mp only

theorem assess_ok {SK : Type} {handle : Producer SK} {a : Assessment} {newId now : String} {event : Event}
    (built : assess newId now handle a = .ok event) :
    a.parents ≠ [] ∧ a.reserved.isEmpty = true ∧ event.attributes.Perm ((a.calls newId now).filterMap Call.attribute?) := by
  unfold assess at built
  split at built
  · cases built
  · split at built
    · cases built
    · rename_i some
      split at built
      · cases built
      · rename_i free
        cases run : Python.run handle.sourceId a.entityType (a.calls newId now) with
        | error e =>
          rw [run] at built
          cases built
        | ok made =>
          rw [run] at built
          cases built
          exact ⟨fun empty => some (List.isEmpty_iff.mpr empty), by simpa using free, python_ok run⟩

theorem carries_iff {SK : Type} {handle : Producer SK} {a : Assessment} {newId now : String} {event : Event}
    (built : assess newId now handle a = .ok event) :
    Carries event a.parents ↔ ∀ p ∈ a.parents, ',' ∉ p.toList := by
  obtain ⟨some, free, held⟩ := assess_ok built
  obtain ⟨derived, model⟩ := filter_attributes held free
  rw [← split_join_iff some]
  constructor
  · rintro ⟨found, _, one, pieces, _⟩
    rw [derived, List.singleton_inj, Attribute.mk.injEq] at one
    rwa [one.2]
  · exact fun pieces => ⟨_, _, derived, pieces, model⟩

/-- What is published names its parents, once split, exactly when no parent's id holds a comma. -/
theorem lineage_survives_iff {SK VK : Type} (scheme : Scheme SK VK) (canonicalBytes : Event → SealModel.Bytes)
    (newId now : String) (handle : Producer SK) (a : Assessment) (out : Publication × String)
    (published : publishAssessment scheme canonicalBytes newId now handle a = .ok out) :
    ∃ event, assess newId now handle a = .ok event ∧
      out = (⟨handle.subject, sealCanonical scheme (canonicalBytes event) handle.key, [("Nats-Msg-Id", event.id)]⟩,
        event.id) ∧
      (Carries event (a.derivedFrom.filter named) ↔ ∀ p ∈ a.derivedFrom.filter named, ',' ∉ p.toList) := by
  rw [publishAssessment] at published
  cases built : assess newId now handle a with
  | error e =>
    rw [built] at published
    cases published
  | ok event =>
    rw [built] at published
    cases published
    exact ⟨event, rfl, rfl, carries_iff built⟩

def plainScheme : Scheme Unit Unit := ⟨fun _ => (), fun _ _ => List.replicate 64 0, fun _ => true, fun _ _ _ => true⟩

def platform : Producer Unit := ⟨(), "assessment-engine", "ajar.ingest.assessment-engine"⟩

def overview (derivedFrom : List String) : Assessment where
  entityType := "mim:vessel"
  model := "engine@1.0"
  derivedFrom := derivedFrom

/-- Stands for the encoding in the runs below. -/
def idOnly (event : Event) : SealModel.Bytes := (Utf8.bytes event.id).map UInt8.ofNat

/-- The publication of an overview under the id 1. -/
def overviewPublication : Publication × String :=
  (⟨"ajar.ingest.assessment-engine", List.replicate 64 0 ++ [0x31], [("Nats-Msg-Id", "1")]⟩, "1")

theorem two_parents_survive :
    ∃ event, assess "1" "2026-01-01T00:00:00Z" platform (overview ["b", " ", "a"]) = .ok event ∧
      overviewPublication =
        (⟨platform.subject, sealCanonical plainScheme (idOnly event) platform.key, [("Nats-Msg-Id", event.id)]⟩,
          event.id) ∧
      (Carries event (["b", " ", "a"].filter named) ↔ ∀ p ∈ ["b", " ", "a"].filter named, ',' ∉ p.toList) :=
  lineage_survives_iff plainScheme idOnly "1" "2026-01-01T00:00:00Z" platform
    (overview ["b", " ", "a"]) overviewPublication (by decide)

/-- One id with a comma reaches the boundary as two. -/
theorem comma_id_is_torn :
    ¬∀ (a : Assessment) (out : Publication × String),
      publishAssessment plainScheme idOnly "1" "2026-01-01T00:00:00Z" platform a = .ok out →
      ∃ event, assess "1" "2026-01-01T00:00:00Z" platform a = .ok event ∧ Carries event (a.derivedFrom.filter named) := by
  intro law
  obtain ⟨event, built, carried⟩ := law (overview ["track-7,part-2"]) overviewPublication (by decide)
  have clean := (carries_iff built).mp carried
  exact clean "track-7,part-2" (by decide) (by decide)

end ProducerProof
