import AjarConnectors.Event.Types
import AjarConnectors.KeyMap.Sorted
import AjarConnectors.Text.Strings

namespace OntologyModel

structure AttrDef where
  name : String
  values : Option (List String)
  deriving DecidableEq

structure TypeDef where
  id : String
  parent : Option String
  attributes : List AttrDef
  deriving DecidableEq

/-- The vendored ontology, as far as the checks read it. -/
structure Ontology where
  types : List TypeDef

/-- What a connector proposes to emit on one entity type. -/
structure Declared where
  entityType : String
  attributes : List String
  fixedValues : List (String × String)

inductive Fault where
  | unknownEntityType (name : String) (closest : Option String)
  | unknownAttribute (name : String) (closest : Option String) (governedOn : Option String)
  | notInVocabulary (name : String) (value : String) (allowed : List String)
  deriving DecidableEq

def startsWith (pre text : String) : Bool := pre.toList.isPrefixOf text.toList

/-- The loop of `nearest_ancestor_governing`. No result means that so many passes are not enough: on a cycle of parents
    no number is. -/
def nearestAncestorGoverning (byId : List (String × TypeDef)) (name : String) : Nat → Option String → Option (Option String)
  | 0, _ => none
  | _ + 1, none => some none
  | fuel + 1, some id => match byId.lookup id with
    | none => some none
    | some t =>
      if t.attributes.any (·.name == name) then some (some t.id)
      else nearestAncestorGoverning byId name fuel t.parent

/-- Case-insensitive match. -/
def closest (needle : String) (hay : List String) : Option String :=
  hay.find? fun c => TextModel.toAsciiLowercase c == TextModel.toAsciiLowercase needle

namespace TypeDef

/-- The attributes by their names, in the order of a `BTreeMap`; the later of two wins. -/
def allowed (t : TypeDef) : List (String × AttrDef) := KeyMap.insertAll (t.attributes.map fun a => (a.name, a)) []

end TypeDef

/-- The faults of the declared attributes of a type with this definition. -/
def attributeFaults (fuel : Nat) (byId : List (String × TypeDef)) (t : TypeDef) : List String → Option (List Fault)
  | [] => some []
  | name :: names =>
    if (t.allowed.lookup name).isSome then attributeFaults fuel byId t names
    else
      (nearestAncestorGoverning byId name fuel t.parent).bind fun governedOn =>
        (attributeFaults fuel byId t names).map fun faults =>
          .unknownAttribute name (closest name (t.allowed.map Prod.fst)) governedOn :: faults

/-- The fault of one fixed value, if its attribute has a vocabulary. -/
def valueFault? (t : TypeDef) (fixed : String × String) : Option Fault :=
  (t.allowed.lookup fixed.1).bind fun a => a.values.bind fun values =>
    if values.contains fixed.2 then none else some (.notInVocabulary fixed.1 fixed.2 values)

namespace Ontology

def byId (ont : Ontology) : List (String × TypeDef) := KeyMap.insertAll (ont.types.map fun t => (t.id, t)) []

def ids (ont : Ontology) : List String := ont.types.map TypeDef.id

def check (fuel : Nat) (ont : Ontology) (declared : Declared) : Option (List Fault) :=
  if startsWith "x:" declared.entityType then some []
  else match ont.byId.lookup declared.entityType with
    | none => some [.unknownEntityType declared.entityType (closest declared.entityType ont.ids)]
    | some t =>
      (attributeFaults fuel ont.byId t declared.attributes).map fun faults =>
        faults ++ declared.fixedValues.filterMap (valueFault? t)

/-- The attribute names of each type, as the per-event helpers look them up. -/
def index (ont : Ontology) : List (String × List String) :=
  KeyMap.insertAll (ont.types.map fun t => (t.id, t.attributes.map AttrDef.name)) []

end Ontology

def operatorNamespace (entityType : String) : Bool := !startsWith "mim:" entityType

namespace Ontology

def governs (ont : Ontology) (entityType name : String) : Bool :=
  operatorNamespace entityType || (ont.index.lookup entityType).any (·.contains name)

def knowsType (ont : Ontology) (entityType : String) : Bool :=
  operatorNamespace entityType || (ont.index.lookup entityType).isSome

def ungoverned (ont : Ontology) (event : EventModel.Event) : List String :=
  (event.attributes.filter fun a => !ont.governs event.entityType a.key).map EventModel.Attribute.key

/-- `check` returns a list with such a fault. -/
def ReportsUnknown (ont : Ontology) (declared : Declared) : Prop :=
  ∃ fuel faults name closest, ont.check fuel declared = some faults ∧ .unknownEntityType name closest ∈ faults

/-- `check` returns, and the mapping has no fault. -/
def Passes (ont : Ontology) (declared : Declared) : Prop := ∃ fuel, ont.check fuel declared = some []

/-- What is refused at boot is what the runtime does not know, and nothing of a mapping that passes is lost later. -/
structure Agrees (ont : Ontology) (declared : Declared) : Prop where
  unknown : ont.ReportsUnknown declared ↔ ont.knowsType declared.entityType = false
  governed : ont.Passes declared → ∀ event : EventModel.Event, event.entityType = declared.entityType →
    (∀ a ∈ event.attributes, a.key ∈ declared.attributes) → ont.ungoverned event = []

/-- What the runtime keeps of lost events: their number, and the types and attributes it has warned about. -/
structure UngovernedLog where
  ungoverned : Nat := 0
  reported : List (String × String) := []

def UngovernedLog.report (log : UngovernedLog) (entityType name : String) : UngovernedLog :=
  if (entityType, name) ∈ log.reported then log else { log with reported := (entityType, name) :: log.reported }

def reportUngoverned (ont : Ontology) (event : EventModel.Event) (log : UngovernedLog) : UngovernedLog :=
  let counted := { log with ungoverned := log.ungoverned + 1 }
  if ont.knowsType event.entityType = false then counted.report event.entityType ""
  else
    let lost := ont.ungoverned event
    lost.foldl (fun log name => log.report event.entityType name) (if lost.isEmpty then log else counted)

end Ontology

end OntologyModel

namespace OntologyProof

open OntologyModel

theorem index_eq (ont : Ontology) : ont.index = ont.byId.map (Prod.map id fun t => t.attributes.map AttrDef.name) := by
  rw [Ontology.index, Ontology.byId, ← KeyMap.insertAll_map_snd, List.map_map]
  rfl

theorem index_lookup (ont : Ontology) (entityType : String) :
    ont.index.lookup entityType = (ont.byId.lookup entityType).map fun t => t.attributes.map AttrDef.name := by
  rw [index_eq, KeyMap.lookup_map_snd]

theorem byId_isSome_iff (ont : Ontology) (entityType : String) :
    (ont.byId.lookup entityType).isSome = true ↔ entityType ∈ ont.ids := by
  rw [Ontology.byId, KeyMap.lookup_insertAll_isSome, List.map_map]
  simp [Ontology.ids, Function.comp_def]

theorem allowed_isSome_iff (t : TypeDef) (name : String) :
    (t.allowed.lookup name).isSome = true ↔ name ∈ t.attributes.map AttrDef.name := by
  rw [TypeDef.allowed, KeyMap.lookup_insertAll_isSome, List.map_map]
  simp [Function.comp_def]

theorem knowsType_eq_false_iff (ont : Ontology) (entityType : String) :
    ont.knowsType entityType = false ↔ startsWith "mim:" entityType = true ∧ entityType ∉ ont.ids := by
  rw [Ontology.knowsType, operatorNamespace, Bool.or_eq_false_iff, Bool.not_eq_false', index_lookup, Option.isSome_map,
    ← byId_isSome_iff, Bool.not_eq_true]

/-- Attributes and fixed values have faults of their own kind only. -/
theorem attributeFaults_kind {fuel : Nat} {byId : List (String × TypeDef)} {t : TypeDef} {names : List String}
    {faults : List Fault} (returned : attributeFaults fuel byId t names = some faults) (name : String)
    (closest : Option String) : .unknownEntityType name closest ∉ faults := by
  induction names generalizing faults with
  | nil =>
    cases returned
    exact List.not_mem_nil
  | cons first names ih =>
    rw [attributeFaults] at returned
    split at returned
    · exact ih returned
    · obtain ⟨governedOn, -, returned⟩ := Option.bind_eq_some_iff.mp returned
      obtain ⟨rest, found, rfl⟩ := Option.map_eq_some_iff.mp returned
      rw [List.mem_cons]
      rintro (same | later)
      · cases same
      · exact ih found later

theorem valueFault_kind {t : TypeDef} {fixed : List (String × String)} (name : String) (closest : Option String) :
    .unknownEntityType name closest ∉ fixed.filterMap (valueFault? t) := by
  rw [List.mem_filterMap]
  rintro ⟨pair, -, found⟩
  obtain ⟨a, -, found⟩ := Option.bind_eq_some_iff.mp found
  obtain ⟨values, -, found⟩ := Option.bind_eq_some_iff.mp found
  split at found <;> cases found

theorem reportsUnknown_iff (ont : Ontology) (declared : Declared) :
    ont.ReportsUnknown declared ↔ startsWith "x:" declared.entityType = false ∧ declared.entityType ∉ ont.ids := by
  unfold Ontology.ReportsUnknown Ontology.check
  rw [← byId_isSome_iff]
  cases vendor : startsWith "x:" declared.entityType
  · simp only [Bool.false_eq_true, if_false]
    cases ont.byId.lookup declared.entityType with
    | none => exact iff_of_true ⟨0, _, _, _, rfl, List.mem_singleton.mpr rfl⟩ ⟨trivial, by simp⟩
    | some t =>
      apply iff_of_false
      · rintro ⟨fuel, faults, name, closest, returned, member⟩
        obtain ⟨found, attributes, rfl⟩ := Option.map_eq_some_iff.mp returned
        rcases List.mem_append.mp member with first | second
        · exact attributeFaults_kind attributes name closest first
        · exact valueFault_kind name closest second
      · simp
  · simp only [if_true]
    apply iff_of_false
    · rintro ⟨fuel, faults, name, closest, returned, member⟩
      cases returned
      cases member
    · simp

/-- Without a fault every declared attribute is one of the type's own. -/
theorem attributeFaults_eq_nil {fuel : Nat} {byId : List (String × TypeDef)} {t : TypeDef} {names : List String}
    (returned : attributeFaults fuel byId t names = some []) : ∀ name ∈ names, name ∈ t.attributes.map AttrDef.name := by
  induction names with
  | nil => exact fun _ member => by cases member
  | cons first names ih =>
    rw [attributeFaults] at returned
    split at returned
    · rename_i known
      intro name member
      rcases List.mem_cons.mp member with rfl | later
      · exact (allowed_isSome_iff t name).mp known
      · exact ih returned name later
    · obtain ⟨governedOn, -, returned⟩ := Option.bind_eq_some_iff.mp returned
      obtain ⟨rest, -, impossible⟩ := Option.map_eq_some_iff.mp returned
      cases impossible

theorem operatorNamespace_of_vendor {entityType : String} (vendor : startsWith "x:" entityType = true) :
    operatorNamespace entityType = true := by
  unfold operatorNamespace startsWith at *
  rw [List.isPrefixOf_iff_prefix] at vendor
  rw [Bool.not_eq_true', ← Bool.not_eq_true, List.isPrefixOf_iff_prefix]
  intro contract
  have same := (List.prefix_of_prefix_length_le vendor contract (by decide)).subset (a := 'x') (by decide)
  exact absurd same (by decide)

/-- What passes at boot is governed at run time. -/
theorem passes_governs {ont : Ontology} {declared : Declared} (passes : ont.Passes declared) {name : String}
    (member : name ∈ declared.attributes) : ont.governs declared.entityType name = true := by
  obtain ⟨fuel, returned⟩ := passes
  unfold Ontology.check at returned
  rw [Ontology.governs, Bool.or_eq_true]
  split at returned
  · rename_i vendor
    exact Or.inl (operatorNamespace_of_vendor vendor)
  · split at returned
    · cases returned
    · rename_i t found
      obtain ⟨faults, attributes, none⟩ := Option.map_eq_some_iff.mp returned
      rw [(List.append_eq_nil_iff.mp none).1] at attributes
      right
      rw [index_lookup, found, Option.map_some, Option.any_some, List.contains_iff_mem]
      exact attributeFaults_eq_nil attributes name member

theorem passes_ungoverned {ont : Ontology} {declared : Declared} (passes : ont.Passes declared) (event : EventModel.Event)
    (same : event.entityType = declared.entityType) (among : ∀ a ∈ event.attributes, a.key ∈ declared.attributes) :
    ont.ungoverned event = [] := by
  rw [Ontology.ungoverned, List.map_eq_nil_iff, List.filter_eq_nil_iff]
  intro a member
  rw [same, passes_governs passes (among a member)]
  decide

theorem passes_knowsType {ont : Ontology} {declared : Declared} (passes : ont.Passes declared) :
    ont.knowsType declared.entityType = true := by
  obtain ⟨fuel, returned⟩ := passes
  unfold Ontology.check at returned
  rw [Ontology.knowsType, Bool.or_eq_true]
  split at returned
  · rename_i vendor
    exact Or.inl (operatorNamespace_of_vendor vendor)
  · split at returned
    · cases returned
    · rename_i t found
      right
      rw [index_lookup, found]
      rfl

/-- The runtime neither counts nor warns about the events of a mapping that passed at boot. -/
theorem passes_reportUngoverned {ont : Ontology} {declared : Declared} (passes : ont.Passes declared)
    (event : EventModel.Event) (same : event.entityType = declared.entityType)
    (among : ∀ a ∈ event.attributes, a.key ∈ declared.attributes) (log : Ontology.UngovernedLog) :
    ont.reportUngoverned event log = log := by
  have known := passes_knowsType passes
  rw [← same] at known
  unfold Ontology.reportUngoverned
  rw [known, passes_ungoverned passes event same among]
  rfl

/-- Boot check and runtime agree exactly on the types of the ontology, the rest of its namespace and the vendor
    namespace `x:`. -/
theorem boot_check_agrees_iff (ont : Ontology) (declared : Declared) :
    ont.Agrees declared ↔
      declared.entityType ∈ ont.ids ∨ startsWith "mim:" declared.entityType = true ∨
        startsWith "x:" declared.entityType = true := by
  have vendor : startsWith "x:" declared.entityType = true → operatorNamespace declared.entityType = true :=
    operatorNamespace_of_vendor
  have agrees : ont.Agrees declared ↔ (ont.ReportsUnknown declared ↔ ont.knowsType declared.entityType = false) :=
    ⟨fun agrees => agrees.unknown, fun unknown => ⟨unknown, passes_ungoverned⟩⟩
  rw [agrees, reportsUnknown_iff, knowsType_eq_false_iff]
  unfold operatorNamespace at vendor
  cases contract : startsWith "mim:" declared.entityType <;> cases operator : startsWith "x:" declared.entityType <;>
    simp_all

/-- A type of the contract's own namespace, and no other. -/
def aircraftOntology : Ontology := ⟨[⟨"mim:aircraft", none, []⟩]⟩

/-- The runtime leaves a SAPIENT type to the operator, and the boot check refuses it. -/
theorem sapient_type_is_refused : ¬ ∀ (ont : Ontology) (declared : Declared), ont.Agrees declared := by
  intro claim
  have agrees := (claim aircraftOntology ⟨"sapient:detection", [], []⟩).unknown
  have reported := (reportsUnknown_iff aircraftOntology ⟨"sapient:detection", [], []⟩).mpr (by decide)
  exact absurd (agrees.mp reported) (by decide)

end OntologyProof
