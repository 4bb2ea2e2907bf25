import Mathlib.Data.List.Perm.Subperm
import Mathlib.Logic.Relation
import AjarConnectors.Ontology.Check

namespace ValidateModel

open OntologyModel

/-- The C++ definitions: no vocabulary is an empty one, and no parent is an empty one. -/
structure AttrDef where
  name : String
  values : List String

structure TypeDef where
  parent : String
  attributes : List AttrDef

inductive Kind where
  | unknownEntityType
  | unknownAttribute
  | notInVocabulary
  deriving DecidableEq

structure ValidationFault where
  kind : Kind
  subject : String
  value : String
  suggestion : String
  allowed : List String
  governedOn : String
  deriving DecidableEq

def attrDef (a : OntologyModel.AttrDef) : AttrDef := { name := a.name, values := a.values.getD [] }

def typeDef (t : OntologyModel.TypeDef) : TypeDef :=
  { parent := t.parent.getD "", attributes := t.attributes.map attrDef }

/-- `ontology`: the same document, read into a `std::map`; the earlier of two types of one id wins. -/
def types (ont : Ontology) : List (String × TypeDef) :=
  KeyMap.emplaceAll (ont.types.map fun t => (t.id, typeDef t)) []

/-- The candidate equal to `needle` ignoring case, or the empty string. -/
def caseMatch (needle : String) : List String → String
  | [] => ""
  | c :: candidates =>
    if TextModel.toAsciiLowercase c = TextModel.toAsciiLowercase needle then c else caseMatch needle candidates

def governed (t : TypeDef) : List (String × AttrDef) := KeyMap.emplaceAll (t.attributes.map fun a => (a.name, a)) []

/-- The loop of `governed_on`. -/
def governedOn (types : List (String × TypeDef)) (name : String) : Nat → TypeDef → Option String
  | 0, _ => none
  | fuel + 1, t =>
    if t.parent = "" then some ""
    else match types.lookup t.parent with
      | none => some ""
      | some up => if up.attributes.any (·.name == name) then some t.parent else governedOn types name fuel up

def attributeFaults (fuel : Nat) (types : List (String × TypeDef)) (t : TypeDef) :
    List String → Option (List ValidationFault)
  | [] => some []
  | want :: wanted =>
    if ((governed t).lookup want).isSome then attributeFaults fuel types t wanted
    else
      (governedOn types want fuel t).bind fun ancestor =>
        (attributeFaults fuel types t wanted).map fun faults =>
          ⟨.unknownAttribute, want, "", caseMatch want ((governed t).map Prod.fst), [], ancestor⟩ :: faults

def valueFault? (t : TypeDef) (fixed : String × String) : Option ValidationFault :=
  ((governed t).lookup fixed.1).bind fun a =>
    if a.values.isEmpty then none
    else if a.values.contains fixed.2 then none
    else some ⟨.notInVocabulary, fixed.1, fixed.2, caseMatch fixed.2 a.values, a.values, ""⟩

def validate (fuel : Nat) (ont : Ontology) (mapping : Declared) : Option (List ValidationFault) :=
  if startsWith "x:" mapping.entityType then some []
  else match (types ont).lookup mapping.entityType with
    | none =>
      some [⟨.unknownEntityType, mapping.entityType, "", caseMatch mapping.entityType ((types ont).map Prod.fst), [], ""⟩]
    | some t =>
      (attributeFaults fuel (types ont) t mapping.attributes).map fun faults =>
        faults ++ mapping.fixedValues.filterMap (valueFault? t)

/-- An empty string stands for no string. -/
def present (text : String) : Option String := if text = "" then none else some text

/-- The fault in the words of the Rust side, which makes no suggestion for a value. -/
def ValidationFault.asFault (v : ValidationFault) : Fault :=
  match v.kind with
  | .unknownEntityType => .unknownEntityType v.subject (present v.suggestion)
  | .unknownAttribute => .unknownAttribute v.subject (present v.suggestion) (present v.governedOn)
  | .notInVocabulary => .notInVocabulary v.subject v.value v.allowed

/-- `id` names a type that has `parent` as its parent. -/
def IsChild (ont : Ontology) (id parent : String) : Prop := ∃ t ∈ ont.types, t.id = id ∧ t.parent = some parent

structure WellFormed (ont : Ontology) : Prop where
  ids : ont.ids.Nodup
  idsIgnoringCase : (ont.ids.map TextModel.toAsciiLowercase).Nodup
  names : ∀ t ∈ ont.types, (t.attributes.map OntologyModel.AttrDef.name).Nodup
  vocabularies : ∀ t ∈ ont.types, ∀ a ∈ t.attributes, a.values ≠ some []
  acyclic : ∀ id, ¬ Relation.TransGen (IsChild ont) id id

/-- An empty parent is no type's id. -/
def RootsNamed (ont : Ontology) : Prop := ∀ t ∈ ont.types, t.parent = some "" → "" ∉ ont.ids

/-- Both return, and with the same faults. -/
def Mirrors (ont : Ontology) (mapping : Declared) : Prop :=
  ∃ enough, ∀ fuel, enough ≤ fuel → ∃ faults,
    validate fuel ont mapping = some faults ∧ ont.check fuel mapping = some (faults.map ValidationFault.asFault)

end ValidateModel

namespace ValidateProof

open OntologyModel ValidateModel OntologyProof

theorem toAsciiLowercase_eq_empty {text : String} (empty : TextModel.toAsciiLowercase text = TextModel.toAsciiLowercase "") :
    text = "" := by
  rw [TextModel.toAsciiLowercase, TextModel.toAsciiLowercase, String.toList_empty, List.map_nil, String.ofList_inj,
    List.map_eq_nil_iff, String.toList_eq_nil_iff] at empty
  exact empty

/-- The two searches agree, since a candidate that is empty would be the needle itself. -/
theorem present_caseMatch {needle : String} {hay : List String} (absent : needle ∉ hay) :
    present (caseMatch needle hay) = closest needle hay := by
  induction hay with
  | nil => rfl
  | cons c hay ih =>
    rw [List.mem_cons, not_or] at absent
    rw [caseMatch, closest, List.find?_cons]
    by_cases same : TextModel.toAsciiLowercase c = TextModel.toAsciiLowercase needle
    · have nonempty : c ≠ "" := by
        rintro rfl
        exact absent.1 (toAsciiLowercase_eq_empty same.symm)
      rw [if_pos same, present, if_neg nonempty, beq_iff_eq.mpr same]
    · rw [if_neg same, beq_eq_false_iff_ne.mpr same]
      exact ih absent.2

theorem closest_some {needle c : String} {hay : List String} (found : closest needle hay = some c) :
    c ∈ hay ∧ TextModel.toAsciiLowercase c = TextModel.toAsciiLowercase needle := by
  rw [closest] at found
  have chosen := List.find?_some found
  exact ⟨List.mem_of_find?_eq_some found, beq_iff_eq.mp chosen⟩

theorem closest_none {needle : String} {hay : List String} (found : closest needle hay = none) {c : String}
    (member : c ∈ hay) : TextModel.toAsciiLowercase c ≠ TextModel.toAsciiLowercase needle := by
  rw [closest, List.find?_eq_none] at found
  exact fun same => found c member (beq_iff_eq.mpr same)

/-- Where no two candidates differ in case only, their order does not matter. -/
theorem closest_congr {hay hay' : List String} (same : ∀ c, c ∈ hay ↔ c ∈ hay')
    (unique : ∀ c ∈ hay, ∀ d ∈ hay, TextModel.toAsciiLowercase c = TextModel.toAsciiLowercase d → c = d) (needle : String) :
    closest needle hay = closest needle hay' := by
  cases found : closest needle hay with
  | none =>
    cases found' : closest needle hay' with
    | none => rfl
    | some d =>
      obtain ⟨member, equal⟩ := closest_some found'
      exact absurd equal (closest_none found ((same d).mpr member))
  | some c =>
    obtain ⟨member, equal⟩ := closest_some found
    cases found' : closest needle hay' with
    | none => exact absurd equal (closest_none found' ((same c).mp member))
    | some d =>
      obtain ⟨member', equal'⟩ := closest_some found'
      rw [unique c member d ((same d).mpr member') (equal.trans equal'.symm)]

section

variable {ont : Ontology} (wf : WellFormed ont)

include wf

theorem types_eq : types ont = ont.byId.map (Prod.map id typeDef) := by
  have distinct : ((ont.types.map fun t => (t.id, typeDef t)).map Prod.fst).Nodup := by
    rw [List.map_map]
    exact wf.ids
  rw [types, KeyMap.emplaceAll_eq_insertAll distinct, Ontology.byId, ← KeyMap.insertAll_map_snd, List.map_map]
  rfl

theorem types_lookup (id : String) : (types ont).lookup id = (ont.byId.lookup id).map typeDef := by
  rw [types_eq wf, KeyMap.lookup_map_snd]

theorem byId_some {id : String} {t : OntologyModel.TypeDef} (found : ont.byId.lookup id = some t) :
    t ∈ ont.types ∧ t.id = id := by
  have distinct : ((ont.types.map fun t => (t.id, t)).map Prod.fst).Nodup := by
    rw [List.map_map]
    exact wf.ids
  rw [Ontology.byId, KeyMap.lookup_insertAll distinct] at found
  obtain ⟨u, member, same⟩ := List.mem_map.mp (KeyMap.mem_of_lookup found)
  cases same
  exact ⟨member, rfl⟩

theorem types_mem_iff (id : String) : id ∈ ont.ids ↔ id ∈ (types ont).map Prod.fst := by
  rw [← byId_isSome_iff, ← Option.isSome_map (f := typeDef), ← types_lookup wf, List.lookup_isSome_iff, List.mem_map]
  constructor
  · rintro ⟨entry, member, same⟩
    exact ⟨entry, member, (beq_iff_eq.mp same).symm⟩
  · rintro ⟨entry, member, same⟩
    exact ⟨entry, member, beq_iff_eq.mpr same.symm⟩

theorem suggestion_eq {entityType : String} (unknown : entityType ∉ ont.ids) :
    present (caseMatch entityType ((types ont).map Prod.fst)) = closest entityType ont.ids := by
  rw [present_caseMatch fun member => unknown ((types_mem_iff wf entityType).mpr member)]
  symm
  exact closest_congr (types_mem_iff wf) (fun c member d member' same =>
    List.inj_on_of_nodup_map wf.idsIgnoringCase member member' same) entityType

variable {t : OntologyModel.TypeDef} (member : t ∈ ont.types)

include member

theorem governed_eq : governed (typeDef t) = t.allowed.map (Prod.map id attrDef) := by
  have distinct : (((typeDef t).attributes.map fun a => (a.name, a)).map Prod.fst).Nodup := by
    rw [List.map_map, typeDef, List.map_map]
    exact wf.names t member
  rw [governed, KeyMap.emplaceAll_eq_insertAll distinct, OntologyModel.TypeDef.allowed, ← KeyMap.insertAll_map_snd, typeDef,
    List.map_map, List.map_map]
  rfl

theorem allowed_some {name : String} {a : OntologyModel.AttrDef} (found : t.allowed.lookup name = some a) :
    a ∈ t.attributes := by
  have distinct : ((t.attributes.map fun a => (a.name, a)).map Prod.fst).Nodup := by
    rw [List.map_map]
    exact wf.names t member
  rw [OntologyModel.TypeDef.allowed, KeyMap.lookup_insertAll distinct] at found
  obtain ⟨b, listed, same⟩ := List.mem_map.mp (KeyMap.mem_of_lookup found)
  cases same
  exact listed

theorem valueFault_eq (fixed : String × String) :
    OntologyModel.valueFault? t fixed = (ValidateModel.valueFault? (typeDef t) fixed).map ValidationFault.asFault := by
  rw [OntologyModel.valueFault?, ValidateModel.valueFault?, governed_eq wf member, KeyMap.lookup_map_snd]
  cases found : t.allowed.lookup fixed.1 with
  | none => rfl
  | some a =>
    have nonempty := wf.vocabularies t member a (allowed_some wf member found)
    rw [Option.map_some, Option.bind_some, Option.bind_some, attrDef]
    cases vocabulary : a.values with
    | none => rfl
    | some values =>
      have inhabited : ¬ values.isEmpty = true := by
        rw [List.isEmpty_iff]
        rintro rfl
        exact nonempty vocabulary
      dsimp only [Option.getD_some]
      rw [Option.bind_some, if_neg inhabited]
      split <;> rfl

/-- The two loops go up the same chain. -/
theorem ancestors_eq (rooted : RootsNamed ont) (name : String) (fuel : Nat) :
    nearestAncestorGoverning ont.byId name fuel t.parent =
      (governedOn (types ont) name fuel (typeDef t)).map present := by
  induction fuel generalizing t with
  | zero => rfl
  | succ fuel ih =>
    rw [governedOn]
    cases parent : t.parent with
    | none =>
      have root : (typeDef t).parent = "" := by rw [typeDef, parent, Option.getD_none]
      rw [nearestAncestorGoverning, if_pos root]
      rfl
    | some id =>
      have same : (typeDef t).parent = id := by rw [typeDef, parent, Option.getD_some]
      rw [nearestAncestorGoverning, same, types_lookup wf]
      by_cases empty : id = ""
      · subst empty
        have unknown : ont.byId.lookup "" = none := by
          rw [← Option.not_isSome_iff_eq_none, byId_isSome_iff]
          exact rooted t member parent
        rw [unknown]
        rfl
      · rw [if_neg empty]
        cases found : ont.byId.lookup id with
        | none => rfl
        | some up =>
          obtain ⟨listed, rfl⟩ := byId_some wf found
          have names : (typeDef up).attributes.any (·.name == name) = up.attributes.any (·.name == name) := by
            rw [typeDef, List.any_map]
            rfl
          rw [Option.map_some]
          dsimp only
          rw [names]
          split
          · rw [Option.map_some, present, if_neg empty]
          · exact ih listed

theorem attributeFaults_eq (rooted : RootsNamed ont) (fuel : Nat) (names : List String) :
    OntologyModel.attributeFaults fuel ont.byId t names =
      (ValidateModel.attributeFaults fuel (types ont) (typeDef t) names).map (List.map ValidationFault.asFault) := by
  induction names with
  | nil => rfl
  | cons name names ih =>
    rw [OntologyModel.attributeFaults, ValidateModel.attributeFaults, governed_eq wf member, KeyMap.lookup_map_snd,
      Option.isSome_map]
    split
    · exact ih
    · rename_i unknown
      have absent : name ∉ t.allowed.map Prod.fst := by
        intro listed
        obtain ⟨entry, inside, same⟩ := List.mem_map.mp listed
        exact unknown (List.lookup_isSome_iff.mpr ⟨entry, inside, beq_iff_eq.mpr same.symm⟩)
      rw [ancestors_eq wf member rooted, ih]
      cases governedOn (types ont) name fuel (typeDef t) with
      | none => rfl
      | some ancestor =>
        cases ValidateModel.attributeFaults fuel (types ont) (typeDef t) names with
        | none => rfl
        | some faults =>
          have keys : (t.allowed.map (Prod.map id attrDef)).map Prod.fst = t.allowed.map Prod.fst := by
            rw [List.map_map]
            rfl
          simp only [Option.map_some, Option.bind_some, List.map_cons, ValidationFault.asFault, keys,
            present_caseMatch absent]

end

/-- Every pass goes to a type not met before, so the number of types bounds the passes. -/
theorem ancestors_return {ont : Ontology} (wf : WellFormed ont) (name : String) (fuel : Nat) (visited : List String)
    (id : Option String) (distinct : visited.Nodup) (known : visited ⊆ ont.ids)
    (below : ∀ v ∈ visited, ∀ a, id = some a → Relation.TransGen (IsChild ont) v a)
    (enough : ont.types.length < fuel + visited.length) :
    (nearestAncestorGoverning ont.byId name fuel id).isSome = true := by
  induction fuel generalizing visited id with
  | zero =>
    have few := (List.subperm_of_subset distinct known).length_le
    rw [Ontology.ids, List.length_map] at few
    omega
  | succ fuel ih =>
    cases id with
    | none => rfl
    | some id =>
      rw [nearestAncestorGoverning]
      cases found : ont.byId.lookup id with
      | none => rfl
      | some t =>
        obtain ⟨listed, rfl⟩ := byId_some wf found
        dsimp only
        split
        · rfl
        · apply ih (t.id :: visited) t.parent
          · rw [List.nodup_cons]
            exact ⟨fun again => wf.acyclic t.id (below t.id again t.id rfl), distinct⟩
          · rw [List.cons_subset]
            exact ⟨List.mem_map_of_mem listed, known⟩
          · intro v member a parent
            have step : IsChild ont t.id a := ⟨t, listed, rfl, parent⟩
            rcases List.mem_cons.mp member with rfl | before
            · exact Relation.TransGen.single step
            · exact (below v before t.id rfl).tail step
          · rw [List.length_cons]
            omega

theorem attributeFaults_return {ont : Ontology} (wf : WellFormed ont) (t : OntologyModel.TypeDef) {fuel : Nat}
    (enough : ont.types.length < fuel) (names : List String) :
    (OntologyModel.attributeFaults fuel ont.byId t names).isSome = true := by
  induction names with
  | nil => rfl
  | cons name names ih =>
    rw [OntologyModel.attributeFaults]
    split
    · exact ih
    · have ancestor := ancestors_return wf name fuel [] t.parent List.nodup_nil (List.nil_subset _)
        (fun _ member => by cases member) enough
      obtain ⟨governedOn, found⟩ := Option.isSome_iff_exists.mp ancestor
      rw [found, Option.bind_some, Option.isSome_map]
      exact ih

/-- On every well-formed ontology in which an empty parent is no type's id, both checks return, and with the same
    faults in the same order. -/
theorem validate_mirrors_check (ont : Ontology) (wf : WellFormed ont) (rooted : RootsNamed ont) (mapping : Declared) :
    Mirrors ont mapping := by
  refine ⟨ont.types.length + 1, fun fuel enough => ?_⟩
  rw [validate, Ontology.check, types_lookup wf]
  split
  · exact ⟨[], rfl, rfl⟩
  · cases found : ont.byId.lookup mapping.entityType with
    | none =>
      have unknown : mapping.entityType ∉ ont.ids := by
        rw [← byId_isSome_iff, found]
        decide
      refine ⟨_, rfl, ?_⟩
      dsimp only
      rw [List.map_singleton, ValidationFault.asFault]
      dsimp only
      rw [suggestion_eq wf unknown]
    | some t =>
      obtain ⟨listed, -⟩ := byId_some wf found
      have returned := attributeFaults_return wf t enough mapping.attributes
      rw [attributeFaults_eq wf listed rooted, Option.isSome_map] at returned
      obtain ⟨faults, same⟩ := Option.isSome_iff_exists.mp returned
      refine ⟨faults ++ mapping.fixedValues.filterMap (ValidateModel.valueFault? (typeDef t)), ?_, ?_⟩
      · dsimp only [Option.map_some]
        rw [same, Option.map_some]
      · dsimp only
        rw [attributeFaults_eq wf listed rooted, same, Option.map_some, Option.map_some, List.map_append, List.map_filterMap]
        congr 3
        funext fixed
        exact valueFault_eq wf listed fixed

/-- Where every parent is listed before its children there is no cycle. -/
theorem acyclic_of_ordered {ont : Ontology}
    (ordered : ∀ t ∈ ont.types, t.parent.all (fun p => decide (ont.ids.idxOf p < ont.ids.idxOf t.id)) = true) (id : String) :
    ¬ Relation.TransGen (IsChild ont) id id := by
  have step : ∀ a b, IsChild ont a b → ont.ids.idxOf b < ont.ids.idxOf a := by
    rintro a b ⟨t, member, rfl, parent⟩
    have before := ordered t member
    rw [parent, Option.all_some, decide_eq_true_eq] at before
    exact before
  have descends : ∀ a b, Relation.TransGen (IsChild ont) a b → ont.ids.idxOf b < ont.ids.idxOf a := by
    intro a b path
    induction path with
    | single last => exact step _ _ last
    | tail _ last ih => exact Nat.lt_trans (step _ _ last) ih
  exact fun cycle => Nat.lt_irrefl _ (descends id id cycle)

def sensorOntology : Ontology :=
  ⟨[⟨"mim:object", none, [⟨"hostility", some ["Friend", "Hostile"]⟩]⟩, ⟨"mim:equipment", some "mim:object", [⟨"speed", none⟩]⟩,
    ⟨"mim:sensor", some "mim:equipment", [⟨"hostility", some ["Friend", "Hostile"]⟩]⟩]⟩

theorem sensorOntology_wellFormed : WellFormed sensorOntology where
  ids := by decide
  idsIgnoringCase := by decide
  names := by decide
  vocabularies := by decide
  acyclic := acyclic_of_ordered (by decide)

theorem sensor_mapping_mirrored : Mirrors sensorOntology ⟨"mim:sensor", ["speed", "Hostility"], [("hostility", "friend")]⟩ :=
  validate_mirrors_check sensorOntology sensorOntology_wellFormed (by unfold RootsNamed; decide) _

/-- A chain of three types whose middle one has the empty id. -/
def namelessOntology : Ontology :=
  ⟨[⟨"mim:object", none, [⟨"speed", none⟩]⟩, ⟨"", some "mim:object", []⟩, ⟨"mim:sensor", some "", []⟩]⟩

theorem namelessOntology_wellFormed : WellFormed namelessOntology where
  ids := by decide
  idsIgnoringCase := by decide
  names := by decide
  vocabularies := by decide
  acyclic := acyclic_of_ordered (by decide)

theorem nearest_nameless (fuel : Nat) :
    nearestAncestorGoverning namelessOntology.byId "speed" (fuel + 2) (some "") = some (some "mim:object") := by
  have middle : namelessOntology.byId.lookup "" = some ⟨"", some "mim:object", []⟩ := by decide
  have top : namelessOntology.byId.lookup "mim:object" = some ⟨"mim:object", none, [⟨"speed", none⟩]⟩ := by decide
  rw [nearestAncestorGoverning, middle]
  dsimp only
  rw [if_neg (by decide), nearestAncestorGoverning, top]
  rfl

/-- The C++ side takes an empty parent for none, and so does not see who governs the attribute. -/
theorem nameless_parent_is_not_mirrored :
    ¬ ∀ (ont : Ontology) (mapping : Declared), WellFormed ont → Mirrors ont mapping := by
  intro claim
  obtain ⟨enough, agree⟩ := claim namelessOntology ⟨"mim:sensor", ["speed"], []⟩ namelessOntology_wellFormed
  obtain ⟨faults, validated, checked⟩ := agree (enough + 2) (by omega)
  have rust : namelessOntology.check (enough + 2) ⟨"mim:sensor", ["speed"], []⟩ =
      some [.unknownAttribute "speed" none (some "mim:object")] := by
    have found : namelessOntology.byId.lookup "mim:sensor" = some ⟨"mim:sensor", some "", []⟩ := by decide
    rw [Ontology.check, if_neg (by decide)]
    dsimp only
    rw [found]
    dsimp only
    rw [OntologyModel.attributeFaults, if_neg (by decide), nearest_nameless]
    rfl
  have cpp : validate (enough + 2) namelessOntology ⟨"mim:sensor", ["speed"], []⟩ =
      some [⟨.unknownAttribute, "speed", "", "", [], ""⟩] := by
    have found : (types namelessOntology).lookup "mim:sensor" = some ⟨"", []⟩ := by rfl
    rw [validate, if_neg (by decide)]
    dsimp only
    rw [found]
    rfl
  rw [cpp] at validated
  cases validated
  rw [rust] at checked
  exact absurd checked (by decide)

end ValidateProof
