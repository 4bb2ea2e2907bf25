import Mathlib.Data.List.Destutter
import Mathlib.Data.List.Sort
import AjarConnectors.Event.Types
import AjarConnectors.KeyMap.Sorted
import AjarConnectors.Text.Strings

namespace EgressModel

open EventModel TextModel

/-- A JSON value. The fields of an object stand in the order of their names. -/
inductive Value where
  | null
  | bool (value : Bool)
  | number (value : F64)
  | string (value : String)
  | array (items : List Value)
  | object (fields : List (String × Value))

abbrev Object := List (String × Value)

def fromF64 (x : F64) : Option Value := if x.exponent = 2047 then none else some (.number x)

def paths : List String :=
  ["id", "source_id", "entity_type", "timestamp", "lat", "lon", "alt_m", "confidence", "policy_tags"]

inductive ConfigError where
  | outsideEgress (subject : String)
  | cueChannel (subject : String)
  | emptyMapping
  | noAttempts
  | unknownPath (path : String)
  deriving DecidableEq

def validatePath (path : String) : Except ConfigError Unit :=
  if path ∈ paths ∨ (stripPrefix "attr:" path).isSome ∨ (stripPrefix "meta:" path).isSome then .ok ()
  else .error (.unknownPath path)

def findAttribute (attributes : List Attribute) (name : String) : Option Value :=
  (attributes.find? fun a => a.key == name).map fun a => .string a.value

def tagsValue (event : Event) : Value := .array (event.policyTags.map .string)

def lookup (event : Event) (path : String) : Option Value :=
  match stripPrefix "attr:" path with
  | some name => findAttribute event.attributes name
  | none =>
    match stripPrefix "meta:" path with
    | some name => findAttribute event.metadata name
    | none =>
      if path = "id" then some (.string event.id)
      else if path = "source_id" then some (.string event.sourceId)
      else if path = "entity_type" then some (.string event.entityType)
      else if path = "timestamp" then some (.string event.timestamp)
      else if path = "lat" then event.location.bind fun l => fromF64 l.latitude
      else if path = "lon" then event.location.bind fun l => fromF64 l.longitude
      else if path = "alt_m" then event.location.bind fun l => fromF64 l.altitudeM
      else if path = "confidence" then fromF64 event.confidence
      else if path = "policy_tags" then some (tagsValue event)
      else none

structure LabelConfig where
  policyIdentifier : String
  deriving DecidableEq

section

-- `str::to_uppercase`, the Unicode mapping.
variable (toUppercase : String → String)

/-- One tag in the loop of `confidentiality_label`: the first classification that is not blank, and
    every releasability. -/
def labelTag (found : Option String × List String) (tag : String) : Option String × List String :=
  match stripPrefix "class:" tag with
  | some v =>
    if found.1.isNone && !(trim v).isEmpty then (some (toUppercase (trim v)), found.2) else found
  | none =>
    match stripPrefix "rel:" tag with
    | some v => (found.1, found.2 ++ [toUppercase (trim v)])
    | none =>
      match stripPrefix "releasable:" tag with
      | some v => (found.1, found.2 ++ [toUppercase (trim v)])
      | none => found

def releasabilityValues (values : List String) : List String :=
  ((values.insertionSort (· ≤ ·)).destutter (· ≠ ·)).filter fun v => !v.isEmpty

def confidentialityLabel (cfg : LabelConfig) (event : Event) : Option Value :=
  let found := event.policyTags.foldl (labelTag toUppercase) (none, [])
  found.1.map fun classification =>
    let releasability := releasabilityValues found.2
    let label := KeyMap.insertAll
      [("policyIdentifier", .string cfg.policyIdentifier), ("classification", .string classification),
        ("creationDateTime", .string event.timestamp)] []
    .object (if releasability.isEmpty then label else
      KeyMap.insert "categories" (.array [.object (KeyMap.insertAll
        [("tagName", .string "Releasability"), ("type", .string "PERMISSIVE"),
          ("values", .array (releasability.map .string))] [])]) label)

end

inductive Unmapped where
  | include
  | refuse
  deriving DecidableEq

structure Mapping where
  fields : List (String × String)
  sorted : fields.Pairwise fun a b => a.1 < b.1
  deriving DecidableEq

def Mapping.mappedPaths (mapping : Mapping) : List String := mapping.fields.map Prod.snd

def mappedObject (event : Event) (mapping : Mapping) : Object :=
  KeyMap.insertAll (mapping.fields.filterMap fun field => (lookup event field.2).map fun v => (field.1, v)) []

/-- The content no mapped path names. -/
def extras (kind : String) (mappedPaths : List String) (attributes : List Attribute) : Object :=
  KeyMap.insertAll
    ((attributes.filter fun a => !mappedPaths.any fun p => stripPrefix kind p == some a.key).map fun a =>
      (a.key, .string a.value)) []

def governance : Value := .object [("egress_signature", .string "verified")]

section

variable (toUppercase : String → String)

/-- The object before unmapped content: mapped fields, then the id, the tags, the governance block and the
    label under names of their own. -/
def markedObject (event : Event) (mapping : Mapping) (label : Option LabelConfig) : Object :=
  let out := mappedObject event mapping
  let out := if "id" ∈ mapping.mappedPaths then out else KeyMap.insert "event_id" (.string event.id) out
  let out := if "policy_tags" ∈ mapping.mappedPaths then out else
    KeyMap.insert "policy_tags" ((lookup event "policy_tags").getD (.array [])) out
  let out := KeyMap.insert "governance" governance out
  match label.bind fun cfg => confidentialityLabel toUppercase cfg event with
  | some l => KeyMap.insert "confidentiality_label" l out
  | none => out

def unmappedObject (extraAttrs extraMeta : Object) : Object :=
  let u := if extraAttrs.isEmpty then [] else KeyMap.insert "attributes" (.object extraAttrs) []
  if extraMeta.isEmpty then u else KeyMap.insert "metadata" (.object extraMeta) u

def render (event : Event) (mapping : Mapping) (unmapped : Unmapped) (label : Option LabelConfig) : Option Value :=
  let out := markedObject toUppercase event mapping label
  let extraAttrs := extras "attr:" mapping.mappedPaths event.attributes
  let extraMeta := extras "meta:" mapping.mappedPaths event.metadata
  if extraAttrs.isEmpty && extraMeta.isEmpty then some (.object out)
  else
    match unmapped with
    | .refuse => none
    | .include => some (.object (KeyMap.insert "unmapped" (.object (unmappedObject extraAttrs extraMeta)) out))

end

def egressPrefix : String := "ajar.egress."

structure Config where
  subject : String
  attempts : Nat
  mapping : Mapping
  unmapped : Unmapped
  confidentialityLabel : Option LabelConfig
  deriving DecidableEq

def Config.validate (cfg : Config) : Except ConfigError Unit :=
  let s := trim cfg.subject
  if (stripPrefix egressPrefix s).isNone then .error (.outsideEgress s)
  else if (stripPrefix "ajar.cue." s).isSome ∨ s = "ajar.>" ∨ s = ">" then .error (.cueChannel s)
  else if cfg.mapping.fields.isEmpty then .error .emptyMapping
  else if cfg.attempts = 0 then .error .noAttempts
  else cfg.mapping.fields.forM fun field => validatePath field.2

end EgressModel
