import AjarConnectors.Event.Types
import AjarConnectors.Sorting.Keyed
import AjarConnectors.Text.Strings
import AjarConnectors.Utf8.Order

namespace BuilderModel

open EventModel TextModel

def maxAttributes : Nat := 128

def maxMetadata : Nat := 128

def maxPolicyTags : Nat := 64

inductive BuildError where
  | missingField (name : String)
  | invalidTimestamp (timestamp : String)
  | invalidLocation (latitude longitude : F64)
  | unnamespacedEntityType (entityType : String)
  | confidenceOutOfRange (confidence : F64)
  | tooManyPolicyTags (count max : Nat)
  | tooManyAttributes (count max : Nat)
  | tooManyMetadata (count max : Nat)
  | duplicateAttributeKey (key : String)
  | duplicateMetadataKey (key : String)
  deriving DecidableEq

/-- The setters every SDK offers. -/
inductive Call where
  | id (value : String)
  | timestamp (ts : String)
  | location (latitude longitude altitudeM : F64)
  | payload (bytes : List UInt8)
  | policyTag (tag : String)
  | confidence (confidence : F64)
  | attribute (key value : String)
  | metadata (key value : String)
  | allowUnnamespacedEntityType
  deriving DecidableEq

/-- The fields that all four builders hold alike. -/
structure Fields where
  sourceId : String
  entityType : String
  payload : List UInt8 := []
  policyTags : List String := []
  confidence : F64 := .zero
  attributes : List Attribute := []
  metadata : List Attribute := []
  strictEntityNamespace : Bool := true
  deriving DecidableEq

namespace Fields

def call (f : Fields) : Call → Fields
  | .payload bytes => { f with payload := bytes }
  | .policyTag tag => { f with policyTags := f.policyTags ++ [tag] }
  | .confidence confidence => { f with confidence := confidence }
  | .attribute key value => { f with attributes := f.attributes ++ [⟨key, value⟩] }
  | .metadata key value => { f with metadata := f.metadata ++ [⟨key, value⟩] }
  | .allowUnnamespacedEntityType => { f with strictEntityNamespace := false }
  | .id _ | .timestamp _ | .location _ _ _ => f

def sortByKey (less : String → String → Bool) (entries : List Attribute) : List Attribute :=
  Keyed.stableSort (fun a b => less a.key b.key) entries

/-- The checks from `source_id` on, in the order all four builders make them, and the event.
    The builders differ in how they recognise a namespace, which confidence they refuse and how
    their strings compare. -/
def finish (isNamespaced : String → Bool) (refused : F64 → Bool) (less : String → String → Bool)
    (f : Fields) (id timestamp : String) (location : Option GeoPoint) : Except BuildError Event :=
  if f.sourceId = "" then .error (.missingField "source_id")
  else if f.entityType = "" then .error (.missingField "entity_type")
  else if f.strictEntityNamespace && !isNamespaced f.entityType then .error (.unnamespacedEntityType f.entityType)
  else if refused f.confidence then .error (.confidenceOutOfRange f.confidence)
  else if maxPolicyTags < f.policyTags.length then .error (.tooManyPolicyTags f.policyTags.length maxPolicyTags)
  else if maxAttributes < f.attributes.length then .error (.tooManyAttributes f.attributes.length maxAttributes)
  else if maxMetadata < f.metadata.length then .error (.tooManyMetadata f.metadata.length maxMetadata)
  else match Keyed.firstRepeat Attribute.key (sortByKey less f.attributes) with
    | some key => .error (.duplicateAttributeKey key)
    | none => match Keyed.firstRepeat Attribute.key (sortByKey less f.metadata) with
      | some key => .error (.duplicateMetadataKey key)
      | none => .ok
        { schemaVersion := "v1", id := id, sourceId := f.sourceId, entityType := f.entityType,
          timestamp := timestamp, receivedAt := "", location := location, payload := f.payload,
          policyTags := f.policyTags, confidence := f.confidence,
          attributes := sortByKey less f.attributes, metadata := sortByKey less f.metadata }

end Fields

def byteLess (a b : String) : Bool := decide (List.Lex (· < ·) (Utf8.bytes a) (Utf8.bytes b))

def codePointLess (a b : String) : Bool := decide (List.Lex (· < ·) (Utf8.codePoints a) (Utf8.codePoints b))

end BuilderModel
