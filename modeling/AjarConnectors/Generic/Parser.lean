import Mathlib.Algebra.Ring.Int.Defs
import AjarConnectors.Cot.Parser
import AjarConnectors.Delimited.Splitting
import AjarConnectors.Http.Server
import AjarConnectors.KeyMap.Sorted

namespace GenericModel

open EventModel TextModel BuilderModel

abbrev Bytes := List UInt8

inductive Format where
  | json
  | csv
  deriving DecidableEq

inductive TimestampFormat where
  | rfc3339
  | epochMillis
  | epochSeconds
  deriving DecidableEq

/-- A `BTreeMap` of strings, in the order of its keys. -/
structure FieldMap where
  entries : List (String × String) := []
  sorted : (entries.map Prod.fst).Pairwise (· < ·) := by decide

def FieldMap.empty : FieldMap := {}

structure Mapping where
  format : Format
  delimiter : String := ","
  columns : List String := []
  entityType : String
  timestampField : Option String := none
  timestampFormat : TimestampFormat := .rfc3339
  confidenceField : Option String := none
  latField : Option String := none
  lonField : Option String := none
  altField : Option String := none
  attributes : FieldMap := .empty
  metadata : FieldMap := .empty

inductive LoadError where
  | reading (path : String)
  | parsing (path : String)
  | columnsRequired
  deriving DecidableEq

def LoadError.text : LoadError → String
  | .reading path => "reading mapping from " ++ path
  | .parsing path => "parsing [mapping] in " ++ path
  | .columnsRequired => "mapping.columns is required for CSV (name the fields in order)"

/-- `Mapping::load`, on what the file system and the TOML reader give. -/
def Mapping.load (readToString : String → Option String) (fromStr : String → Option Mapping) (path : String) :
    Except LoadError Mapping :=
  match readToString path with
  | none => .error (.reading path)
  | some text => match fromStr text with
    | none => .error (.parsing path)
    | some mapping =>
      if mapping.format = .csv ∧ mapping.columns = [] then .error .columnsRequired else .ok mapping

/-- A JSON value; numbers, arrays and objects by the text they print as. -/
inductive Value where
  | string (s : String)
  | null
  | bool (b : Bool)
  | number (text : String)
  | other (text : String)
  deriving DecidableEq

inductive Document where
  | object (fields : List (String × Value))
  | other
  deriving DecidableEq

def jsonScalar : Value → String
  | .string s => s
  | .null => ""
  | .bool b => if b then "true" else "false"
  | .number text => text
  | .other text => text

inductive GenericError where
  | decode (message : String)
  | missing (field : String)
  | badNumber (field : String)
  | time (message : String)
  | build (error : BuildError)
  deriving DecidableEq

/-- What the parser calls of the time crate. -/
structure TimeCrate (DateTime : Type) where
  fromUnixTimestampNanos : Int → Except String DateTime
  fromUnixTimestamp : Int → Except String DateTime
  formatRfc3339 : DateTime → Except String String

/-- What the parser leaves to its dependencies; `debug` is `{:?}` of a string. -/
structure Platform (DateTime : Type) where
  floats : Floats
  time : TimeCrate DateTime
  fromJson : String → Except String Document
  debug : String → String

/-- Whether arithmetic that overflows panics, or wraps. -/
inductive Profile where
  | debug
  | release
  deriving DecidableEq

/-- The range of a signed integer of this many bits. -/
def Fits (bits : Nat) (n : Int) : Prop := -2^(bits - 1) ≤ n ∧ n < 2^(bits - 1)

instance (bits : Nat) (n : Int) : Decidable (Fits bits n) := inferInstanceAs (Decidable (_ ∧ _))

def decimal (digits : List Char) : Option Nat := if digits = [] then none else HttpModel.parseDigits 10 0 digits

def signed : List Char → Option Int
  | '-' :: digits => (decimal digits).map fun n : Nat => -(n : Int)
  | text => (decimal (HttpModel.dropPlus text)).map fun n : Nat => (n : Int)

/-- `str::parse` to a signed integer of this many bits. -/
def parseInt (bits : Nat) (text : String) : Option Int := (signed text.toList).filter fun n => Fits bits n

/-- A product of `i128`, unless it panics. -/
def mulI128 (profile : Profile) (a b : Int) : Option Int :=
  if Fits 128 (a * b) then some (a * b)
  else match profile with
    | .debug => none
    | .release => some ((a * b).bmod (2^128))

section

variable {DateTime : Type} (platform : Platform DateTime)

def formatted (dt : Except String DateTime) : Except GenericError String :=
  match dt with
  | .error e => .error (.time e)
  | .ok dt => (platform.time.formatRfc3339 dt).mapError .time

/-- None where it panics. -/
def toRfc3339 (profile : Profile) (raw : String) : TimestampFormat → Option (Except GenericError String)
  | .rfc3339 => some (.ok raw)
  | .epochMillis => match parseInt 128 raw with
    | none => some (.error (.time (platform.debug raw)))
    | some ms => (mulI128 profile ms 1000000).map fun ns => formatted platform (platform.time.fromUnixTimestampNanos ns)
  | .epochSeconds => match parseInt 64 raw with
    | none => some (.error (.time (platform.debug raw)))
    | some s => some (formatted platform (platform.time.fromUnixTimestamp s))

/-- `str::split` of a row; an empty pattern is found between all characters and at both ends. -/
def splitRow (delimiter : String) (text : String) : List String :=
  if delimiter = "" then "" :: text.toList.map String.singleton ++ [""]
  else (Delimited.split delimiter.toList text.toList).map String.ofList

def record (m : Mapping) (frame : Bytes) : Except GenericError (List (String × String)) :=
  match Utf8.decode frame with
  | none => .error (.decode "not UTF-8")
  | some chars =>
    let text := String.ofList chars
    match m.format with
    | .json => match platform.fromJson (trim text) with
      | .error e => .error (.decode e)
      | .ok .other => .error (.decode "expected a JSON object")
      | .ok (.object fields) => .ok (KeyMap.insertAll (fields.map (Prod.map id jsonScalar)) [])
    | .csv => .ok (KeyMap.insertAll (m.columns.zip ((splitRow m.delimiter (trim text)).map trim)) [])

abbrev Record := List (String × String)

def timestampCall (profile : Profile) (m : Mapping) (now : String) (rec : Record) : Option (Except GenericError Call) :=
  match m.timestampField with
  | none => some (.ok (.timestamp now))
  | some field => match rec.lookup field with
    | none => some (.error (.missing field))
    | some raw => (toRfc3339 platform profile raw m.timestampFormat).map (Except.map Call.timestamp)

def altitude (m : Mapping) (rec : Record) : Except GenericError F64 :=
  match m.altField with
  | none => .ok .zero
  | some altf => match rec.lookup altf with
    | none => .ok .zero
    | some v => match platform.floats.parse v with
      | none => .error (.badNumber altf)
      | some alt => .ok alt

def locationCalls (m : Mapping) (rec : Record) : Except GenericError (List Call) :=
  match m.latField, m.lonField with
  | some latf, some lonf => match rec.lookup latf, rec.lookup lonf with
    | some lat, some lon => match platform.floats.parse lat with
      | none => .error (.badNumber latf)
      | some lat => match platform.floats.parse lon with
        | none => .error (.badNumber lonf)
        | some lon => match altitude platform m rec with
          | .error e => .error e
          | .ok altM => .ok [.location lat lon altM]
    | _, _ => .ok []
  | _, _ => .ok []

def confidenceCalls (m : Mapping) (rec : Record) : Except GenericError (List Call) :=
  match m.confidenceField with
  | none => .ok []
  | some field => match rec.lookup field with
    | none => .ok []
    | some raw => match CotModel.normalizeConfidence platform.floats raw with
      | none => .error (.badNumber field)
      | some v => .ok [.confidence v]

/-- The keys and values of the mapped fields that the record has, in the order of the fields. -/
def mapped (fields : FieldMap) (rec : Record) : List (String × String) :=
  fields.entries.filterMap fun entry => (rec.lookup entry.1).map fun v => (entry.2, v)

def attributeEntries (m : Mapping) (hostility : Option String) (rec : Record) : List (String × String) :=
  (hostility.map fun aff => ("hostility", aff)).toList ++ mapped m.attributes rec

/-- The builder's calls for a record. -/
def draft (profile : Profile) (m : Mapping) (hostility : Option String) (newId now : String) (frame : Bytes) (rec : Record) :
    Option (Except GenericError (List Call)) :=
  match timestampCall platform profile m now rec with
  | none => none
  | some (.error e) => some (.error e)
  | some (.ok timestamp) => some (match locationCalls platform m rec with
    | .error e => .error e
    | .ok location => match confidenceCalls platform m rec with
      | .error e => .error e
      | .ok confidence => .ok ([.id newId, .payload frame, timestamp] ++ location ++ confidence ++
          (attributeEntries m hostility rec).map (fun entry => .attribute entry.1 entry.2) ++
          (mapped m.metadata rec).map fun entry => .metadata entry.1 entry.2))

/-- None where it panics. -/
def toEvent (profile : Profile) (sourceId : String) (m : Mapping) (hostility : Option String) (newId now : String)
    (frame : Bytes) : Option (Except GenericError Event) :=
  match record platform m frame with
  | .error e => some (.error e)
  | .ok rec => (draft platform profile m hostility newId now frame rec).map fun drafted =>
      match drafted with
      | .error e => .error e
      | .ok calls => (Rust.run sourceId m.entityType calls).mapError .build

end

end GenericModel
