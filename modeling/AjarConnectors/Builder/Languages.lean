import AjarConnectors.Builder.Calls

namespace BuilderModel.Rust

open EventModel TextModel

structure EventBuilder extends Fields where
  id : Option String := none
  timestamp : Option String := none
  location : Option GeoPoint := none

namespace EventBuilder

def call (b : EventBuilder) : Call → EventBuilder
  | .id value => { b with id := some value }
  | .timestamp ts => { b with timestamp := some ts }
  | .location latitude longitude altitudeM => { b with location := some ⟨latitude, longitude, altitudeM⟩ }
  | other => { b with toFields := b.toFields.call other }

end EventBuilder

def isDigit (b : Nat) : Bool := 48 ≤ b && b ≤ 57

section Rfc3339

variable (b : List Nat)

def digit (i : Nat) : Bool := b[i]?.any isDigit

def char (i : Nat) (c : Char) : Bool := b[i]? == some c.toNat

def num (i n : Nat) : Nat := ((b.drop i).take n).foldl (fun a x => a * 10 + (x - 48)) 0

def digits (i n : Nat) : Bool := (List.range n).all fun k => digit b (i + k)

/-- Where the zone starts: after the seconds and an optional fraction of at least one digit. -/
def zoneStart : Option Nat :=
  if char b 19 '.' then
    let fraction := ((b.drop 20).takeWhile isDigit).length
    if fraction = 0 then none else some (20 + fraction)
  else some 19

def zone (i : Nat) : Bool :=
  if char b i 'Z' || char b i 'z' then i + 1 == b.length
  else if char b i '+' || char b i '-' then
    digits b (i + 1) 2 && char b (i + 3) ':' && digits b (i + 4) 2 && i + 6 == b.length &&
      num b (i + 1) 2 ≤ 23 && num b (i + 4) 2 ≤ 59
  else false

end Rfc3339

def isRfc3339 (s : String) : Bool :=
  let b := Utf8.bytes s
  if b.length < 20 then false
  else if !(digits b 0 4 && char b 4 '-' && digits b 5 2 && char b 7 '-' && digits b 8 2 &&
      (char b 10 'T' || char b 10 't') && digits b 11 2 && char b 13 ':' && digits b 14 2 &&
      char b 16 ':' && digits b 17 2) then false
  else if !((1 ≤ num b 5 2 && num b 5 2 ≤ 12) && (1 ≤ num b 8 2 && num b 8 2 ≤ 31) &&
      num b 11 2 ≤ 23 && num b 14 2 ≤ 59 && num b 17 2 ≤ 60) then false
  else match zoneStart b with
    | none => false
    | some i => zone b i

def splitn2 (text : String) : List String :=
  match text.toList.span (· ≠ ':') with
  | (all, []) => [String.ofList all]
  | (front, _ :: rest) => [String.ofList front, String.ofList rest]

def isNamespaced (entityType : String) : Bool :=
  match stripPrefix "mim:" entityType with
  | some rest => rest != "" && !rest.toList.contains ':'
  | none => match stripPrefix "x:" entityType with
    | some rest => match splitn2 rest with
      | [vendor, ty] => vendor != "" && ty != "" && !ty.toList.contains ':'
      | _ => false
    | none => false

def ninety : F64 := ⟨0x4056800000000000⟩

def minusNinety : F64 := ⟨0xc056800000000000⟩

def oneEighty : F64 := ⟨0x4066800000000000⟩

def minusOneEighty : F64 := ⟨0xc066800000000000⟩

def validLocation (loc : GeoPoint) : Bool :=
  loc.latitude.isFinite && loc.longitude.isFinite && loc.altitudeM.isFinite &&
    (minusNinety.le loc.latitude && loc.latitude.le ninety) &&
    (minusOneEighty.le loc.longitude && loc.longitude.le oneEighty)

def outsideUnit (confidence : F64) : Bool := !(F64.zero.le confidence && confidence.le .one)

def keyLess : String → String → Bool := byteLess

def EventBuilder.build (b : EventBuilder) : Except BuildError Event :=
  match b.id with
  | none => .error (.missingField "id")
  | some id => match b.timestamp with
    | none => .error (.missingField "timestamp")
    | some timestamp =>
      if !isRfc3339 timestamp then .error (.invalidTimestamp timestamp)
      else match b.location.filter fun loc => !validLocation loc with
        | some loc => .error (.invalidLocation loc.latitude loc.longitude)
        | none => b.toFields.finish isNamespaced outsideUnit keyLess id timestamp b.location

def run (sourceId entityType : String) (calls : List Call) : Except BuildError Event :=
  (calls.foldl EventBuilder.call { sourceId := sourceId, entityType := entityType }).build

end BuilderModel.Rust

namespace BuilderModel.Go

open EventModel TextModel

structure EventBuilder extends Fields where
  id : String := ""
  timestamp : String := ""
  location : Option GeoPoint := none

def EventBuilder.call (b : EventBuilder) : Call → EventBuilder
  | .id value => { b with id := value }
  | .timestamp ts => { b with timestamp := ts }
  | .location latitude longitude altitudeM => { b with location := some ⟨latitude, longitude, altitudeM⟩ }
  | other => { b with toFields := b.toFields.call other }

/-- Go's `strings.Cut` at the first colon: what stands before, what stands after, and whether there is one. -/
def cut (text : String) : String × String × Bool :=
  match text.toList.span (· ≠ ':') with
  | (_, []) => (text, "", false)
  | (front, _ :: rest) => (String.ofList front, String.ofList rest, true)

def isNamespaced (entityType : String) : Bool :=
  match stripPrefix "mim:" entityType with
  | some rest => rest != "" && !rest.toList.contains ':'
  | none => match stripPrefix "x:" entityType with
    | some rest =>
      let (vendor, ty, ok) := cut rest
      ok && vendor != "" && ty != "" && !ty.toList.contains ':'
    | none => false

def belowOrAbove (confidence : F64) : Bool := confidence.lt .zero || F64.one.lt confidence

def keyLess : String → String → Bool := byteLess

def EventBuilder.build (b : EventBuilder) : Except BuildError Event :=
  if b.id = "" then .error (.missingField "id")
  else if b.timestamp = "" then .error (.missingField "timestamp")
  else b.toFields.finish isNamespaced belowOrAbove keyLess b.id b.timestamp b.location

def run (sourceId entityType : String) (calls : List Call) : Except BuildError Event :=
  (calls.foldl EventBuilder.call { sourceId := sourceId, entityType := entityType }).build

end BuilderModel.Go

namespace BuilderModel.Python

open EventModel

structure EventBuilder extends Fields where
  id : Option String := none
  timestamp : Option String := none
  location : Option (F64 × F64 × F64) := none

def EventBuilder.call (b : EventBuilder) : Call → EventBuilder
  | .id value => { b with id := some value }
  | .timestamp ts => { b with timestamp := some ts }
  | .location latitude longitude altitudeM => { b with location := some (latitude, longitude, altitudeM) }
  | other => { b with toFields := b.toFields.call other }

def isNamespaced (entityType : String) : Bool :=
  if "mim:".toList.isPrefixOf entityType.toList then
    let rest := entityType.toList.drop 4
    !rest.isEmpty && !rest.contains ':'
  else if "x:".toList.isPrefixOf entityType.toList then
    let parts := (entityType.toList.drop 2).splitOn ':'
    parts.length == 2 && parts.all fun part => !part.isEmpty
  else false

def outsideUnit (confidence : F64) : Bool := !(F64.zero.le confidence && confidence.le .one)

def keyLess : String → String → Bool := codePointLess

def EventBuilder.build (b : EventBuilder) : Except BuildError Event :=
  -- `not self._id` holds of an unset and of an empty string alike
  if b.id.getD "" = "" then .error (.missingField "id")
  else if b.timestamp.getD "" = "" then .error (.missingField "timestamp")
  else b.toFields.finish isNamespaced outsideUnit keyLess (b.id.getD "") (b.timestamp.getD "")
    (b.location.map fun place => ⟨place.1, place.2.1, place.2.2⟩)

def run (sourceId entityType : String) (calls : List Call) : Except BuildError Event :=
  (calls.foldl EventBuilder.call { sourceId := sourceId, entityType := entityType }).build

end BuilderModel.Python

namespace BuilderModel.Cpp

open EventModel

structure EventBuilder extends Fields where
  id : String := ""
  timestamp : String := ""
  hasLocation : Bool := false
  lat : F64 := .zero
  lon : F64 := .zero
  alt : F64 := .zero

def EventBuilder.call (b : EventBuilder) : Call → EventBuilder
  | .id value => { b with id := value }
  | .timestamp ts => { b with timestamp := ts }
  | .location latitude longitude altitudeM =>
    { b with hasLocation := true, lat := latitude, lon := longitude, alt := altitudeM }
  | other => { b with toFields := b.toFields.call other }

def isNamespaced (e : String) : Bool :=
  if "mim:".toList.isPrefixOf e.toList then
    let rest := e.toList.drop 4
    !rest.isEmpty && (rest.idxOf? ':').isNone
  else if "x:".toList.isPrefixOf e.toList then
    let rest := e.toList.drop 2
    match rest.idxOf? ':' with
    | none => false
    | some colon =>
      let vendor := rest.take colon
      let ty := rest.drop (colon + 1)
      !vendor.isEmpty && !ty.isEmpty && (ty.idxOf? ':').isNone
  else false

def belowOrAbove (confidence : F64) : Bool := confidence.lt .zero || F64.one.lt confidence

def keyLess : String → String → Bool := byteLess

def EventBuilder.build (b : EventBuilder) : Except BuildError Event :=
  if b.id = "" then .error (.missingField "id")
  else if b.timestamp = "" then .error (.missingField "timestamp")
  else b.toFields.finish isNamespaced belowOrAbove keyLess b.id b.timestamp
    (if b.hasLocation then some ⟨b.lat, b.lon, b.alt⟩ else none)

def run (sourceId entityType : String) (calls : List Call) : Except BuildError Event :=
  (calls.foldl EventBuilder.call { sourceId := sourceId, entityType := entityType }).build

end BuilderModel.Cpp
