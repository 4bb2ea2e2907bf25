import AjarConnectors.Builder.Languages
import AjarConnectors.Marking.Levels

namespace Stanag4676Model

open EventModel TextModel BuilderModel

abbrev Bytes := List UInt8

/-- What the XML reader delivers. A reference is an event of its own, and so is an element without
    content. -/
inductive XmlEvent where
  | startTag (name : String) (attributes : List (String × String))
  | endTag (name : String)
  | emptyTag (name : String) (attributes : List (String × String))
  | text (content : String)
  | cdata (content : String)
  | reference (replacement : String)
  | other
  deriving DecidableEq

/-- An event with the bytes it was read from. -/
structure Token where
  event : XmlEvent
  raw : Bytes
  deriving DecidableEq

/-- What the code takes from the number and time libraries, from the ontology and from its
    surroundings; identifiers and the clock are drawn event by event. -/
structure Platform (Instant : Type) where
  parseF64 : String → Option F64
  ofInt : Int → F64
  mul : F64 → F64 → F64
  toRadians : F64 → F64
  toDegrees : F64 → F64
  cos : F64 → F64
  hypot : F64 → F64 → F64
  atan2 : F64 → F64 → F64
  remEuclid : F64 → F64 → F64
  display : F64 → String
  fixed : Nat → F64 → String
  parseTime : String → Option Instant
  addSeconds : Instant → F64 → Option Instant
  formatTime : Instant → Option String
  governs : String → String → Bool
  newId : Nat → String
  now : Nat → String

inductive S4676Error where
  | build (error : BuildError)
  deriving DecidableEq

structure S4676Parser where
  sourceId : String
  overrides : List (String × String)
  hostility : Option String

structure MessageCtx where
  baseTime : Option String := none
  relIncrement : Option F64 := none
  nitsVersion : Option String := none
  classification : Option String := none
  policyId : Option String := none

structure PointCtx where
  relTime : Option Int := none
  status : Option String := none
  cs : Option String := none
  pos : Option (List F64) := none
  vel : Option (List F64) := none

structure TrackCtx where
  uid : Option String := none
  identity : Option String := none
  environment : Option String := none
  objectClass : Option String := none
  points : List PointCtx := []
  start : Nat := 0

structure Walk where
  msg : MessageCtx := {}
  track : TrackCtx := {}
  segStatus : Option String := none
  tp : PointCtx := {}
  dynamicsCs : Option String := none

section Base64

def base64Value (c : Nat) : Option UInt8 :=
  if 65 ≤ c ∧ c ≤ 90 then some (UInt8.ofNat (c - 65))
  else if 97 ≤ c ∧ c ≤ 122 then some (UInt8.ofNat (c - 97 + 26))
  else if 48 ≤ c ∧ c ≤ 57 then some (UInt8.ofNat (c - 48 + 52))
  else if c = 43 then some 62
  else if c = 47 then some 63
  else none

def isAsciiWhitespace (c : Nat) : Bool := c == 32 || c == 9 || c == 10 || c == 12 || c == 13

/-- The loop over the characters: the bytes decoded and the symbols of an unfinished chunk. -/
def base64Loop : Bytes → Bytes → List Nat → Option (Bytes × Bytes)
  | out, chunk, [] => some (out, chunk)
  | out, chunk, c :: rest =>
    if c = 61 ∨ isAsciiWhitespace c = true then base64Loop out chunk rest
    else match base64Value c with
      | none => none
      | some v => match chunk with
        | [c0, c1, c2] =>
          base64Loop (out ++ [(c0 <<< 2) ||| (c1 >>> 4), (c1 <<< 4) ||| (c2 >>> 2), (c2 <<< 6) ||| v]) [] rest
        | chunk => base64Loop out (chunk ++ [v]) rest

def base64Decode (s : String) : Option Bytes :=
  match base64Loop [] [] (Utf8.bytes s) with
  | none => none
  | some (out, []) => some out
  | some (out, [c0, c1]) => some (out ++ [(c0 <<< 2) ||| (c1 >>> 4)])
  | some (out, [c0, c1, c2]) => some (out ++ [(c0 <<< 2) ||| (c1 >>> 4), (c1 <<< 4) ||| (c2 >>> 2)])
  | some _ => none

def hexDigit (n : Nat) : Char := if n < 10 then Char.ofNat (48 + n) else Char.ofNat (87 + n)

def hexByte (b : UInt8) : String := String.ofList [hexDigit (b.toNat / 16), hexDigit (b.toNat % 16)]

def decodeUid (text : String) : Option String :=
  match base64Decode text with
  | none => none
  | some bytes =>
    if 16 ≤ bytes.length then
      let hex (start count : Nat) := String.join (((bytes.drop start).take count).map hexByte)
      some (hex 0 4 ++ "-" ++ hex 4 2 ++ "-" ++ hex 6 2 ++ "-" ++ hex 8 2 ++ "-" ++ hex 10 6)
    else none

end Base64

/-- `str::parse::<i64>`. -/
def parseI64 (text : String) : Option Int :=
  let (negative, digits) := match text.toList with
    | '-' :: rest => (true, rest)
    | '+' :: rest => (false, rest)
    | all => (false, all)
  if digits = [] ∨ digits.any (fun c => !c.isDigit) = true then none
  else
    let size : Int := digits.foldl (fun a c => a * 10 + (c.toNat - 48)) (0 : Nat)
    let value := if negative then -size else size
    if -9223372036854775808 ≤ value ∧ value ≤ 9223372036854775807 then some value else none

section

variable {Instant : Type} (platform : Platform Instant)

def parseFloats (text : String) : Option (List F64) :=
  (splitWhitespace text.toList).mapM fun t => platform.parseF64 (String.ofList t)

/-- The slot afterwards, and whether the value was stored. -/
def preferWgs (slot : Option (List F64)) (haveCs newCs : Option String) (v : List F64) : Option (List F64) × Bool :=
  if slot.isNone || (newCs == some "WGS_84" && haveCs != some "WGS_84") then (some v, true) else (slot, false)

def Walk.routePos (w : Walk) (v : List F64) : Walk :=
  match preferWgs w.tp.pos w.tp.cs w.dynamicsCs v with
  | (pos, true) => { w with tp := { w.tp with pos := pos, cs := w.dynamicsCs } }
  | (pos, false) => { w with tp := { w.tp with pos := pos } }

def Walk.routeVel (w : Walk) (v : List F64) : Walk :=
  { w with tp := { w.tp with vel := (preferWgs w.tp.vel w.tp.cs w.dynamicsCs v).1 } }

def isLabel (parent cur : String) : Bool := parent == "ConfidentialityInformation" && cur == "Classification"

def Walk.routeText (w : Walk) (parent cur text : String) : Walk :=
  if parent = "nitsRoot" ∧ cur = "nitsVersion" then { w with msg := { w.msg with nitsVersion := some text } }
  else if parent = "message" ∧ cur = "baseTime" then { w with msg := { w.msg with baseTime := some text } }
  else if parent = "message" ∧ cur = "relTimeIncrement" then
    { w with msg := { w.msg with relIncrement := platform.parseF64 text } }
  else if isLabel parent cur then { w with msg := { w.msg with classification := some text } }
  else if parent = "ConfidentialityInformation" ∧ cur = "PolicyIdentifier" then
    { w with msg := { w.msg with policyId := some text } }
  else if parent = "track" ∧ cur = "uid" then { w with track := { w.track with uid := decodeUid text } }
  else if parent = "id1241" ∧ cur = "identity" then { w with track := { w.track with identity := some text } }
  else if parent = "id1241" ∧ cur = "environment" then { w with track := { w.track with environment := some text } }
  else if parent = "objectClass" ∧ cur = "code" then { w with track := { w.track with objectClass := some text } }
  else if parent = "segment" ∧ cur = "status" then { w with segStatus := some text }
  else if parent = "tp" ∧ cur = "relTime" then { w with tp := { w.tp with relTime := parseI64 text } }
  else if parent = "dynamics" ∧ cur = "pos" then
    match parseFloats platform text with
    | none => w
    | some v => w.routePos v
  else if parent = "dynamics" ∧ cur = "vel" then
    match parseFloats platform text with
    | none => w
    | some v => w.routeVel v
  else w

def environmentCode (raw : Option String) : String :=
  match raw.map trim with
  | none => "UNKNOWN"
  | some env =>
    if env = "AIR" then "AIR"
    else if env = "LAND" then "LAND"
    else if env = "SURFACE" then "SURFACE"
    else if env = "SUB-SURFACE" ∨ env = "SUBSURFACE" then "SUBSURFACE"
    else if env = "SPACE" then "SPACE"
    else "UNKNOWN"

def normalizeStatus (status : String) : String :=
  if status = "INITIATING" then "new"
  else if status = "MAINTAINING" then "update"
  else if status = "SEARCHING" then "coast"
  else if status = "TERMINATED" then "drop"
  else if status = "GROUND_TRUTH" then "truth"
  else "unknown"

def pointTime (base : Option String) (incr : Option F64) (rel : Option Int) : Option String :=
  base.bind fun base => (platform.parseTime base).bind fun dt =>
    (platform.addSeconds dt (platform.mul (platform.ofInt (rel.getD 0)) (incr.getD .zero))).bind platform.formatTime

def earthRadius : F64 := ⟨0x41584dae00000000⟩

def fullTurn : F64 := ⟨0x4076800000000000⟩

def velocityCalls (lat : F64) : Option (List F64) → List Call
  | some (latDps :: lonDps :: velRest) =>
    let north := platform.mul (platform.toRadians latDps) earthRadius
    let east := platform.mul (platform.mul (platform.toRadians lonDps) earthRadius) (platform.cos (platform.toRadians lat))
    let course := platform.remEuclid (platform.toDegrees (platform.atan2 east north)) fullTurn
    [.attribute "speed" (platform.fixed 2 (platform.hypot north east)),
     .attribute "course" (platform.fixed 1 course),
     .metadata "vel_lat_dps" (platform.fixed 6 latDps),
     .metadata "vel_lon_dps" (platform.fixed 6 lonDps)] ++
      (velRest.head?.map fun up => Call.attribute "vertical_rate" (platform.fixed 2 up)).toList
  | _ => []

def kinematicsCalls (p : PointCtx) : List Call :=
  if p.cs = some "WGS_84" then
    match p.pos with
    | some (lat :: lon :: posRest) => .location lat lon (posRest.head?.getD .zero) :: velocityCalls platform lat p.vel
    | _ => []
  else match p.cs with
    | none => []
    | some cs => .metadata "coordinate_system" cs ::
        (p.pos.map fun pos => Call.metadata "position_raw" (String.intercalate " " (pos.map platform.display))).toList

def governed (entity key value : String) : Call :=
  if platform.governs entity key then .attribute key value else .metadata key value

def maxAltIdLen : Nat := 128

def identityCalls (standard id : String) : List Call :=
  if id = "" ∨ maxAltIdLen < (Utf8.bytes id).length then []
  else [.attribute "alt_id" id, .attribute "alt_id_standard" standard]

variable (parser : S4676Parser)

def entityType (environment : Option String) : String :=
  ((parser.overrides.lookup (environment.getD "")).or
    (parser.overrides.lookup (environmentCode environment))).getD "mim:object"

def hostilityOf (identity : Option String) : String :=
  if identity = some "FRIEND" then "Friend"
  else if identity = some "ASSUMED_FRIEND" then "AssumedFriend"
  else if identity = some "HOSTILE" then "Hostile"
  else if identity = some "SUSPECT" then "Suspect"
  else if identity = some "NEUTRAL" then "Neutral"
  else parser.hostility.getD "Unknown"

/-- The label's part of the builder chain. -/
def labelCalls (msg : MessageCtx) : List Call :=
  (msg.policyId.map fun pid => Call.metadata "nits_policy_identifier" pid).toList ++
    match msg.classification with
    | none => []
    | some cls => .metadata "nits_classification" cls ::
        (MarkingModel.wireClassification cls msg.policyId).map .policyTag

def environmentCalls (entity : String) (environment : Option String) : List Call :=
  let code := environmentCode environment
  governed platform entity "environment" code ::
    match environment with
    | none => []
    | some wire => if code = "UNKNOWN" ∧ wire ≠ "UNKNOWN" then [.metadata "environment_source" wire] else []

def uidCalls : Option String → List Call
  | none => []
  | some uid => .metadata "source_uid" uid :: identityCalls "STANAG4676" uid

def statusCalls (entity : String) : Option String → List Call
  | none => []
  | some st => [governed platform entity "track_status" (normalizeStatus st), .metadata "s4676_status" st]

/-- The builder chain of one point, which becomes the event with number `index`. -/
def pointCalls (track : TrackCtx) (raw : Bytes) (msg : MessageCtx) (index : Nat) (p : PointCtx) : List Call :=
  let entity := entityType parser track.environment
  [.id (platform.newId index), .payload raw, .attribute "hostility" (hostilityOf parser track.identity),
   .timestamp ((pointTime platform msg.baseTime msg.relIncrement p.relTime).getD (platform.now index))] ++
  uidCalls track.uid ++
  labelCalls msg ++
  (msg.nitsVersion.map fun v => Call.metadata "nits_version" v).toList ++
  (track.identity.map fun id => Call.metadata "identity" id).toList ++
  environmentCalls platform entity track.environment ++
  (track.objectClass.map fun oc => governed platform entity "object_class" oc).toList ++
  statusCalls platform entity p.status ++
  (p.relTime.map fun rt => Call.metadata "rel_time" (toString rt)).toList ++
  kinematicsCalls platform p

def buildPoint (track : TrackCtx) (raw : Bytes) (msg : MessageCtx) (index : Nat) (p : PointCtx) :
    Except S4676Error Event :=
  (Rust.run parser.sourceId (entityType parser track.environment)
    (pointCalls platform parser track raw msg index p)).mapError .build

def flushTrack (track : TrackCtx) (raw : Bytes) (msg : MessageCtx) : List PointCtx → List Event →
    Except S4676Error (List Event)
  | [], out => .ok out
  | p :: points, out => match buildPoint platform parser track raw msg out.length p with
    | .error e => .error e
    | .ok event => flushTrack track raw msg points (out ++ [event])

end

def localName (qname : String) : String :=
  match qname.toList.dropWhile (· ≠ ':') with
  | [] => qname
  | _ :: rest => String.ofList rest

/-- The variables of `to_events`; the innermost open element stands first. -/
structure Progress where
  position : Nat := 0
  stack : List String := []
  walk : Walk := {}
  events : List Event := []

namespace Progress

variable {Instant : Type} (platform : Platform Instant) (parser : S4676Parser) (native : Bytes)

def onStart (s : Progress) (before : Nat) (name : String) (attributes : List (String × String)) : Progress :=
  let ln := localName name
  let walk :=
    if ln = "track" then { s.walk with track := { start := before } }
    else if ln = "dynamics" then
      { s.walk with dynamicsCs := attributes.findSome? fun a => if localName a.1 = "cs" then some a.2 else none }
    else s.walk
  { s with walk := walk, stack := ln :: s.stack }

def trackBytes (start stop : Nat) : Bytes :=
  if start ≤ stop ∧ stop ≤ native.length then (native.drop start).take (stop - start) else native

def onEnd (s : Progress) (name : String) : Except S4676Error Progress :=
  let ln := localName name
  let popped := { s with stack := s.stack.tail }
  if ln = "tp" then
    .ok { popped with walk := { s.walk with
      track := { s.walk.track with points := s.walk.track.points ++ [{ s.walk.tp with status := s.walk.segStatus }] }
      tp := {} } }
  else if ln = "dynamics" then .ok { popped with walk := { s.walk with dynamicsCs := none } }
  else if ln = "segment" then .ok { popped with walk := { s.walk with segStatus := none } }
  else if ln = "track" then
    match flushTrack platform parser s.walk.track (trackBytes native s.walk.track.start s.position) s.walk.msg
        s.walk.track.points s.events with
    | .error e => .error e
    | .ok events => .ok { popped with walk := { s.walk with track := {} }, events := events }
  else .ok popped

def onText (s : Progress) (content : String) : Progress :=
  let text := trim content
  if text = "" then s
  else { s with walk := s.walk.routeText platform (s.stack.tail.head?.getD "") (s.stack.head?.getD "") text }

def step (s : Progress) (token : Token) : Except S4676Error Progress :=
  let read := { s with position := s.position + token.raw.length }
  match token.event with
  | .startTag name attributes => .ok (read.onStart s.position name attributes)
  | .endTag name => read.onEnd platform parser native name
  | .text content => .ok (read.onText platform content)
  | .emptyTag _ _ | .cdata _ | .reference _ | .other => .ok read

/-- The loop over what the reader delivers. -/
def run (s : Progress) : List Token → Except S4676Error Progress
  | [] => .ok s
  | token :: tokens => match s.step platform parser native token with
    | .error e => .error e
    | .ok s => run s tokens

end Progress

def toEvents {Instant : Type} (platform : Platform Instant) (parser : S4676Parser) (tokens : List Token) :
    Except S4676Error (List Event) :=
  (Progress.run platform parser (tokens.flatMap Token.raw) {} tokens).map (·.events)

end Stanag4676Model
