import AjarConnectors.Cot.Parser
import AjarConnectors.Cot.Render
import AjarConnectors.Utf8.RoundTrip

namespace CotModel

open EventModel BuilderModel

/-- One piece of a document in which every attribute value stands in double quotes. -/
inductive Markup where
  | declaration (attributes : List (String × String))
  | start (name : String) (attributes : List (String × String))
  | empty (name : String) (attributes : List (String × String))
  | close (name : String)

def quoted (attributes : List (String × String)) : String :=
  attributes.foldr (fun a later => " " ++ a.1 ++ "=\"" ++ a.2 ++ "\"" ++ later) ""

namespace Markup

def write : Markup → String
  | declaration attributes => "<?xml" ++ quoted attributes ++ "?>"
  | start name attributes => "<" ++ name ++ quoted attributes ++ ">"
  | empty name attributes => "<" ++ name ++ quoted attributes ++ "/>"
  | close name => "</" ++ name ++ ">"

/-- What a reader that hands attribute values over raw makes of it. -/
def event : Markup → XmlEvent
  | declaration _ => .other
  | start name attributes => .start name attributes
  | empty name attributes => .empty name attributes
  | close _ => .other

end Markup

def writeAll (document : List Markup) : String := document.foldr (fun piece later => piece.write ++ later) ""

/-- The reader hands over a document piece by piece, attribute values as they stand between the quotes. -/
def ReadsRaw (reader : Bytes → Reading) (document : List Markup) : Prop :=
  reader (Utf8.encodeText (writeAll document).toList) = { events := document.map Markup.event }

def cotTypeOf (event : Event) : String := "a-" ++ affiliation event ++ "-" ++ dimension event

/-- The document that stands for an event at a place. -/
def documentOf (floats : Floats) (event : Event) (loc : GeoPoint) : List Markup :=
  [.declaration [("version", "1.0"), ("encoding", "UTF-8")],
    .start "event" [("version", "2.0"), ("uid", escape (uidOf event)), ("type", cotTypeOf event),
      ("time", escape event.timestamp), ("start", escape event.timestamp), ("stale", escape (staleOf event)), ("how", "m-g")],
    .empty "point" [("lat", floats.display loc.latitude), ("lon", floats.display loc.longitude),
      ("hae", floats.display loc.altitudeM), ("ce", "9999999"), ("le", "9999999")],
    .start "detail" [], .empty "contact" [("callsign", escape (callsignOf event))], .close "detail", .close "event"]

/-- No character of the text is one that `escape` replaces. -/
def Plain (text : String) : Prop := ∀ c ∈ text.toList, c ≠ '&' ∧ c ≠ '<' ∧ c ≠ '>' ∧ c ≠ '"' ∧ c ≠ Char.ofNat 39

instance (text : String) : Decidable (Plain text) := List.decidableBAll _ _

/-- The event read back is the event written, as far as CoT tells. -/
structure ReadBack (event read : Event) : Prop where
  uid : ⟨"source_uid", uidOf event⟩ ∈ read.metadata
  callsign : ⟨"callsign", callsignOf event⟩ ∈ read.attributes
  hostility : ⟨"hostility", (attributeOf event "hostility").getD "Unknown"⟩ ∈ read.attributes
  entityType : read.entityType = event.entityType
  timestamp : read.timestamp = event.timestamp
  location : read.location = event.location

def hostilities : List String :=
  ["Friend", "AssumedFriend", "Hostile", "Suspect", "Neutral", "Pending", "Joker", "Faker", "Unknown"]

def entityTypes : List String := ["mim:aircraft", "mim:vessel", "mim:subsurface-vessel"]

end CotModel

namespace CotProof

open CotModel EventModel BuilderModel BuilderProof

theorem render_writes (floats : Floats) (event : Event) (loc : GeoPoint) (located : event.location = some loc) :
    render floats event = some (writeAll (documentOf floats event loc)) := by
  rw [render, located]
  apply congrArg some
  simp only [writeAll, documentOf, List.foldr_cons, List.foldr_nil, Markup.write, quoted, cotTypeOf]
  generalize escape (uidOf event) = uid, escape event.timestamp = time, escape (staleOf event) = stale,
    escape (callsignOf event) = callsign, affiliation event = aff, dimension event = dim,
    floats.display loc.latitude = lat, floats.display loc.longitude = lon, floats.display loc.altitudeM = hae
  -- Each literal of the format is the pieces the document puts between the same two values.
  have literals :
      "<?xml version=\"1.0\" encoding=\"UTF-8\"?>" = "<?xml" ++ " " ++ "version" ++ "=\"" ++ "1.0" ++ "\"" ++ " " ++ "encoding" ++ "=\"" ++ "UTF-8" ++ "\"" ++ "" ++ "?>" ∧
      "<event version=\"2.0\" uid=\"" = "<" ++ "event" ++ " " ++ "version" ++ "=\"" ++ "2.0" ++ "\"" ++ " " ++ "uid" ++ "=\"" ∧
      "\" type=\"a-" = "\"" ++ " " ++ "type" ++ "=\"" ++ "a-" ∧
      "\" time=\"" = "\"" ++ " " ++ "time" ++ "=\"" ∧
      "\" start=\"" = "\"" ++ " " ++ "start" ++ "=\"" ∧
      "\" stale=\"" = "\"" ++ " " ++ "stale" ++ "=\"" ∧
      "\" how=\"m-g\">" = "\"" ++ " " ++ "how" ++ "=\"" ++ "m-g" ++ "\"" ++ "" ++ ">" ∧
      "<point lat=\"" = "<" ++ "point" ++ " " ++ "lat" ++ "=\"" ∧
      "\" lon=\"" = "\"" ++ " " ++ "lon" ++ "=\"" ∧
      "\" hae=\"" = "\"" ++ " " ++ "hae" ++ "=\"" ∧
      "\" ce=\"9999999\" le=\"9999999\"/>" = "\"" ++ " " ++ "ce" ++ "=\"" ++ "9999999" ++ "\"" ++ " " ++ "le" ++ "=\"" ++ "9999999" ++ "\"" ++ "" ++ "/>" ∧
      "<detail><contact callsign=\"" = "<" ++ "detail" ++ "" ++ ">" ++ "<" ++ "contact" ++ " " ++ "callsign" ++ "=\"" ∧
      "\"/></detail>" = "\"" ++ "" ++ "/>" ++ "</" ++ "detail" ++ ">" ∧
      "</event>" = "</" ++ "event" ++ ">" ++ "" := by decide
  rcases literals with ⟨l0, l1, l2, l3, l4, l5, l6, l7, l8, l9, l10, l11, l12, l13⟩
  rw [l0, l1, l2, l3, l4, l5, l6, l7, l8, l9, l10, l11, l12, l13]
  simp only [String.append_assoc]

theorem escapeChar_length (c : Char) : 1 ≤ (escapeChar c).length := by
  unfold escapeChar
  repeat' split
  all_goals simp

theorem flatMap_escapeChar_length (text : List Char) : text.length ≤ (text.flatMap escapeChar).length := by
  induction text with
  | nil => exact Nat.le_refl 0
  | cons c text ih =>
    have one := escapeChar_length c
    rw [List.flatMap_cons, List.length_append, List.length_cons]
    omega

/-- A character that is replaced makes the text longer. -/
theorem flatMap_escapeChar_eq_iff (text : List Char) : text.flatMap escapeChar = text ↔ ∀ c ∈ text, escapeChar c = [c] := by
  induction text with
  | nil => simp
  | cons c text ih =>
    rw [List.flatMap_cons, List.forall_mem_cons]
    constructor
    · intro same
      have long := flatMap_escapeChar_length text
      have size := congrArg List.length same
      rw [List.length_append, List.length_cons] at size
      have one : (escapeChar c).length = 1 := by
        have least := escapeChar_length c
        omega
      obtain ⟨d, single⟩ := List.length_eq_one_iff.mp one
      rw [single, List.singleton_append, List.cons.injEq] at same
      rw [single, same.1]
      exact ⟨rfl, ih.mp same.2⟩
    · rintro ⟨first, later⟩
      rw [first, ih.mpr later]
      rfl

theorem escapeChar_eq_iff (c : Char) :
    escapeChar c = [c] ↔ c ≠ '&' ∧ c ≠ '<' ∧ c ≠ '>' ∧ c ≠ '"' ∧ c ≠ Char.ofNat 39 := by
  unfold escapeChar
  split_ifs <;> simp_all

theorem escape_eq_iff (text : String) : escape text = text ↔ Plain text := by
  have same : escape text = text ↔ text.toList.flatMap escapeChar = text.toList := by
    rw [escape, ← String.toList_inj, String.toList_ofList]
  rw [same, flatMap_escapeChar_eq_iff, Plain]
  apply forall₂_congr
  intro c _
  exact escapeChar_eq_iff c

/-- The bytes an RFC 3339 timestamp is made of. -/
def timeByte (b : Nat) : Bool := Rust.isDigit b || b == 45 || b == 58 || b == 46 || b == 43 || b == 84 || b == 116 || b == 90 || b == 122

theorem digit_timeByte {b : List Nat} {i x : Nat} (digit : Rust.digit b i = true) (found : b[i]? = some x) :
    timeByte x = true := by
  rw [Rust.digit, found] at digit
  simp only [Option.any_some] at digit
  simp [timeByte, digit]

theorem char_timeByte {b : List Nat} {i x : Nat} {c : Char} (char : Rust.char b i c = true) (found : b[i]? = some x)
    (inside : timeByte c.toNat = true) : timeByte x = true := by
  rw [Rust.char, found] at char
  have same : x = c.toNat := by simpa using char
  rwa [same]

theorem digits_timeByte {b : List Nat} {i n j x : Nat} (digits : Rust.digits b i n = true) (low : i ≤ j) (high : j < i + n)
    (found : b[j]? = some x) : timeByte x = true := by
  rw [Rust.digits, List.all_eq_true] at digits
  have digit := digits (j - i) (List.mem_range.mpr (by omega))
  rw [show i + (j - i) = j by omega] at digit
  exact digit_timeByte digit found

/-- From the zone on, too. -/
theorem zone_timeByte {b : List Nat} {i j x : Nat} (zone : Rust.zone b i = true) (low : i ≤ j) (found : b[j]? = some x) :
    timeByte x = true := by
  have inside : j < b.length := (List.getElem?_eq_some_iff.mp found).1
  unfold Rust.zone at zone
  split at zone
  · rename_i zulu
    have last : j = i := by
      have ends : i + 1 = b.length := by simpa using zone
      omega
    subst last
    rcases Bool.or_eq_true_iff.mp zulu with upper | lower
    · exact char_timeByte upper found (by decide)
    · exact char_timeByte lower found (by decide)
  · split at zone
    · rename_i signed
      simp only [Bool.and_eq_true, beq_iff_eq] at zone
      obtain ⟨⟨⟨⟨⟨hours, colon⟩, minutes⟩, ends⟩, _⟩, _⟩ := zone
      rcases (by omega : j = i ∨ (i + 1 ≤ j ∧ j < i + 1 + 2) ∨ j = i + 3 ∨ (i + 4 ≤ j ∧ j < i + 4 + 2)) with
        rfl | ⟨after, before⟩ | rfl | ⟨after, before⟩
      · rcases Bool.or_eq_true_iff.mp signed with plus | minus
        · exact char_timeByte plus found (by decide)
        · exact char_timeByte minus found (by decide)
      · exact digits_timeByte hours after before found
      · exact char_timeByte colon found (by decide)
      · exact digits_timeByte minutes after before found
    · cases zone

theorem fraction_timeByte {b : List Nat} {j x : Nat} (low : 20 ≤ j)
    (high : j < 20 + ((b.drop 20).takeWhile Rust.isDigit).length) (found : b[j]? = some x) : timeByte x = true := by
  obtain ⟨k, rfl⟩ : ∃ k, j = 20 + k := ⟨j - 20, by omega⟩
  have inside : k < ((b.drop 20).takeWhile Rust.isDigit).length := by omega
  have whole : ((b.drop 20).takeWhile Rust.isDigit)[k]? = some x := by
    have later : (b.drop 20)[k]? = some x := by rw [List.getElem?_drop, found]
    rwa [← List.takeWhile_append_dropWhile (p := Rust.isDigit) (l := b.drop 20), List.getElem?_append_left inside] at later
  have digit := List.mem_takeWhile_imp (List.mem_of_getElem? whole)
  simp [timeByte, digit]

theorem zoneStart_timeByte {b : List Nat} {i j x : Nat} (start : Rust.zoneStart b = some i) (low : 19 ≤ j) (high : j < i)
    (found : b[j]? = some x) : timeByte x = true := by
  unfold Rust.zoneStart at start
  split at start
  · rename_i dot
    dsimp only at start
    split at start
    · cases start
    · cases start
      rcases (by omega : j = 19 ∨ 20 ≤ j) with rfl | later
      · exact char_timeByte dot found (by decide)
      · exact fraction_timeByte later high found
  · cases start
    omega

theorem rfc3339_timeByte {s : String} (dated : Rust.isRfc3339 s = true) : ∀ x ∈ Utf8.bytes s, timeByte x = true := by
  unfold Rust.isRfc3339 at dated
  generalize Utf8.bytes s = b at dated
  dsimp only at dated
  split at dated
  · cases dated
  · split at dated
    · cases dated
    · rename_i fields
      split at dated
      · cases dated
      · simp only [Bool.not_eq_true', Bool.not_eq_false, Bool.and_eq_true] at fields
        obtain ⟨⟨⟨⟨⟨⟨⟨⟨⟨⟨year, dash⟩, month⟩, dash'⟩, day⟩, tee⟩, hour⟩, colon⟩, minute⟩, colon'⟩, second⟩ := fields
        intro x member
        obtain ⟨j, found⟩ := List.mem_iff_getElem?.mp member
        rcases (by omega : j < 19 ∨ 19 ≤ j) with early | late
        · rcases (by omega : (0 ≤ j ∧ j < 0 + 4) ∨ j = 4 ∨ (5 ≤ j ∧ j < 5 + 2) ∨ j = 7 ∨ (8 ≤ j ∧ j < 8 + 2) ∨ j = 10 ∨
              (11 ≤ j ∧ j < 11 + 2) ∨ j = 13 ∨ (14 ≤ j ∧ j < 14 + 2) ∨ j = 16 ∨ (17 ≤ j ∧ j < 17 + 2)) with
            ⟨l, h⟩ | rfl | ⟨l, h⟩ | rfl | ⟨l, h⟩ | rfl | ⟨l, h⟩ | rfl | ⟨l, h⟩ | rfl | ⟨l, h⟩
          · exact digits_timeByte year l h found
          · exact char_timeByte dash found (by decide)
          · exact digits_timeByte month l h found
          · exact char_timeByte dash' found (by decide)
          · exact digits_timeByte day l h found
          · rcases Bool.or_eq_true_iff.mp tee with upper | lower
            · exact char_timeByte upper found (by decide)
            · exact char_timeByte lower found (by decide)
          · exact digits_timeByte hour l h found
          · exact char_timeByte colon found (by decide)
          · exact digits_timeByte minute l h found
          · exact char_timeByte colon' found (by decide)
          · exact digits_timeByte second l h found
        · cases start : Rust.zoneStart b with
          | none =>
            rw [start] at dated
            cases dated
          | some i =>
            rw [start] at dated
            dsimp only at dated
            rcases (by omega : i ≤ j ∨ j < i) with after | before
            · exact zone_timeByte dated after found
            · exact zoneStart_timeByte start late before found

/-- A timestamp the builder accepts has nothing to escape. -/
theorem plain_of_rfc3339 {s : String} (dated : Rust.isRfc3339 s = true) : Plain s := by
  intro c member
  have outside : ∀ special : Char, special.toNat < 0x80 → timeByte special.toNat = false → c ≠ special := by
    rintro special small other rfl
    have listed : c.toNat ∈ Utf8.bytes s := by
      rw [Utf8.bytes, List.mem_flatMap]
      exact ⟨c, member, by rw [Utf8.encode_one small]; exact List.mem_singleton_self _⟩
    rw [rfc3339_timeByte dated _ listed] at other
    cases other
  exact ⟨outside _ (by decide) (by decide), outside _ (by decide) (by decide), outside _ (by decide) (by decide),
    outside _ (by decide) (by decide), outside _ (by decide) (by decide)⟩

section

variable {event : Event} (known : ∀ value ∈ attributeOf event "hostility", value ∈ hostilities)
  (placeless : attributeOf event "environment" = none) (typed : event.entityType ∈ entityTypes)
include known placeless typed

/-- The two code tables agree. -/
theorem cotTypeOf_read :
    hostility (cotTypeOf event) = (attributeOf event "hostility").getD "Unknown" ∧
      ∀ p : CotParser, p.overrides (cotTypeOf event) = none → p.mapType (cotTypeOf event) = event.entityType := by
  rw [cotTypeOf, affiliation, dimension, placeless]
  have given : attributeOf event "hostility" ∈ none :: hostilities.map some := by
    cases found : attributeOf event "hostility" with
    | none => exact List.mem_cons_self
    | some value => exact List.mem_cons_of_mem _ (List.mem_map_of_mem (known value (by rw [found]; rfl)))
  generalize attributeOf event "hostility" = side at given
  generalize event.entityType = kind at typed
  have table : ∀ side ∈ none :: hostilities.map some, ∀ kind ∈ entityTypes,
      let cotType := "a-" ++ affiliationOf side ++ "-" ++ dimensionOf none kind
      hostility cotType = side.getD "Unknown" ∧
        CotParser.mapType ⟨"", fun _ => none⟩ cotType = kind := by decide
  have row := table side given kind typed
  refine ⟨row.1, ?_⟩
  intro p free
  rw [CotParser.mapType, free]
  exact row.2

end

section

variable (floats : Floats) (event : Event) (loc : GeoPoint)

/-- What the reading loop has found when the document is over. -/
def foundOf : Found :=
  { uid := some (escape (uidOf event)), cotType := some (cotTypeOf event), time := some (escape event.timestamp),
    lat := some loc.latitude, lon := some loc.longitude, haeM := loc.altitudeM,
    callsign := some (escape (callsignOf event)), sawEvent := true }

theorem document_found
    (exact : ∀ x ∈ [loc.latitude, loc.longitude, loc.altitudeM], floats.parse (floats.display x) = some x) :
    ((documentOf floats event loc).map Markup.event).foldlM (Found.step floats) {} = .ok (foundOf event loc) := by
  have lat := exact loc.latitude (by simp)
  have lon := exact loc.longitude (by simp)
  have hae := exact loc.altitudeM (by simp)
  have point (f : Found) : f.tag floats "point" [("lat", floats.display loc.latitude), ("lon", floats.display loc.longitude),
      ("hae", floats.display loc.altitudeM), ("ce", "9999999"), ("le", "9999999")] =
      .ok { f with lat := some loc.latitude, lon := some loc.longitude, haeM := loc.altitudeM } := by
    simp only [Found.tag, List.foldlM_cons, List.foldlM_nil, Found.pointAttribute, lat, lon, hae]
    rfl
  simp only [documentOf, List.map_cons, List.map_nil, Markup.event, List.foldlM_cons, List.foldlM_nil, Found.step, point]
  rfl

/-- What the builder is then told. -/
def callsOf (newId : String) (native : Bytes) : List Call :=
  [.id newId, .payload native, .timestamp (escape event.timestamp), .metadata "source_uid" (escape (uidOf event))] ++
    identity "CoT" (escape (uidOf event)) ++ [.attribute "hostility" (hostility (cotTypeOf event))] ++
    [.attribute "callsign" (escape (callsignOf event))] ++ [.location loc.latitude loc.longitude loc.altitudeM]

theorem toEvent_document (reader : Bytes → Reading) (p : CotParser) (newId : String) (native : Bytes)
    (exact : ∀ x ∈ [loc.latitude, loc.longitude, loc.altitudeM], floats.parse (floats.display x) = some x)
    (read : reader native = { events := (documentOf floats event loc).map Markup.event }) :
    p.toEvent floats reader newId native =
      (Rust.run p.sourceId (p.mapType (cotTypeOf event)) (callsOf event loc newId native)).mapError .build := by
  have same : CotParser.calls floats newId native (foundOf event loc) (escape (uidOf event))
      (cotTypeOf event) (escape event.timestamp) = callsOf event loc newId native := by
    simp only [CotParser.calls, foundOf, callsOf, ifGiven, Option.map_some, Option.getD_some, Option.filter_none,
      Option.map_none, Option.getD_none, List.append_nil]
  rw [← same, CotParser.toEvent, read]
  dsimp only
  rw [document_found floats event loc exact]
  simp only [foundOf, Bool.not_true, Bool.false_eq_true, if_false]
  generalize Rust.run _ _ _ = built
  cases built <;> rfl

def outlineOf (newId : String) (native : Bytes) : Outline where
  attributes := ["alt_id", "alt_id_standard", "hostility", "callsign"]
  metadata := ["source_uid"]
  ids := [newId]
  times := [escape event.timestamp]
  places := [loc]
  payloads := [native]

theorem callsOf_fits (newId : String) (native : Bytes) :
    Fits (outlineOf event loc newId native) (callsOf event loc newId native) := by
  have start : Fits ⟨[], ["source_uid"], [newId], [escape event.timestamp], [], [native]⟩
      [.id newId, .payload native, .timestamp (escape event.timestamp), .metadata "source_uid" (escape (uidOf event))] := by
    constructor <;> first | exact List.Sublist.refl _ | exact List.nil_sublist _ | rfl
  have fits := (((start.append (Fits.identity "CoT" (escape (uidOf event)))).append
    (Fits.attr "hostility" (hostility (cotTypeOf event)))).append
    (Fits.attr "callsign" (escape (callsignOf event)))).append
    (Fits.location loc.latitude loc.longitude loc.altitudeM)
  exact fits.of_eq (by simp [Outline.append, outlineOf])

theorem callsOf_uid (newId : String) (native : Bytes) (uid : String) :
    .metadata "source_uid" uid ∈ callsOf event loc newId native ↔ uid = escape (uidOf event) := by
  simp only [callsOf, List.mem_append, List.mem_cons, identity_metadata, List.not_mem_nil, reduceCtorEq, or_false, false_or,
    Call.metadata.injEq, true_and]

theorem callsOf_attribute {newId : String} {native : Bytes} {key value : String} (other : key ≠ "alt_id" ∧ key ≠ "alt_id_standard") :
    .attribute key value ∈ callsOf event loc newId native ↔
      (key = "hostility" ∧ value = hostility (cotTypeOf event)) ∨ (key = "callsign" ∧ value = escape (callsignOf event)) := by
  have apart : .attribute key value ∉ identity "CoT" (escape (uidOf event)) := by
    unfold BuilderModel.identity
    split <;> simp [other]
  simp only [callsOf, List.mem_append, List.mem_cons, apart, List.not_mem_nil, reduceCtorEq, or_false, false_or,
    Call.attribute.injEq]

end

section

variable {floats : Floats} {reader : Bytes → Reading} {p : CotParser} {newId : String} {event : Event} {loc : GeoPoint}
  {native : Bytes}
  (exact : ∀ x ∈ [loc.latitude, loc.longitude, loc.altitudeM], floats.parse (floats.display x) = some x)
  (raw : reader native = { events := (documentOf floats event loc).map Markup.event })
include exact raw

theorem read_back_needs {read : Event} (found : p.toEvent floats reader newId native = .ok read) (back : ReadBack event read) :
    Plain (uidOf event) ∧ Plain (callsignOf event) ∧ Rust.validLocation loc = true ∧ p.sourceId ≠ "" ∧
      ∀ mapped ∈ p.overrides (cotTypeOf event), mapped = event.entityType := by
  rw [toEvent_document floats event loc reader p newId native exact raw] at found
  cases built : Rust.run p.sourceId (p.mapType (cotTypeOf event)) (callsOf event loc newId native) with
  | error e =>
    rw [built] at found
    cases found
  | ok made =>
    rw [built] at found
    cases found
    obtain ⟨⟨id, ts, shape⟩, valid, place⟩ := run_ok built
    have records := eventOf_records p.sourceId (p.mapType (cotTypeOf event)) (callsOf event loc newId native) id ts
      (lastGiven Call.location? (callsOf event loc newId native))
    rw [← shape] at records
    have uid := (callsOf_uid event loc newId native _).mp ((records.metadata _ _).mp back.uid)
    have callsign : callsignOf event = escape (callsignOf event) := by
      simpa using (callsOf_attribute event loc (by decide)).mp ((records.attributes _ _).mp back.callsign)
    have type : p.mapType (cotTypeOf event) = event.entityType := by
      rw [← back.entityType, shape, eventOf_entityType]
    refine ⟨(escape_eq_iff _).mp uid.symm, (escape_eq_iff _).mp callsign.symm, ?_, valid.source, ?_⟩
    · apply place
      rw [lastGiven_getLast, (callsOf_fits event loc newId native).places]
      rfl
    · intro mapped chosen
      rwa [CotParser.mapType, chosen] at type

theorem read_back_suffices (located : event.location = some loc)
    (known : ∀ value ∈ attributeOf event "hostility", value ∈ hostilities)
    (placeless : attributeOf event "environment" = none) (typed : event.entityType ∈ entityTypes)
    (dated : Rust.isRfc3339 event.timestamp = true) (uid : Plain (uidOf event)) (callsign : Plain (callsignOf event))
    (placed : Rust.validLocation loc = true) (source : p.sourceId ≠ "")
    (override : ∀ mapped ∈ p.overrides (cotTypeOf event), mapped = event.entityType) :
    ∃ read, p.toEvent floats reader newId native = .ok read ∧ ReadBack event read := by
  rcases cotTypeOf_read known placeless typed with ⟨side, kind⟩
  have time : escape event.timestamp = event.timestamp := (escape_eq_iff _).mpr (plain_of_rfc3339 dated)
  have type : p.mapType (cotTypeOf event) = event.entityType := by
    cases chosen : p.overrides (cotTypeOf event) with
    | none => exact kind p chosen
    | some mapped => rw [CotParser.mapType, chosen, override mapped (by rw [chosen]; rfl)]
  have named : ∀ entity ∈ entityTypes, Rust.isNamespaced entity = true := by decide
  have entity : Rust.isNamespaced (p.mapType (cotTypeOf event)) = true := by rw [type]; exact named _ typed
  have built := (callsOf_fits event loc newId native).build source entity
    (show ["alt_id", "alt_id_standard", "hostility", "callsign"].Nodup by decide)
    (show 4 ≤ maxAttributes by decide) (List.nodup_singleton _) (show 1 ≤ maxMetadata by decide) rfl rfl
    (by rw [time]; exact dated) (by
      intro place member
      rw [List.mem_singleton.mp member]
      exact placed)
  rw [toEvent_document floats event loc reader p newId native exact raw, built]
  refine ⟨_, rfl, ?_⟩
  have records := eventOf_records p.sourceId (p.mapType (cotTypeOf event)) (callsOf event loc newId native) newId
    (escape event.timestamp) [loc].getLast?
  constructor
  · exact (records.metadata _ _).mpr ((callsOf_uid event loc newId native _).mpr ((escape_eq_iff _).mpr uid).symm)
  · exact (records.attributes _ _).mpr ((callsOf_attribute event loc (by decide)).mpr
      (Or.inr ⟨rfl, ((escape_eq_iff _).mpr callsign).symm⟩))
  · exact (records.attributes _ _).mpr ((callsOf_attribute event loc (by decide)).mpr (Or.inl ⟨rfl, side.symm⟩))
  · rw [eventOf_entityType, type]
  · exact time
  · exact located.symm

end

/-- CoT that the sink writes is read back exactly when there was nothing to escape, the place is one the
    builder accepts, and the reading connector has a source id and leaves the type alone. -/
theorem cot_is_read_back_iff (floats : Floats) (reader : Bytes → Reading) (p : CotParser) (newId : String) (event : Event)
    (loc : GeoPoint) (located : event.location = some loc)
    (known : ∀ value ∈ attributeOf event "hostility", value ∈ hostilities)
    (placeless : attributeOf event "environment" = none) (typed : event.entityType ∈ entityTypes)
    (dated : Rust.isRfc3339 event.timestamp = true)
    (exact : ∀ x ∈ [loc.latitude, loc.longitude, loc.altitudeM], floats.parse (floats.display x) = some x)
    (raw : ReadsRaw reader (documentOf floats event loc)) :
    ∃ xml, render floats event = some xml ∧
      ((∃ read, p.toEvent floats reader newId (Utf8.encodeText xml.toList) = .ok read ∧ ReadBack event read) ↔
        Plain (uidOf event) ∧ Plain (callsignOf event) ∧ Rust.validLocation loc = true ∧ p.sourceId ≠ "" ∧
          ∀ mapped ∈ p.overrides (cotTypeOf event), mapped = event.entityType) := by
  refine ⟨_, render_writes floats event loc located, ?_⟩
  rw [ReadsRaw] at raw
  generalize Utf8.encodeText (writeAll (documentOf floats event loc)).toList = native at raw
  constructor
  · rintro ⟨read, found, back⟩
    exact read_back_needs exact raw found back
  · rintro ⟨uid, callsign, placed, source, override⟩
    exact read_back_suffices exact raw located known placeless typed dated uid callsign placed source override

/-- Floats that print and parse the numbers of the events below. -/
def gulfFloats : Floats :=
  { Floats.idle with
    parse := fun text => match text with
      | "25.27" => some ⟨0x4039451eb851eb85⟩
      | "51.52" => some ⟨0x4049c28f5c28f5c3⟩
      | "10600" => some ⟨0x40c4b40000000000⟩
      | _ => none
    display := fun x =>
      if x.bits = 0x4039451eb851eb85 then "25.27" else if x.bits = 0x4049c28f5c28f5c3 then "51.52" else "10600" }

def gulf : GeoPoint := ⟨⟨0x4039451eb851eb85⟩, ⟨0x4049c28f5c28f5c3⟩, ⟨0x40c4b40000000000⟩⟩

/-- A friendly aircraft with the given callsign. -/
def flight (callsign : String) : Event :=
  { Event.default with
    id := "01890a5d-ac96-774b-bcce-b302099a8057", sourceId := "demo-radar", entityType := "mim:aircraft",
    timestamp := "2026-06-10T08:00:00Z", location := some gulf
    attributes := [⟨"callsign", callsign⟩, ⟨"hostility", "Friend"⟩], metadata := [⟨"source_uid", "4CA2D6"⟩] }

/-- A reader of one document. -/
def readerOf (document : List Markup) (native : Bytes) : Reading :=
  if native = Utf8.encodeText (writeAll document).toList then { events := document.map Markup.event }
  else { events := [], failure := some "not this document" }

theorem readerOf_raw (document : List Markup) : ReadsRaw (readerOf document) document := by
  rw [ReadsRaw, readerOf, if_pos rfl]

def tak : CotParser := ⟨"tak-field-1", fun _ => none⟩

theorem gulf_exact : ∀ x ∈ [gulf.latitude, gulf.longitude, gulf.altitudeM],
    gulfFloats.parse (gulfFloats.display x) = some x := by decide

theorem plain_flight_is_read_back :
    ∃ xml, render gulfFloats (flight "AJX-01") = some xml ∧
      ∃ read, tak.toEvent gulfFloats (readerOf (documentOf gulfFloats (flight "AJX-01") gulf)) "new"
        (Utf8.encodeText xml.toList) = .ok read ∧ ReadBack (flight "AJX-01") read := by
  obtain ⟨xml, written, back⟩ := cot_is_read_back_iff gulfFloats
    (readerOf (documentOf gulfFloats (flight "AJX-01") gulf)) tak "new" (flight "AJX-01") gulf rfl (by decide)
    (by decide) (by decide) (by decide) gulf_exact (readerOf_raw _)
  exact ⟨xml, written, back.mpr ⟨by decide, by decide, by decide, by decide, by decide⟩⟩

/-- The callsign comes back as `a&amp;b`. -/
theorem ampersand_is_not_read_back :
    ∃ xml, render gulfFloats (flight "a&b") = some xml ∧
      ¬ ∃ read, tak.toEvent gulfFloats (readerOf (documentOf gulfFloats (flight "a&b") gulf)) "new"
        (Utf8.encodeText xml.toList) = .ok read ∧ ReadBack (flight "a&b") read := by
  refine ⟨_, render_writes gulfFloats (flight "a&b") gulf rfl, ?_⟩
  rintro ⟨read, found, back⟩
  have plain := (read_back_needs gulf_exact (readerOf_raw _) found back).2.1
  exact absurd plain (by decide)

end CotProof
