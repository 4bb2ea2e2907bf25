import AjarConnectors.Asterix.Indexes
import AjarConnectors.Asterix.Scan

namespace AsterixModel

open EventModel

/-- The loop over the records of a block, which fails where it runs out of turns or a slice is out of range. -/
def walkRecordsChecked {σ : Type} (cat : UInt8) (uap : Uap) (block : Bytes) (visit : σ → Items → Bytes → Option σ) :
    Nat → Nat → σ → Option (σ × Except AsterixError Unit)
  | 0, off, state => if block.length ≤ off then some (state, .ok ()) else none
  | fuel + 1, off, state =>
    if block.length ≤ off then some (state, .ok ())
    else match walkRecordChecked cat uap block off with
      | none => none
      | some (.error e) => some (state, .error e)
      | some (.ok (items, next)) => do
        let raw ← slice block off next
        let state ← visit state items raw
        walkRecordsChecked cat uap block visit fuel next state

section

variable (floats : Sphere)

/-- The UAP and decoder of a track category. -/
def trackDecoder (sensor : Option Sensor) (cat : UInt8) : Option (Uap × (Items → Option TrackReport)) :=
  match cat with
  | 10 => some (Cat010.uap, (Cat010.decode floats · sensor))
  | 21 => some (Cat021.uap, Cat021.decode floats)
  | 48 => some (Cat048.uap, (Cat048.decode floats · sensor))
  | 62 => some (Cat062.uap, Cat062.decode floats)
  | _ => none

/-- One turn of the loop of `parse_block`. -/
def takeTrackChecked (cat : UInt8) (decode : Items → Option TrackReport) (targets : List TrackReport) (items : Items)
    (raw : Bytes) : Option (List TrackReport) :=
  (decode items).map fun t =>
    let isReport := cat != 10 || t.messageType == some Cat010.targetReport
    let positioned := t.lat.isSome || t.polar.isSome || t.cartesianM.isSome
    if isReport && positioned then targets ++ [{ t with raw := raw }] else targets

/-- What one turn of the loop of `parse_service_block` does with the record it decoded. -/
def noteReport (state : AsterixParser × List ServiceReport) (r : ServiceReport) (raw : Bytes) :
    AsterixParser × List ServiceReport :=
  let (p, reports) := state
  let known := ((p.radarStatus (r.sac, r.sic)).getD {}).merge r.status
  let p := { p with radarStatus := Function.update p.radarStatus (r.sac, r.sic) (some known) }
  let p :=
    if r.messageType = Cat034.northMarker then { p with northMarkers := p.northMarkers + 1 }
    else if r.messageType = Cat034.sectorCrossing then { p with sectorCrossings := p.sectorCrossings + 1 }
    else if r.messageType = Cat034.jammingStrobe ∨ r.messageType = Cat034.ssrJammingStrobe ∨
        r.messageType = Cat034.modeSJammingStrobe then { p with jammingStrobes := p.jammingStrobes + 1 }
    else p
  let p := if r.messageType = Cat034.northMarker ∧ known.degraded then { p with radarDegraded := p.radarDegraded + 1 } else p
  (p, reports ++ [{ r with status := known, raw := raw }])

def takeReportChecked (state : AsterixParser × List ServiceReport) (items : Items) (raw : Bytes) :
    Option (AsterixParser × List ServiceReport) :=
  (Cat034.decodeChecked floats.toFloats items).map fun r => noteReport state r raw

namespace AsterixParser

def parseBlockChecked (p : AsterixParser) (frame : Bytes) : Option (Except AsterixError (List TrackReport)) :=
  match blockHeader frame with
  | .error e => some (.error e)
  | .ok (cat, len) =>
    match trackDecoder floats p.sensor cat with
    | none => some (.ok [])
    | some (uap, decode) => do
      let block ← slice frame 0 len
      match ← walkRecordsChecked cat uap block (takeTrackChecked cat decode) len 3 [] with
      | (_, .error e) => some (.error e)
      | (targets, .ok ()) => some (.ok targets)

def parseServiceBlockChecked (p : AsterixParser) (frame : Bytes) :
    Option (AsterixParser × Except AsterixError (List ServiceReport)) :=
  match blockHeader frame with
  | .error e => some (p, .error e)
  | .ok (cat, len) =>
    if cat ≠ 34 then some (p, .ok [])
    else do
      let block ← slice frame 0 len
      match ← walkRecordsChecked cat Cat034.uap block (takeReportChecked floats) len 3 (p, []) with
      | ((p, _), .error e) => some (p, .error e)
      | ((p, reports), .ok ()) => some (p, .ok reports)

def parseBlocksChecked : Nat → Bytes → AsterixParser → List TrackReport → List ServiceReport →
    Option (AsterixParser × Except AsterixError (List TrackReport × List ServiceReport))
  | 0, rest, p, targets, reports => if rest = [] then some (p, .ok (targets, reports)) else none
  | fuel + 1, rest, p, targets, reports =>
    if rest = [] then some (p, .ok (targets, reports))
    else match blockHeader rest with
      | .error e => some (p, .error e)
      | .ok (cat, len) => do
        let block ← slice rest 0 len
        let later ← slice rest len rest.length
        if cat = 10 ∨ cat = 21 ∨ cat = 48 ∨ cat = 62 then
          match ← p.parseBlockChecked floats block with
          | .error e => some (p, .error e)
          | .ok found => parseBlocksChecked fuel later p (targets ++ found) reports
        else if cat = 34 then
          match ← p.parseServiceBlockChecked floats block with
          | (p, .error e) => some (p, .error e)
          | (p, .ok found) => parseBlocksChecked fuel later p targets (reports ++ found)
        else parseBlocksChecked fuel later { p with ignoredBlocks := p.ignoredBlocks + 1 } targets reports

/-- `parse_datagram`, with nothing at all where it does not end or an index is out of range. -/
def parseDatagramChecked (p : AsterixParser) (frame : Bytes) :
    Option (AsterixParser × Except AsterixError (List TrackReport × List ServiceReport)) :=
  parseBlocksChecked floats frame.length frame p [] []

end AsterixParser

/-- What `parse_block` asks of a track report. -/
def seen (category : UInt8) (decoded : Option TrackReport) : AsterixTarget :=
  (decoded.getD { category := category }).toAsterixTarget

/-- The decoders, as the parser model takes them. -/
def decodersOf : Decoders where
  cat010 items sensor := seen 10 (Cat010.decode floats items sensor)
  cat021 items := seen 21 (Cat021.decode floats items)
  cat048 items sensor := seen 48 (Cat048.decode floats items sensor)
  cat062 items := seen 62 (Cat062.decode floats items)

end

end AsterixModel

namespace AsterixProof

open EventModel AsterixModel

theorem cat010_positive : ∀ entry ∈ Cat010.uap, UnitsPositive entry.2 := by simp [Cat010.uap, UnitsPositive]

theorem cat021_positive : ∀ entry ∈ Cat021.uap, UnitsPositive entry.2 := by simp [Cat021.uap, UnitsPositive]

theorem cat034_positive : ∀ entry ∈ Cat034.uap, UnitsPositive entry.2 := by
  simp [Cat034.uap, Cat034.sub050, Cat034.sub060, UnitsPositive, AllUnitsPositive]

theorem cat048_positive : ∀ entry ∈ Cat048.uap, UnitsPositive entry.2 := by
  simp [Cat048.uap, Cat048.sub130, Cat048.sub120, UnitsPositive, AllUnitsPositive, List.replicate]

theorem cat062_positive : ∀ entry ∈ Cat062.uap, UnitsPositive entry.2 := by
  simp [Cat062.uap, Cat062.sub380, Cat062.sub290, Cat062.sub295, Cat062.sub500, Cat062.sub340, Cat062.sub110, Cat062.sub390,
    UnitsPositive, AllUnitsPositive, List.replicate]

theorem walkRecord_advances {cat : UInt8} {uap : Uap} (positive : ∀ entry ∈ uap, UnitsPositive entry.2) {data : Bytes}
    {off next : Nat} {items : Items} (walked : walkRecord cat uap data off = .ok (items, next)) :
    off < next ∧ next ≤ data.length := by
  unfold walkRecord at walked
  split at walked
  · cases walked
  · rename_i read
    obtain ⟨some_octet, inside⟩ := readFspec_octets read
    obtain ⟨bound, _, size, _⟩ := walkItems_sound positive walked inside
    exact ⟨by omega, bound⟩

/-- A checked loop over records whose turns return is the loop itself, seen through `abs`. -/
theorem walkRecordsChecked_eq {σ τ : Type} (cat : UInt8) (abs : σ → τ) {uap : Uap}
    (positive : ∀ entry ∈ uap, UnitsPositive entry.2) {block : Bytes} {checked : σ → Items → Bytes → Option σ}
    {visit : τ → Items → Bytes → τ}
    (turns : ∀ state items raw, Guaranteed uap items →
      ∃ next, checked state items raw = some next ∧ visit (abs state) items raw = abs next)
    {fuel off : Nat} (enough : block.length ≤ off + fuel) (state : σ) :
    ∃ last outcome, walkRecordsChecked cat uap block checked fuel off state = some (last, outcome) ∧
      walkRecords cat uap block visit fuel off (abs state) = (abs last, outcome) := by
  induction fuel generalizing off state with
  | zero =>
    have done : block.length ≤ off := enough
    rw [walkRecordsChecked, if_pos done]
    exact ⟨state, .ok (), rfl, rfl⟩
  | succ fuel ih =>
    rw [walkRecordsChecked, walkRecords]
    split
    · exact ⟨state, .ok (), rfl, rfl⟩
    · rw [walkRecordChecked_eq positive]
      cases walked : walkRecord cat uap block off with
      | error e => exact ⟨state, .error e, rfl, rfl⟩
      | ok record =>
        obtain ⟨items, next⟩ := record
        obtain ⟨further, inside⟩ := walkRecord_advances positive walked
        obtain ⟨then', step, same⟩ :=
          turns state items ((block.take next).drop off) (walkRecord_guaranteed walked)
        dsimp only
        rw [slice_inside (Nat.le_of_lt further) inside]
        simp only [Option.bind_eq_bind, Option.bind_some, step, same]
        exact ih (by omega) then'

theorem blockHeader_bounds {frame : Bytes} {cat : UInt8} {len : Nat} (header : blockHeader frame = .ok (cat, len)) :
    3 ≤ len ∧ len ≤ frame.length := by
  unfold blockHeader at header
  split at header
  · dsimp only at header
    split at header
    · cases header
    · cases header
      omega
  · cases header

theorem takeReport_noteReport (floats : Floats) (state : AsterixParser × List ServiceReport) (items : Items) (raw : Bytes) :
    takeReport floats state items raw = noteReport state (Cat034.decode floats items) raw := rfl

section

variable (floats : Sphere)

/-- A track category is decoded the same by both parsers, and its decoder returns on what a record holds. -/
theorem trackDecoder_cases (sensor : Option Sensor) (cat : UInt8) :
    (trackDecoder floats sensor cat = none ∧ (decodersOf floats).find sensor cat = none) ∨
    ∃ uap decode category, trackDecoder floats sensor cat = some (uap, decode) ∧
      (decodersOf floats).find sensor cat = some (uap, fun items => seen category (decode items)) ∧
      (∀ entry ∈ uap, UnitsPositive entry.2) ∧ ∀ items, Guaranteed uap items → ∃ t, decode items = some t := by
  have inside := indexes_inside floats
  unfold trackDecoder Decoders.find
  split
  · exact Or.inr ⟨_, _, 10, rfl, rfl, cat010_positive, fun items => inside.cat010 items sensor⟩
  · exact Or.inr ⟨_, _, 21, rfl, rfl, cat021_positive, inside.cat021⟩
  · exact Or.inr ⟨_, _, 48, rfl, rfl, cat048_positive, fun items => inside.cat048 items sensor⟩
  · exact Or.inr ⟨_, _, 62, rfl, rfl, cat062_positive, inside.cat062⟩
  · refine Or.inl ⟨rfl, ?_⟩
    simp [*]

theorem takeTrackChecked_eq (cat category : UInt8) {decode : Items → Option TrackReport} {items : Items} {t : TrackReport}
    (decoded : decode items = some t) (targets : List TrackReport) (raw : Bytes) :
    ∃ next, takeTrackChecked cat decode targets items raw = some next ∧
      takeTarget cat (fun items => seen category (decode items)) (targets.map TrackReport.toAsterixTarget) items raw =
        next.map TrackReport.toAsterixTarget := by
  have same : seen category (decode items) = t.toAsterixTarget := by
    rw [seen, decoded]
    rfl
  rw [takeTrackChecked, decoded, takeTarget]
  refine ⟨_, rfl, ?_⟩
  simp only [same]
  split
  · rw [List.map_append]
    rfl
  · rfl

theorem parseBlockChecked_eq (p : AsterixParser) (frame : Bytes) :
    ∃ outcome, p.parseBlockChecked floats frame = some outcome ∧
      p.parseBlock (decodersOf floats) frame = outcome.map (List.map TrackReport.toAsterixTarget) := by
  unfold AsterixParser.parseBlockChecked AsterixParser.parseBlock
  cases header : blockHeader frame with
  | error e => exact ⟨.error e, rfl, rfl⟩
  | ok found =>
    obtain ⟨cat, len⟩ := found
    dsimp only
    rcases trackDecoder_cases floats p.sensor cat with ⟨none, none'⟩ | ⟨uap, decode, category, some, some', positive, returns⟩
    · rw [none, none']
      exact ⟨.ok [], rfl, rfl⟩
    · rw [some, some']
      dsimp only
      have inside := (blockHeader_bounds header).2
      have turns : ∀ state items raw, Guaranteed uap items →
          ∃ next, takeTrackChecked cat decode state items raw = Option.some next ∧
            takeTarget cat (fun items => seen category (decode items)) (state.map TrackReport.toAsterixTarget) items raw =
              next.map TrackReport.toAsterixTarget := by
        intro state items raw guaranteed
        obtain ⟨t, decoded⟩ := returns items guaranteed
        exact takeTrackChecked_eq cat category decoded state raw
      have size : (frame.take len).length ≤ 3 + len := by
        rw [List.length_take]
        omega
      obtain ⟨last, outcome, checked, walked⟩ := walkRecordsChecked_eq cat (List.map TrackReport.toAsterixTarget) positive
        turns size []
      rw [List.map_nil] at walked
      rw [slice_inside (Nat.zero_le len) inside, List.drop_zero, walked]
      simp only [Option.bind_eq_bind, Option.bind_some, checked]
      cases outcome with
      | error e => exact ⟨.error e, rfl, rfl⟩
      | ok _ => exact ⟨.ok last, rfl, rfl⟩

theorem parseServiceBlockChecked_eq (p : AsterixParser) (frame : Bytes) :
    p.parseServiceBlockChecked floats frame = some (p.parseServiceBlock floats.toFloats frame) := by
  unfold AsterixParser.parseServiceBlockChecked AsterixParser.parseServiceBlock
  cases header : blockHeader frame with
  | error e => rfl
  | ok found =>
    obtain ⟨cat, len⟩ := found
    dsimp only
    split
    · rfl
    · have inside := (blockHeader_bounds header).2
      have turns : ∀ state items raw, Guaranteed Cat034.uap items →
          ∃ next, takeReportChecked floats state items raw = some next ∧
            takeReport floats.toFloats (id state) items raw = id next := by
        intro state items raw guaranteed
        rw [takeReportChecked, cat034_decode floats.toFloats guaranteed]
        exact ⟨_, rfl, takeReport_noteReport floats.toFloats state items raw⟩
      have size : (frame.take len).length ≤ 3 + len := by
        rw [List.length_take]
        omega
      obtain ⟨⟨q, reports⟩, outcome, checked, walked⟩ := walkRecordsChecked_eq cat id cat034_positive turns
        size (p, [])
      rw [id, id] at walked
      rw [slice_inside (Nat.zero_le len) inside, List.drop_zero, walked]
      simp only [Option.bind_eq_bind, Option.bind_some, checked]
      cases outcome <;> rfl

/-- What both parsers return of a datagram. -/
def shown (outcome : Except AsterixError (List TrackReport × List ServiceReport)) :
    Except AsterixError (List AsterixTarget × List ServiceReport) :=
  outcome.map fun found => (found.1.map TrackReport.toAsterixTarget, found.2)

theorem parseBlocksChecked_eq {fuel : Nat} {rest : Bytes} (enough : rest.length ≤ fuel) (p : AsterixParser)
    (targets : List TrackReport) (reports : List ServiceReport) :
    ∃ q outcome, AsterixParser.parseBlocksChecked floats fuel rest p targets reports = some (q, outcome) ∧
      AsterixParser.parseBlocks floats.toFloats (decodersOf floats) fuel rest p
        (targets.map TrackReport.toAsterixTarget) reports = (q, shown outcome) := by
  induction fuel generalizing rest p targets reports with
  | zero =>
    have done : rest = [] := List.eq_nil_of_length_eq_zero (Nat.le_zero.mp enough)
    rw [AsterixParser.parseBlocksChecked, if_pos done]
    exact ⟨p, .ok (targets, reports), rfl, rfl⟩
  | succ fuel ih =>
    rw [AsterixParser.parseBlocksChecked, AsterixParser.parseBlocks]
    split
    · exact ⟨p, .ok (targets, reports), rfl, rfl⟩
    · cases header : blockHeader rest with
      | error e => exact ⟨p, .error e, rfl, rfl⟩
      | ok found =>
        obtain ⟨cat, len⟩ := found
        obtain ⟨some_octets, inside⟩ := blockHeader_bounds header
        have shorter : (rest.drop len).length ≤ fuel := by
          rw [List.length_drop]
          omega
        dsimp only
        rw [slice_inside (Nat.zero_le len) inside, slice_inside inside (Nat.le_refl _), List.drop_zero, List.take_length]
        simp only [Option.bind_eq_bind, Option.bind_some]
        split
        · obtain ⟨outcome, checked, parsed⟩ := parseBlockChecked_eq floats p (rest.take len)
          rw [checked, parsed, Option.bind_some]
          cases outcome with
          | error e => exact ⟨p, .error e, rfl, rfl⟩
          | ok found =>
            have later := ih shorter p (targets ++ found) reports
            rw [List.map_append] at later
            exact later
        · split
          · rw [parseServiceBlockChecked_eq, Option.bind_some]
            rcases p.parseServiceBlock floats.toFloats (rest.take len) with ⟨q, e | found⟩
            · exact ⟨q, .error e, rfl, rfl⟩
            · exact ih shorter q targets (reports ++ found)
          · exact ih shorter _ targets reports

theorem parseDatagramChecked_eq (p : AsterixParser) (frame : Bytes) :
    ∃ q outcome, p.parseDatagramChecked floats frame = some (q, outcome) ∧
      p.parseDatagram floats.toFloats (decodersOf floats) frame = (q, shown outcome) :=
  parseBlocksChecked_eq floats (Nat.le_refl frame.length) p [] []

/-- Every datagram is parsed to an end without an index out of range, and each fixed index of a decoder lies within
    what the walks guarantee by its UAP. -/
theorem parse_datagram_is_total (p : AsterixParser) (frame : Bytes) :
    (∃ result, p.parseDatagramChecked floats frame = some result) ∧ IndexesInside floats := by
  obtain ⟨q, outcome, returned, _⟩ := parseDatagramChecked_eq floats p frame
  exact ⟨⟨_, returned⟩, indexes_inside floats⟩

end

end AsterixProof
