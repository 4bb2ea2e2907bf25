import AjarConnectors.Asterix.Scan
import AjarConnectors.Registers.Latest

namespace AsterixModel

open EventModel Registers

/-- A status field a radar reports in I034/050. -/
inductive StatusField where
  | nogo
  | rdpOverload
  | xmtOverload
  | monitoringDisconnected
  | timeSourceInvalid
  | psrOverload
  | ssrOverload
  | mdsOverload
  deriving DecidableEq

namespace StatusField

def get : StatusField → RadarStatus → Option Bool
  | nogo, s => s.nogo
  | rdpOverload, s => s.rdpOverload
  | xmtOverload, s => s.xmtOverload
  | monitoringDisconnected, s => s.monitoringDisconnected
  | timeSourceInvalid, s => s.timeSourceInvalid
  | psrOverload, s => s.psrOverload
  | ssrOverload, s => s.ssrOverload
  | mdsOverload, s => s.mdsOverload

/-- The subfield of I034/050 that carries the field, and its bit in the subfield's first octet. -/
def place : StatusField → Nat × UInt8
  | nogo => (0, 0x80)
  | rdpOverload => (0, 0x10)
  | xmtOverload => (0, 0x08)
  | monitoringDisconnected => (0, 0x04)
  | timeSourceInvalid => (0, 0x02)
  | psrOverload => (3, 0x10)
  | ssrOverload => (4, 0x10)
  | mdsOverload => (5, 0x10)

/-- What a subfield of I034/050 reports of the field. -/
def inSubfield (field : StatusField) (sub : Nat × Bytes) : Option Bool :=
  if sub.1 = field.place.1 then some (sub.2.getD 0 0 &&& field.place.2 != 0) else none

def inItem (field : StatusField) (entry : Item × Bytes) : Option Bool :=
  if entry.1.number = 50 then latest field.inSubfield (walkCompound Cat034.sub050 entry.2) else none

/-- What a record reports of the field. -/
def reported (field : StatusField) (items : Items) : Option Bool := latest field.inItem items

end StatusField

/-- The SAC and SIC of a record, from I034/010. -/
def radarOf (items : Items) : UInt8 × UInt8 :=
  (latest (fun entry : Item × Bytes =>
    if entry.1.number = 10 then some (entry.2.getD 0 0, entry.2.getD 1 0) else none) items).getD (0, 0)

/-- The message type of a record, from I034/000. -/
def messageTypeOf (items : Items) : UInt8 :=
  (latest (fun entry : Item × Bytes => if entry.1.number = 0 then some (entry.2.getD 0 0) else none) items).getD 0

def reportedBy (radar : UInt8 × UInt8) (field : StatusField) (record : Walked) : Option Bool :=
  if radarOf record.1 = radar then field.reported record.1 else none

/-- The value most recently reported for a radar and a field. -/
def lastReported (radar : UInt8 × UInt8) (field : StatusField) (history : List Walked) : Option Bool :=
  latest (reportedBy radar field) history

def AsterixParser.held (p : AsterixParser) (radar : UInt8 × UInt8) (field : StatusField) : Option Bool :=
  (p.radarStatus radar).bind field.get

/-- A call of the parser with a data block or with a datagram. -/
inductive Call where
  | block (frame : Bytes)
  | datagram (frame : Bytes)

/-- The CAT034 records in what a call is given. -/
def Call.records : Call → List Walked
  | .block frame => (serviceAhead frame).1
  | .datagram frame => (scan frame).records

def history (calls : List Call) : List Walked := calls.flatMap Call.records

/-- The service reports of a call, unless it is rejected. -/
def AsterixParser.accept (floats : Floats) (decoders : Decoders) (p : AsterixParser) :
    Call → Option (AsterixParser × List ServiceReport)
  | .block frame => match p.parseServiceBlock floats frame with
    | (p, .ok reports) => some (p, reports)
    | (_, .error _) => none
  | .datagram frame => match p.parseDatagram floats decoders frame with
    | (p, .ok (_, reports)) => some (p, reports)
    | (_, .error _) => none

/-- Calls one after the other, none of them rejected. -/
def AsterixParser.acceptAll (floats : Floats) (decoders : Decoders) (p : AsterixParser) :
    List Call → Option (AsterixParser × List ServiceReport)
  | [] => some (p, [])
  | call :: calls => match p.accept floats decoders call with
    | none => none
    | some (p, reports) => (p.acceptAll floats decoders calls).map fun later => (later.1, reports ++ later.2)

end AsterixModel

namespace AsterixProof

open AsterixModel EventModel Registers

theorem status_ext {s t : RadarStatus} (same : ∀ field : StatusField, field.get s = field.get t) : s = t := by
  rcases s with ⟨⟩
  rcases t with ⟨⟩
  congr
  · exact same .nogo
  · exact same .rdpOverload
  · exact same .xmtOverload
  · exact same .monitoringDisconnected
  · exact same .timeSourceInvalid
  · exact same .psrOverload
  · exact same .ssrOverload
  · exact same .mdsOverload

theorem get_merge (field : StatusField) (known other : RadarStatus) :
    field.get (known.merge other) = (field.get other).or (field.get known) := by
  cases field <;> rfl

theorem get_decodeStatus (field : StatusField) (s : RadarStatus) (sub : Nat × Bytes) :
    field.get (Cat034.decodeStatus s sub) = (field.inSubfield sub).or (field.get s) := by
  unfold Cat034.decodeStatus StatusField.inSubfield
  split
  all_goals cases field <;> simp_all [StatusField.get, StatusField.place]

section

variable (floats : Floats)

theorem get_decodeItem (field : StatusField) (r : ServiceReport) (entry : Item × Bytes) :
    field.get (Cat034.decodeItem floats r entry).status = (field.inItem entry).or (field.get r.status) := by
  unfold StatusField.inItem
  by_cases number : entry.1.number = 50
  · rw [if_pos number, ← foldl_or field.get (get_decodeStatus field)]
    unfold Cat034.decodeItem
    rw [number]
    rfl
  · rw [if_neg number, Option.none_or]
    unfold Cat034.decodeItem
    split
    all_goals first | rfl | contradiction

theorem radar_decodeItem (r : ServiceReport) (entry : Item × Bytes) :
    ((Cat034.decodeItem floats r entry).sac, (Cat034.decodeItem floats r entry).sic) =
      (if entry.1.number = 10 then some (entry.2.getD 0 0, entry.2.getD 1 0) else none).getD (r.sac, r.sic) := by
  by_cases number : entry.1.number = 10
  · rw [if_pos number]
    unfold Cat034.decodeItem
    rw [number]
    rfl
  · rw [if_neg number]
    unfold Cat034.decodeItem
    split
    all_goals first | rfl | contradiction

theorem messageType_decodeItem (r : ServiceReport) (entry : Item × Bytes) :
    (Cat034.decodeItem floats r entry).messageType =
      (if entry.1.number = 0 then some (entry.2.getD 0 0) else none).getD r.messageType := by
  by_cases number : entry.1.number = 0
  · rw [if_pos number]
    unfold Cat034.decodeItem
    rw [number]
    rfl
  · rw [if_neg number]
    unfold Cat034.decodeItem
    split
    all_goals first | rfl | contradiction

theorem get_decode (field : StatusField) (items : Items) :
    field.get (Cat034.decode floats items).status = field.reported items := by
  have told := foldl_or (fun r : ServiceReport => field.get r.status) (get_decodeItem floats field) items {}
  rw [show field.get ({} : ServiceReport).status = none by cases field <;> rfl, Option.or_none] at told
  exact told

theorem radar_decode (items : Items) :
    ((Cat034.decode floats items).sac, (Cat034.decode floats items).sic) = radarOf items :=
  foldl_getD (fun r : ServiceReport => (r.sac, r.sic)) (radar_decodeItem floats) items {}

theorem messageType_decode (items : Items) : (Cat034.decode floats items).messageType = messageTypeOf items :=
  foldl_getD ServiceReport.messageType (messageType_decodeItem floats) items {}

theorem radarStatus_takeReport (p : AsterixParser) (reports : List ServiceReport) (items : Items) (raw : Bytes) :
    (takeReport floats (p, reports) items raw).1.radarStatus = Function.update p.radarStatus (radarOf items)
      (some (((p.radarStatus (radarOf items)).getD {}).merge (Cat034.decode floats items).status)) := by
  rw [← radar_decode floats]
  unfold takeReport
  dsimp only
  split_ifs <;> rfl

/-- A record overwrites what it reports of its own radar and nothing else. -/
theorem held_takeReport (radar : UInt8 × UInt8) (field : StatusField) (state : AsterixParser × List ServiceReport)
    (record : Walked) : (takeReport floats state record.1 record.2).1.held radar field =
      (reportedBy radar field record).or (state.1.held radar field) := by
  obtain ⟨p, reports⟩ := state
  unfold AsterixParser.held reportedBy
  rw [radarStatus_takeReport]
  by_cases own : radarOf record.1 = radar
  · rw [if_pos own, own, Function.update_self, Option.bind_some, get_merge, get_decode]
    cases p.radarStatus radar with
    | none => cases field <;> rfl
    | some s => rfl
  · rw [if_neg own, Function.update_of_ne (Ne.symm own), Option.none_or]

theorem held_takeAll (p : AsterixParser) (records : List Walked) (radar : UInt8 × UInt8) (field : StatusField) :
    (p.takeAll floats records).1.held radar field = (lastReported radar field records).or (p.held radar field) :=
  foldl_or (fun state : AsterixParser × List ServiceReport => state.1.held radar field) (held_takeReport floats radar field)
    records (p, [])

theorem takeAll_concat (p : AsterixParser) (records : List Walked) (record : Walked) :
    p.takeAll floats (records ++ [record]) = takeReport floats (p.takeAll floats records) record.1 record.2 := by
  unfold AsterixParser.takeAll
  rw [List.foldl_append]
  rfl

theorem unknown_takeAll (p : AsterixParser) (records : List Walked) (radar : UInt8 × UInt8) :
    (p.takeAll floats records).1.radarStatus radar = none ↔
      p.radarStatus radar = none ∧ ∀ record ∈ records, radarOf record.1 ≠ radar := by
  induction records using List.reverseRecOn with
  | nil => exact (and_iff_left fun _ absent => absurd absent List.not_mem_nil).symm
  | append_singleton records record ih =>
    rw [takeAll_concat, radarStatus_takeReport, List.forall_mem_append, List.forall_mem_singleton, ← and_assoc, ← ih]
    by_cases own : radarOf record.1 = radar
    · rw [own, Function.update_self]
      exact iff_of_false (Option.some_ne_none _) fun both => both.2 rfl
    · rw [Function.update_of_ne (Ne.symm own), and_iff_left own]

/-- Each report is told from its record and carries its radar's status right after the record. -/
theorem reports_takeAll (p : AsterixParser) (records : List Walked) :
    (p.takeAll floats records).2.length = records.length ∧
    ∀ i record report, records[i]? = some record → (p.takeAll floats records).2[i]? = some report →
      (report.sac, report.sic) = radarOf record.1 ∧ report.raw = record.2 ∧
      (p.takeAll floats (records.take (i + 1))).1.radarStatus (radarOf record.1) = some report.status := by
  induction records using List.reverseRecOn with
  | nil => exact ⟨rfl, fun i record report found => by cases found⟩
  | append_singleton records last ih =>
    obtain ⟨size, each⟩ := ih
    have reports : ∃ report, (p.takeAll floats (records ++ [last])).2 = (p.takeAll floats records).2 ++ [report] ∧
        (report.sac, report.sic) = radarOf last.1 ∧ report.raw = last.2 ∧
        (p.takeAll floats (records ++ [last])).1.radarStatus (radarOf last.1) = some report.status := by
      rw [takeAll_concat, radarStatus_takeReport, Function.update_self, ← radar_decode floats]
      exact ⟨_, rfl, rfl, rfl, rfl⟩
    obtain ⟨newest, appended, radar, raw, status⟩ := reports
    rw [appended]
    refine ⟨by rw [List.length_append, List.length_append, size]; rfl, ?_⟩
    intro i record report first second
    rcases Nat.lt_trichotomy i records.length with before | rfl | after
    · rw [List.getElem?_append_left before] at first
      rw [List.getElem?_append_left (by omega)] at second
      rw [List.take_append_of_le_length (by omega)]
      exact each i record report first second
    · rw [List.getElem?_concat_length] at first
      rw [← size, List.getElem?_concat_length] at second
      cases first
      cases second
      rw [List.take_of_length_le (by rw [List.length_append]; exact Nat.le_refl _)]
      exact ⟨radar, raw, status⟩
    · rw [List.getElem?_eq_none (by rw [List.length_append]; exact after)] at first
      cases first

end

section

variable (floats : Floats) (decoders : Decoders)

theorem radarStatus_ext {p q : AsterixParser} {radar : UInt8 × UInt8}
    (known : p.radarStatus radar = none ↔ q.radarStatus radar = none)
    (same : ∀ field, p.held radar field = q.held radar field) : p.radarStatus radar = q.radarStatus radar := by
  unfold AsterixParser.held at same
  cases first : p.radarStatus radar with
  | none => exact (known.mp first).symm
  | some s =>
    cases second : q.radarStatus radar with
    | none =>
      rw [known.mpr second] at first
      cases first
    | some t =>
      rw [first, second] at same
      exact congrArg some (status_ext same)

/-- Only a radar's own records count for it. -/
theorem lastReported_own (radar : UInt8 × UInt8) (field : StatusField) (records : List Walked) :
    lastReported radar field (records.filter fun record => radarOf record.1 = radar) = lastReported radar field records := by
  apply latest_filter
  intro record other
  exact if_neg (of_decide_eq_false other)

theorem accept_eq {p q : AsterixParser} {call : Call} {reports : List ServiceReport}
    (accepted : p.accept floats decoders call = some (q, reports)) :
    ∃ blocks, q = (p.takeAll floats call.records).1.ignoring blocks ∧ reports = (p.takeAll floats call.records).2 := by
  cases call with
  | block frame =>
    unfold AsterixParser.accept at accepted
    dsimp only at accepted
    rw [parseServiceBlock_eq] at accepted
    cases outcome : (serviceAhead frame).2 with
    | error e =>
      rw [outcome] at accepted
      cases accepted
    | ok _ =>
      rw [outcome] at accepted
      cases accepted
      exact ⟨0, rfl, rfl⟩
  | datagram frame =>
    obtain ⟨parser, outcome⟩ := parseDatagram_eq floats decoders p frame
    unfold AsterixParser.accept at accepted
    dsimp only at accepted
    split at accepted
    · rename_i parsed
      cases accepted
      rw [parsed] at parser outcome
      cases ended : (scan frame).outcome with
      | error e =>
        rw [ended] at outcome
        cases outcome
      | ok _ =>
        rw [ended] at outcome
        exact ⟨_, parser, Except.ok.inj outcome⟩
    · cases accepted

theorem acceptAll_eq {p q : AsterixParser} {calls : List Call} {reports : List ServiceReport}
    (accepted : p.acceptAll floats decoders calls = some (q, reports)) :
    ∃ blocks, q = (p.takeAll floats (history calls)).1.ignoring blocks ∧ reports = (p.takeAll floats (history calls)).2 := by
  induction calls generalizing p reports with
  | nil =>
    cases accepted
    exact ⟨0, rfl, rfl⟩
  | cons call calls ih =>
    rw [AsterixParser.acceptAll] at accepted
    cases first : p.accept floats decoders call with
    | none =>
      rw [first] at accepted
      cases accepted
    | some found =>
      obtain ⟨ignored, parser, told⟩ := accept_eq floats decoders first
      rw [first] at accepted
      obtain ⟨later, rest, whole⟩ := Option.map_eq_some_iff.mp accepted
      obtain ⟨rfl, rfl⟩ := Prod.mk.inj whole
      obtain ⟨more, last, after⟩ := ih rest
      rw [parser, takeAll_ignoring] at last after
      rw [history, List.flatMap_cons, takeAll_append, told, after]
      refine ⟨ignored + more, ?_, rfl⟩
      rw [last]
      unfold AsterixParser.ignoring
      dsimp only
      rw [Nat.add_assoc]
      rfl

/-- After calls that were all accepted, each status field of each radar is the value last reported for it, and each
    report carries its radar's status up to its own record; what other radars report does not matter. -/
theorem radar_status_is_last_reported (sensor : Option Sensor) (calls : List Call) {p : AsterixParser}
    {reports : List ServiceReport}
    (accepted : AsterixParser.acceptAll floats decoders { sensor := sensor } calls = some (p, reports)) :
    (∀ radar field, p.held radar field = lastReported radar field (history calls)) ∧
    (∀ radar, p.radarStatus radar = none ↔ ∀ record ∈ history calls, radarOf record.1 ≠ radar) ∧
    reports.length = (history calls).length ∧
    (∀ i record report, (history calls)[i]? = some record → reports[i]? = some report →
      (report.sac, report.sic) = radarOf record.1 ∧ report.raw = record.2 ∧
      ∀ field : StatusField,
        field.get report.status = lastReported (radarOf record.1) field ((history calls).take (i + 1))) ∧
    (∀ others q elsewhere, AsterixParser.acceptAll floats decoders { sensor := sensor } others = some (q, elsewhere) →
      ∀ radar, (history others).filter (fun record => radarOf record.1 = radar) =
          (history calls).filter (fun record => radarOf record.1 = radar) →
        q.radarStatus radar = p.radarStatus radar) := by
  have law : ∀ {others : List Call} {q : AsterixParser} {elsewhere : List ServiceReport},
      AsterixParser.acceptAll floats decoders { sensor := sensor } others = some (q, elsewhere) →
      (∀ radar field, q.held radar field = lastReported radar field (history others)) ∧
      (∀ radar, q.radarStatus radar = none ↔ ∀ record ∈ history others, radarOf record.1 ≠ radar) := by
    intro others q elsewhere ran
    obtain ⟨blocks, rfl, -⟩ := acceptAll_eq floats decoders ran
    constructor
    · intro radar field
      exact (held_takeAll floats { sensor := sensor } _ radar field).trans (Option.or_none ..)
    · intro radar
      exact (unknown_takeAll floats { sensor := sensor } _ radar).trans (and_iff_right rfl)
  obtain ⟨values, known⟩ := law accepted
  obtain ⟨-, -, told⟩ := acceptAll_eq floats decoders accepted
  obtain ⟨size, each⟩ := reports_takeAll floats { sensor := sensor } (history calls)
  rw [← told] at size each
  refine ⟨values, known, size, ?_, ?_⟩
  · intro i record report first second
    obtain ⟨radar, raw, status⟩ := each i record report first second
    refine ⟨radar, raw, ?_⟩
    intro field
    have value := held_takeAll floats { sensor := sensor } ((history calls).take (i + 1)) (radarOf record.1) field
    unfold AsterixParser.held at value
    rw [status] at value
    exact value.trans (Option.or_none ..)
  · intro others q elsewhere ran radar own
    obtain ⟨otherValues, otherKnown⟩ := law ran
    apply radarStatus_ext
    · rw [known, otherKnown]
      have member : ∀ records : List Walked, (∀ record ∈ records, radarOf record.1 ≠ radar) ↔
          records.filter (fun record => radarOf record.1 = radar) = [] := by
        intro records
        simp only [List.filter_eq_nil_iff, decide_eq_true_eq, ne_eq]
      rw [member, member, own]
    · intro field
      rw [values, otherValues, ← lastReported_own radar field (history others), own, lastReported_own]

end

/-- A sector crossing of radar 25:10 with NOGO set, as a block of its own; then a datagram of a block of an unknown
    category and the radar's north marker, and a north marker of radar 25:11. -/
def nogoCalls : List Call :=
  [.block [34, 0, 10, 0xd4, 25, 10, 2, 96, 0x80, 0x90],
    .datagram [240, 0, 4, 0, 34, 0, 7, 0xc0, 25, 10, 1, 34, 0, 7, 0xc0, 25, 11, 1]]

theorem nogo_is_carried_over :
    ∃ p reports, AsterixParser.acceptAll Floats.idle unpositioned {} nogoCalls = some (p, reports) ∧
      p.held (25, 10) .nogo = some true ∧ p.held (25, 11) .nogo = none := by
  have ran : (AsterixParser.acceptAll Floats.idle unpositioned {} nogoCalls).isSome = true := by decide
  obtain ⟨⟨p, reports⟩, accepted⟩ := Option.isSome_iff_exists.mp ran
  obtain ⟨held, -⟩ := radar_status_is_last_reported Floats.idle unpositioned none nogoCalls accepted
  refine ⟨p, reports, accepted, ?_, ?_⟩
  · rw [held]
    decide
  · rw [held]
    decide

end AsterixProof
