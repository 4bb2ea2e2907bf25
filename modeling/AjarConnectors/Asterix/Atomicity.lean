import AjarConnectors.Asterix.Status

namespace AsterixModel

open EventModel

/-- The status of the radars and the published counts are the same. -/
structure Unchanged (p q : AsterixParser) : Prop where
  radarStatus : q.radarStatus = p.radarStatus
  northMarkers : q.northMarkers = p.northMarkers
  sectorCrossings : q.sectorCrossings = p.sectorCrossings
  jammingStrobes : q.jammingStrobes = p.jammingStrobes
  radarDegraded : q.radarDegraded = p.radarDegraded
  ignoredBlocks : q.ignoredBlocks = p.ignoredBlocks

/-- A datagram that is rejected leaves no trace. -/
def LeavesNoTrace (floats : Floats) (decoders : Decoders) (p : AsterixParser) (frame : Bytes) : Prop :=
  ∀ e, (p.parseDatagram floats decoders frame).2 = .error e → Unchanged p (p.parseDatagram floats decoders frame).1

namespace Cat034

def isJamming (messageType : UInt8) : Bool := [jammingStrobe, ssrJammingStrobe, modeSJammingStrobe].contains messageType

/-- The message types that have a counter. -/
def isCounted (messageType : UInt8) : Bool :=
  messageType == northMarker || messageType == sectorCrossing || isJamming messageType

end Cat034

/-- Nothing ahead of the fault tells the parser anything new: no unknown block, no record of a counted message type,
    and no radar or last reported value that it does not hold already. -/
structure Uneventful (p : AsterixParser) (ahead : Ahead) : Prop where
  blocks : ahead.ignored = 0
  types : ∀ record ∈ ahead.records, Cat034.isCounted (messageTypeOf record.1) = false
  radars : ∀ record ∈ ahead.records, p.radarStatus (radarOf record.1) ≠ none
  values : ∀ radar field value, lastReported radar field ahead.records = some value → p.held radar field = some value

end AsterixModel

namespace AsterixProof

open AsterixModel EventModel Registers

section

variable (floats : Floats)

theorem northMarkers_takeReport (state : AsterixParser × List ServiceReport) (record : Walked) :
    (takeReport floats state record.1 record.2).1.northMarkers =
      state.1.northMarkers + if messageTypeOf record.1 == Cat034.northMarker then 1 else 0 := by
  rw [← messageType_decode floats]
  unfold takeReport
  dsimp only
  split_ifs <;> simp_all

theorem sectorCrossings_takeReport (state : AsterixParser × List ServiceReport) (record : Walked) :
    (takeReport floats state record.1 record.2).1.sectorCrossings =
      state.1.sectorCrossings + if messageTypeOf record.1 == Cat034.sectorCrossing then 1 else 0 := by
  rw [← messageType_decode floats]
  unfold takeReport
  dsimp only
  split_ifs <;> simp_all [Cat034.northMarker, Cat034.sectorCrossing]

theorem jammingStrobes_takeReport (state : AsterixParser × List ServiceReport) (record : Walked) :
    (takeReport floats state record.1 record.2).1.jammingStrobes =
      state.1.jammingStrobes + if Cat034.isJamming (messageTypeOf record.1) then 1 else 0 := by
  rw [← messageType_decode floats]
  unfold takeReport
  dsimp only
  split_ifs <;> simp_all [Cat034.isJamming, Cat034.northMarker, Cat034.sectorCrossing, Cat034.jammingStrobe,
    Cat034.ssrJammingStrobe, Cat034.modeSJammingStrobe]

theorem ignoredBlocks_takeReport (state : AsterixParser × List ServiceReport) (record : Walked) :
    (takeReport floats state record.1 record.2).1.ignoredBlocks = state.1.ignoredBlocks := by
  unfold takeReport
  dsimp only
  split_ifs <;> rfl

/-- Only a north marker can be counted as degraded. -/
theorem radarDegraded_takeReport {state : AsterixParser × List ServiceReport} {record : Walked}
    (other : messageTypeOf record.1 ≠ Cat034.northMarker) :
    (takeReport floats state record.1 record.2).1.radarDegraded = state.1.radarDegraded := by
  rw [← messageType_decode floats] at other
  unfold takeReport
  dsimp only
  rw [if_neg other, if_neg fun both => other both.1]
  split_ifs <;> rfl

theorem northMarkers_takeAll (p : AsterixParser) (records : List Walked) :
    (p.takeAll floats records).1.northMarkers =
      p.northMarkers + records.countP fun record => messageTypeOf record.1 == Cat034.northMarker :=
  foldl_count (fun state : AsterixParser × List ServiceReport => state.1.northMarkers) _ (northMarkers_takeReport floats)
    records (p, [])

theorem sectorCrossings_takeAll (p : AsterixParser) (records : List Walked) :
    (p.takeAll floats records).1.sectorCrossings =
      p.sectorCrossings + records.countP fun record => messageTypeOf record.1 == Cat034.sectorCrossing :=
  foldl_count (fun state : AsterixParser × List ServiceReport => state.1.sectorCrossings) _
    (sectorCrossings_takeReport floats) records (p, [])

theorem jammingStrobes_takeAll (p : AsterixParser) (records : List Walked) :
    (p.takeAll floats records).1.jammingStrobes =
      p.jammingStrobes + records.countP fun record => Cat034.isJamming (messageTypeOf record.1) :=
  foldl_count (fun state : AsterixParser × List ServiceReport => state.1.jammingStrobes) _
    (jammingStrobes_takeReport floats) records (p, [])

theorem ignoredBlocks_takeAll (p : AsterixParser) (records : List Walked) :
    (p.takeAll floats records).1.ignoredBlocks = p.ignoredBlocks := by
  induction records using List.reverseRecOn with
  | nil => rfl
  | append_singleton records record ih => rw [takeAll_concat, ignoredBlocks_takeReport, ih]

theorem radarDegraded_takeAll (p : AsterixParser) {records : List Walked}
    (others : ∀ record ∈ records, messageTypeOf record.1 ≠ Cat034.northMarker) :
    (p.takeAll floats records).1.radarDegraded = p.radarDegraded := by
  induction records using List.reverseRecOn with
  | nil => rfl
  | append_singleton records record ih =>
    rw [List.forall_mem_append, List.forall_mem_singleton] at others
    rw [takeAll_concat, radarDegraded_takeReport floats others.2, ih others.1]

/-- A counter stays where it is exactly if nothing is counted. -/
theorem counter_same_iff {before after : Nat} {counts : Walked → Bool} {records : List Walked}
    (total : after = before + records.countP counts) : after = before ↔ ∀ record ∈ records, counts record = false := by
  rw [total, Nat.add_eq_left, List.countP_eq_zero]
  exact forall₂_congr fun _ _ => iff_of_eq (Bool.not_eq_true _)

theorem uncounted_iff (messageType : UInt8) : Cat034.isCounted messageType = false ↔
    (messageType == Cat034.northMarker) = false ∧ (messageType == Cat034.sectorCrossing) = false ∧
      Cat034.isJamming messageType = false := by
  unfold Cat034.isCounted
  rw [Bool.or_eq_false_iff, Bool.or_eq_false_iff, and_assoc]

/-- The map of the radars stays as it is exactly if no radar is new and each value reported last is held already. -/
theorem radarStatus_same_iff (p : AsterixParser) (records : List Walked) :
    (p.takeAll floats records).1.radarStatus = p.radarStatus ↔
      (∀ record ∈ records, p.radarStatus (radarOf record.1) ≠ none) ∧
      ∀ radar field value, lastReported radar field records = some value → p.held radar field = some value := by
  have known := unknown_takeAll floats p records
  have values := held_takeAll floats p records
  constructor
  · intro same
    constructor
    · intro record member unknown
      rw [← same] at unknown
      exact ((known _).mp unknown).2 record member rfl
    · intro radar field value last
      have told := values radar field
      rw [last, Option.some_or] at told
      unfold AsterixParser.held at told ⊢
      rw [← same]
      exact told
  · rintro ⟨radars, reports⟩
    funext radar
    apply radarStatus_ext
    · rw [known]
      apply and_iff_left_of_imp
      rintro unknown record member rfl
      exact radars record member unknown
    · intro field
      rw [values]
      cases last : lastReported radar field records with
      | none => rfl
      | some value => exact (reports radar field value last).symm

/-- What is ahead of the fault leaves no trace exactly if it is uneventful. -/
theorem unchanged_iff (p : AsterixParser) (ahead : Ahead) :
    Unchanged p ((p.takeAll floats ahead.records).1.ignoring ahead.ignored) ↔ Uneventful p ahead := by
  have radars := radarStatus_same_iff floats p ahead.records
  have north := counter_same_iff (northMarkers_takeAll floats p ahead.records)
  have crossings := counter_same_iff (sectorCrossings_takeAll floats p ahead.records)
  have strobes := counter_same_iff (jammingStrobes_takeAll floats p ahead.records)
  have blocks : ((p.takeAll floats ahead.records).1.ignoring ahead.ignored).ignoredBlocks = p.ignoredBlocks + ahead.ignored :=
    congrArg (· + ahead.ignored) (ignoredBlocks_takeAll floats p ahead.records)
  constructor
  · intro same
    obtain ⟨known, values⟩ := radars.mp same.radarStatus
    have ignored := blocks.symm.trans same.ignoredBlocks
    refine ⟨by omega, ?_, known, values⟩
    intro record member
    rw [uncounted_iff]
    exact ⟨north.mp same.northMarkers record member, crossings.mp same.sectorCrossings record member,
      strobes.mp same.jammingStrobes record member⟩
  · intro quiet
    have uncounted := fun record member => (uncounted_iff _).mp (quiet.types record member)
    refine ⟨radars.mpr ⟨quiet.radars, quiet.values⟩, ?_, ?_, ?_, ?_, ?_⟩
    · exact north.mpr fun record member => (uncounted record member).1
    · exact crossings.mpr fun record member => (uncounted record member).2.1
    · exact strobes.mpr fun record member => (uncounted record member).2.2
    · exact radarDegraded_takeAll floats p fun record member => beq_eq_false_iff_ne.mp (uncounted record member).1
    · rw [blocks, quiet.blocks, Nat.add_zero]

/-- A rejected datagram leaves no trace exactly if nothing ahead of its fault tells the parser anything new. -/
theorem rejected_datagram_leaves_no_trace_iff (decoders : Decoders) (p : AsterixParser) (frame : Bytes) :
    LeavesNoTrace floats decoders p frame ↔
      (∀ e, (scan frame).outcome = .error e → Uneventful p (scan frame)) := by
  obtain ⟨parser, outcome⟩ := parseDatagram_eq floats decoders p frame
  have rejected : ∀ e, (p.parseDatagram floats decoders frame).2 = .error e ↔ (scan frame).outcome = .error e := by
    intro e
    cases found : (p.parseDatagram floats decoders frame).2 with
    | error fault =>
      cases ended : (scan frame).outcome with
      | error same =>
        rw [found, ended] at outcome
        rw [show fault = same from Except.error.inj outcome, Except.error.injEq, Except.error.injEq]
      | ok _ =>
        rw [found, ended] at outcome
        cases outcome
    | ok tracks =>
      cases ended : (scan frame).outcome with
      | error same =>
        rw [found, ended] at outcome
        cases outcome
      | ok _ => exact iff_of_false (fun wrong => by cases wrong) fun wrong => by cases wrong
  unfold LeavesNoTrace
  rw [parser, unchanged_iff]
  exact forall_congr' fun e => imp_congr_left (rejected e)

end

/-- A north marker in a good block, then a block that declares more octets than there are. -/
theorem north_marker_of_rejected_datagram_is_counted :
    ¬ ∀ (floats : Floats) (decoders : Decoders) (p : AsterixParser) (frame : Bytes),
      LeavesNoTrace floats decoders p frame := by
  intro all
  have rejected : (AsterixParser.parseDatagram Floats.idle unpositioned {}
      [34, 0, 7, 0xc0, 25, 10, 1, 48, 0xff, 0xff]).2 = .error (.badBlock (some 48) 65535 3) := by decide
  have same := (all Floats.idle unpositioned {} _ _ rejected).northMarkers
  revert same
  decide

end AsterixProof
