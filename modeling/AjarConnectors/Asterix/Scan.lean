import AjarConnectors.Asterix.Datagrams
import Mathlib.Data.List.Induction

namespace AsterixModel

open EventModel

/-- The items of a walked record and its bytes. -/
abbrev Walked := Items × Bytes

/-- The records of a data block up to its end or its first fault. -/
def recordsAhead (cat : UInt8) (uap : Uap) (block : Bytes) (fuel off : Nat) : List Walked × Except AsterixError Unit :=
  walkRecords cat uap block (fun walked items raw => walked ++ [(items, raw)]) fuel off []

/-- The CAT034 records in one data block. -/
def serviceAhead (frame : Bytes) : List Walked × Except AsterixError Unit :=
  match blockHeader frame with
  | .error e => ([], .error e)
  | .ok (cat, len) => if cat ≠ 34 then ([], .ok ()) else recordsAhead cat Cat034.uap (frame.take len) len 3

/-- What a datagram holds up to its end or its first fault: its CAT034 records, and how many blocks of
    an unknown category. -/
structure Ahead where
  records : List Walked := []
  ignored : Nat := 0
  outcome : Except AsterixError Unit := .ok ()

def scanBlocks : Nat → Bytes → Ahead
  | 0, _ => {}
  | fuel + 1, rest =>
    if rest = [] then {}
    else match blockHeader rest with
      | .error e => { outcome := .error e }
      | .ok (cat, len) =>
        let later := scanBlocks fuel (rest.drop len)
        match uapOf cat with
        | none => { later with ignored := later.ignored + 1 }
        | some uap =>
          let (walked, outcome) := recordsAhead cat uap (rest.take len) len 3
          let service := if cat = 34 then walked else []
          match outcome with
          | .error e => { records := service, outcome := .error e }
          | .ok () => { later with records := service ++ later.records }

def scan (frame : Bytes) : Ahead := scanBlocks frame.length frame

namespace AsterixParser

/-- The records taken one after the other. -/
def takeAll (floats : Floats) (p : AsterixParser) (records : List Walked) : AsterixParser × List ServiceReport :=
  records.foldl (fun state walked => takeReport floats state walked.1 walked.2) (p, [])

def ignoring (p : AsterixParser) (blocks : Nat) : AsterixParser := { p with ignoredBlocks := p.ignoredBlocks + blocks }

end AsterixParser

end AsterixModel

namespace AsterixProof

open AsterixModel EventModel

/-- What the record loop visits does not depend on the visitor. -/
theorem walkRecords_visits (cat : UInt8) (uap : Uap) (block : Bytes) (fuel off : Nat) :
    ∃ (records : List Walked) (outcome : Except AsterixError Unit), ∀ {σ : Type} (visit : σ → Items → Bytes → σ) (state : σ),
      walkRecords cat uap block visit fuel off state =
        (records.foldl (fun s walked => visit s walked.1 walked.2) state, outcome) := by
  induction fuel generalizing off with
  | zero => exact ⟨[], .ok (), fun _ _ => rfl⟩
  | succ fuel ih =>
    by_cases done : block.length ≤ off
    · refine ⟨[], .ok (), ?_⟩
      intro σ visit state
      rw [walkRecords, if_pos done]
      rfl
    · cases walked : walkRecord cat uap block off with
      | error e =>
        refine ⟨[], .error e, ?_⟩
        intro σ visit state
        rw [walkRecords, if_neg done, walked]
        rfl
      | ok found =>
        obtain ⟨records, outcome, same⟩ := ih found.2
        refine ⟨(found.1, (block.take found.2).drop off) :: records, outcome, ?_⟩
        intro σ visit state
        rw [walkRecords, if_neg done, walked]
        exact same visit _

theorem foldl_collect (records before : List Walked) :
    records.foldl (fun walked (w : Walked) => walked ++ [(w.1, w.2)]) before = before ++ records := by
  induction records generalizing before with
  | nil => exact (List.append_nil before).symm
  | cons record records ih => rw [List.foldl_cons, ih, List.append_assoc, List.singleton_append]

theorem walkRecords_eq {σ : Type} (cat : UInt8) (uap : Uap) (block : Bytes) (visit : σ → Items → Bytes → σ)
    (fuel off : Nat) (state : σ) :
    walkRecords cat uap block visit fuel off state =
      ((recordsAhead cat uap block fuel off).1.foldl (fun s walked => visit s walked.1 walked.2) state,
        (recordsAhead cat uap block fuel off).2) := by
  obtain ⟨records, outcome, same⟩ := walkRecords_visits cat uap block fuel off
  rw [recordsAhead, same visit, same, foldl_collect, List.nil_append]

theorem blockHeader_take {frame : Bytes} {cat : UInt8} {len : Nat} (header : blockHeader frame = .ok (cat, len)) :
    blockHeader (frame.take len) = .ok (cat, len) := by
  match frame with
  | [] | [_] | [_, _] => cases header
  | first :: hi :: lo :: body =>
    unfold blockHeader at header
    dsimp only at header
    split at header
    · cases header
    · rename_i enough
      cases header
      obtain ⟨n, size⟩ : ∃ n, hi.toNat * 256 + lo.toNat = n + 3 := ⟨hi.toNat * 256 + lo.toNat - 3, by omega⟩
      have cut : (cat :: hi :: lo :: body).take (hi.toNat * 256 + lo.toNat) = cat :: hi :: lo :: body.take n := by
        rw [size]
        rfl
      have long : (cat :: hi :: lo :: body.take n).length = hi.toNat * 256 + lo.toNat := by
        rw [← cut, List.length_take]
        omega
      rw [cut]
      unfold blockHeader
      dsimp only
      rw [if_neg (by omega)]

section

variable (floats : Floats) (decoders : Decoders)

/-- The reports taken before are kept as they are. -/
theorem takeAll_append (p : AsterixParser) (before after : List Walked) :
    p.takeAll floats (before ++ after) =
      (((p.takeAll floats before).1.takeAll floats after).1,
        (p.takeAll floats before).2 ++ ((p.takeAll floats before).1.takeAll floats after).2) := by
  have from_reports : ∀ (records : List Walked) (q : AsterixParser) (reports : List ServiceReport),
      records.foldl (fun state walked => takeReport floats state walked.1 walked.2) (q, reports) =
        ((q.takeAll floats records).1, reports ++ (q.takeAll floats records).2) := by
    intro records
    induction records with
    | nil =>
      intro q reports
      exact congrArg (Prod.mk q) (List.append_nil reports).symm
    | cons record records ih =>
      intro q reports
      rw [AsterixParser.takeAll, List.foldl_cons, List.foldl_cons, ih, ih _ (takeReport floats (q, []) record.1 record.2).2,
        ← List.append_assoc]
      rfl
  rw [AsterixParser.takeAll, List.foldl_append]
  exact from_reports after _ _

theorem takeReport_ignoring (p : AsterixParser) (reports : List ServiceReport) (items : Items) (raw : Bytes) (blocks : Nat) :
    takeReport floats (p.ignoring blocks, reports) items raw =
      ((takeReport floats (p, reports) items raw).1.ignoring blocks, (takeReport floats (p, reports) items raw).2) := by
  unfold takeReport AsterixParser.ignoring
  dsimp only
  congr 1
  split_ifs <;> rfl

theorem takeAll_ignoring (p : AsterixParser) (records : List Walked) (blocks : Nat) :
    (p.ignoring blocks).takeAll floats records =
      ((p.takeAll floats records).1.ignoring blocks, (p.takeAll floats records).2) := by
  induction records using List.reverseRecOn with
  | nil => rfl
  | append_singleton records record ih =>
    have last : ∀ q : AsterixParser, q.takeAll floats (records ++ [record]) =
        takeReport floats (q.takeAll floats records) record.1 record.2 := by
      intro q
      rw [AsterixParser.takeAll, List.foldl_append]
      rfl
    rw [last, last, ih, takeReport_ignoring]

theorem parseServiceBlock_eq (p : AsterixParser) (frame : Bytes) :
    p.parseServiceBlock floats frame =
      ((p.takeAll floats (serviceAhead frame).1).1,
        (serviceAhead frame).2.map fun _ => (p.takeAll floats (serviceAhead frame).1).2) := by
  unfold AsterixParser.parseServiceBlock serviceAhead
  cases blockHeader frame with
  | error e => rfl
  | ok header =>
    dsimp only
    split
    · rfl
    · rw [walkRecords_eq]
      cases outcome : (recordsAhead header.1 Cat034.uap (frame.take header.2) header.2 3).2 with
      | error e => rfl
      | ok _ => rfl

/-- A block of tracks leaves the parser as it is and fails with its first bad record. -/
theorem parseBlock_outcome (p : AsterixParser) {frame : Bytes} {cat : UInt8} {len : Nat} {uap : Uap}
    (header : blockHeader frame = .ok (cat, len)) {decode : Items → AsterixTarget}
    (found : decoders.find p.sensor cat = some (uap, decode)) :
    (p.parseBlock decoders frame).map (fun _ => ()) = (recordsAhead cat uap (frame.take len) len 3).2 := by
  unfold AsterixParser.parseBlock
  rw [header]
  dsimp only
  rw [found]
  dsimp only
  rw [walkRecords_eq]
  cases outcome : (recordsAhead cat uap (frame.take len) len 3).2 with
  | error e => rfl
  | ok _ => rfl

/-- Whatever the tracks are, the parser takes the CAT034 records and counts the unknown blocks ahead of the
    first fault, and its reports are given up only with the fault. -/
theorem parseBlocks_eq (fuel : Nat) (rest : Bytes) (p : AsterixParser) (targets : List AsterixTarget)
    (reports : List ServiceReport) :
    (AsterixParser.parseBlocks floats decoders fuel rest p targets reports).1 =
      (p.takeAll floats (scanBlocks fuel rest).records).1.ignoring (scanBlocks fuel rest).ignored ∧
    (AsterixParser.parseBlocks floats decoders fuel rest p targets reports).2.map Prod.snd =
      (scanBlocks fuel rest).outcome.map fun _ => reports ++ (p.takeAll floats (scanBlocks fuel rest).records).2 := by
  induction fuel generalizing rest p targets reports with
  | zero => exact ⟨rfl, congrArg Except.ok (List.append_nil reports).symm⟩
  | succ fuel ih =>
    unfold AsterixParser.parseBlocks scanBlocks
    by_cases empty : rest = []
    · rw [if_pos empty, if_pos empty]
      exact ⟨rfl, congrArg Except.ok (List.append_nil reports).symm⟩
    rw [if_neg empty, if_neg empty]
    cases header : blockHeader rest with
    | error e => exact ⟨rfl, rfl⟩
    | ok found =>
      obtain ⟨cat, len⟩ := found
      have inner := blockHeader_take header
      dsimp only
      cases known : uapOf cat with
      | none =>
        obtain ⟨noTrack, noService⟩ := uapOf_none known
        rw [if_neg noTrack, if_neg noService]
        obtain ⟨parser, outcome⟩ := ih (rest.drop len) (p.ignoring 1) targets reports
        rw [takeAll_ignoring] at parser outcome
        refine ⟨parser.trans ?_, outcome⟩
        unfold AsterixParser.ignoring
        dsimp only
        rw [Nat.add_assoc, Nat.add_comm 1]
      | some uap =>
        rcases uapOf_cases decoders p.sensor known with ⟨rfl, rfl, -⟩ | ⟨track, decode, decoder⟩
        · have ahead : serviceAhead (rest.take len) = recordsAhead 34 Cat034.uap (rest.take len) len 3 := by
            unfold serviceAhead
            rw [inner]
            dsimp only
            rw [if_neg (by decide), List.take_take, Nat.min_self]
          rw [if_neg (by decide), if_pos rfl, parseServiceBlock_eq, ahead]
          dsimp only
          rw [if_pos rfl]
          cases outcome : (recordsAhead 34 Cat034.uap (rest.take len) len 3).2 with
          | error e => exact ⟨rfl, rfl⟩
          | ok _ =>
            obtain ⟨parser, later⟩ := ih (rest.drop len)
              (p.takeAll floats (recordsAhead 34 Cat034.uap (rest.take len) len 3).1).1 targets
              (reports ++ (p.takeAll floats (recordsAhead 34 Cat034.uap (rest.take len) len 3).1).2)
            rw [List.append_assoc] at later
            dsimp only
            rw [takeAll_append]
            exact ⟨parser, later⟩
        · have service : cat ≠ 34 := by
            rintro rfl
            exact absurd track (by decide)
          have alone := parseBlock_outcome decoders p inner decoder
          rw [List.take_take, Nat.min_self] at alone
          rw [if_pos track]
          dsimp only
          rw [if_neg service, ← alone]
          cases p.parseBlock decoders (rest.take len) with
          | error e => exact ⟨rfl, rfl⟩
          | ok tracks => exact ih (rest.drop len) p (targets ++ tracks) reports

theorem parseDatagram_eq (p : AsterixParser) (frame : Bytes) :
    (p.parseDatagram floats decoders frame).1 = (p.takeAll floats (scan frame).records).1.ignoring (scan frame).ignored ∧
    (p.parseDatagram floats decoders frame).2.map Prod.snd =
      (scan frame).outcome.map fun _ => (p.takeAll floats (scan frame).records).2 :=
  parseBlocks_eq floats decoders frame.length frame p [] []

end

end AsterixProof
