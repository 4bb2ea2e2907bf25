import AjarConnectors.Asterix.Events
import AjarConnectors.Gmti.Uids

namespace AsterixModel

open EventModel BuilderModel

/-- What a subject is known by: a radar by its site, a track by its address, else by its number at a site, else by the
site. -/
inductive Subject.Key where
  | radar (sac sic : UInt8)
  | address (icao : Nat)
  | track (category sac sic : UInt8) (number : Option Nat)
  deriving DecidableEq

def Subject.key : Subject → Subject.Key
  | .radar r => .radar r.sac r.sic
  | .track t => match t.icao with
    | some icao => .address icao
    | none => .track t.category t.sac t.sic t.track

end AsterixModel

namespace AsterixProof

open EventModel BuilderModel BuilderProof AsterixModel

section

theorem hexDigit_idx : ∀ d < 16, "0123456789ABCDEF".toList.idxOf (hexDigit d) = d := by decide

theorem hexDigit_no_colon : ∀ d < 16, hexDigit d ≠ ':' := by decide

theorem padded_lt (n : Nat) : ∀ d ∈ (Nat.digits 16 n).rightpad 6 0, d < 16 := by
  intro d member
  rw [List.rightpad, List.mem_append] at member
  rcases member with own | filler
  · exact Nat.digits_lt_base (by decide) own
  · rw [(List.mem_replicate.mp filler).2]
    decide

theorem hex06_injective : Function.Injective hex06 := by
  have read : ∀ n, Nat.ofDigits 16 ((hex06 n).toList.reverse.map "0123456789ABCDEF".toList.idxOf) = n := by
    intro n
    have back : (((Nat.digits 16 n).rightpad 6 0).map hexDigit).map "0123456789ABCDEF".toList.idxOf =
        (Nat.digits 16 n).rightpad 6 0 := by
      rw [List.map_map]
      exact (List.map_congr_left fun d member => hexDigit_idx d (padded_lt n d member)).trans (List.map_id _)
    have text : (hex06 n).toList.reverse = ((Nat.digits 16 n).rightpad 6 0).map hexDigit := by
      rw [hex06, String.toList_ofList, List.reverse_reverse]
    rw [text, back, List.rightpad, Nat.ofDigits_append_replicate_zero, Nat.ofDigits_digits]
  intro m n same
  rw [← read m, same, read n]

theorem hex06_no_colon (n : Nat) : ':' ∉ (hex06 n).toList := by
  rw [hex06, String.toList_ofList, List.mem_reverse, List.mem_map]
  rintro ⟨d, member, colon⟩
  exact hexDigit_no_colon d (padded_lt n d member) colon

theorem octet_injective {a b : UInt8} (same : (toString a.toNat).toList = (toString b.toNat).toList) : a = b :=
  UInt8.toNat_inj.mp (ReportProof.toString_injective (String.toList_injective same))

def uidParts : Subject.Key → List (List Char)
  | .radar sac sic => ["asterix".toList, "radar".toList, (toString sac.toNat).toList, (toString sic.toNat).toList]
  | .address icao => ["icao".toList, (hex06 icao).toList]
  | .track category sac sic number =>
    ["asterix".toList, (toString category.toNat).toList, (toString sac.toNat).toList, (toString sic.toNat).toList] ++
      number.toList.map fun n => (toString n).toList

theorem uid_parts (s : Subject) : s.uid.toList = [':'].intercalate (uidParts s.key) := by
  cases s with
  | radar r => simp [Subject.uid, Subject.key, uidParts, List.intercalate]
  | track t =>
    cases icao : t.icao with
    | some address => simp [Subject.uid, Subject.key, uidParts, TrackReport.sourceUid, icao, List.intercalate]
    | none =>
      cases number : t.track with
      | none =>
        simp [Subject.uid, Subject.key, uidParts, TrackReport.sourceUid, TrackReport.site, icao, number, List.intercalate]
      | some n =>
        simp [Subject.uid, Subject.key, uidParts, TrackReport.sourceUid, TrackReport.site, icao, number, List.intercalate]

theorem uidParts_clean (k : Subject.Key) : ∀ part ∈ uidParts k, ':' ∉ part := by
  have digits : ∀ n, ':' ∉ Nat.toDigits 10 n := fun n => Nat.toList_repr ▸ GmtiProof.digits_no_colon n
  cases k with
  | radar sac sic => simp [uidParts, digits]
  | address icao => simp [uidParts, hex06_no_colon]
  | track category sac sic number => cases number <;> simp [uidParts, digits]

theorem radar_no_number (n : Nat) : "radar".toList ≠ (toString n).toList := by
  intro same
  have member : 'r' ∈ (toString n).toList := same ▸ by decide
  have digit := Nat.isDigit_of_mem_toDigits (by decide) (by decide) (Nat.toList_repr ▸ member)
  exact absurd digit (by decide)

theorem uidParts_injective : Function.Injective uidParts := by
  intro k l same
  cases k with
  | radar sac sic =>
    cases l with
    | radar sac' sic' =>
      simp only [uidParts, List.cons.injEq, true_and, and_true] at same
      rw [octet_injective same.1, octet_injective same.2]
    | address icao => exact absurd (congrArg List.length same) (by simp [uidParts])
    | track category sac' sic' number =>
      simp only [uidParts, List.cons_append, List.cons.injEq, true_and] at same
      exact absurd same.1 (radar_no_number _)
  | address icao =>
    cases l with
    | radar sac sic => exact absurd (congrArg List.length same) (by simp [uidParts])
    | address icao' =>
      simp only [uidParts, List.cons.injEq, true_and, and_true] at same
      rw [hex06_injective (String.toList_injective same)]
    | track category sac sic number =>
      have long := congrArg List.length same
      simp [uidParts] at long
  | track category sac sic number =>
    cases l with
    | radar sac' sic' =>
      simp only [uidParts, List.cons_append, List.cons.injEq, true_and] at same
      exact absurd same.1.symm (radar_no_number _)
    | address icao =>
      have long := congrArg List.length same
      simp [uidParts] at long
    | track category' sac' sic' number' =>
      simp only [uidParts, List.cons_append, List.cons.injEq, true_and, List.nil_append] at same
      obtain ⟨category_same, sac_same, sic_same, rest⟩ := same
      have numbers : number = number' := by
        cases number with
        | none => cases number' with
          | none => rfl
          | some m => cases rest
        | some n => cases number' with
          | none => cases rest
          | some m =>
            have digits := (List.cons.inj rest).1
            rw [ReportProof.toString_injective (String.toList_injective digits)]
      rw [octet_injective category_same, octet_injective sac_same, octet_injective sic_same, numbers]

theorem uid_iff (s s' : Subject) : s.uid = s'.uid ↔ s.key = s'.key := by
  constructor
  · intro same
    have texts : [':'].intercalate (uidParts s.key) = [':'].intercalate (uidParts s'.key) := by
      rw [← uid_parts, ← uid_parts, same]
    have filled : ∀ k : Subject.Key, uidParts k ≠ [] := by
      intro k
      cases k <;> simp [uidParts]
    have parts := congrArg (List.splitOn ':') texts
    rw [List.splitOn_intercalate ':' (uidParts_clean _) (filled _),
      List.splitOn_intercalate ':' (uidParts_clean _) (filled _)] at parts
    exact uidParts_injective parts
  · intro same
    rw [← String.toList_inj, uid_parts, uid_parts, same]

end

section

variable (platform : Platform) {p p' : Publisher} {draws draws' : Nat → Draw}

/-- The subjects that are published of a datagram. -/
def Decodes (p : Publisher) (frame : Bytes) (told : List Subject) : Prop :=
  ∃ q targets reports, p.toAsterixParser.parseDatagramChecked platform.toSphere frame = some (q, .ok (targets, reports)) ∧
    told = subjects targets reports

/-- The events of a datagram tell its subjects, one each. -/
theorem parse_tells (labelled : p.Labelled) (dated : ∀ i, Rust.isRfc3339 (draws i).now = true) {frame : Bytes}
    {q : Publisher} {events : List Event} (parsed : p.parse platform draws frame = some (q, .ok events)) :
    ∃ told r, Decodes platform p frame told ∧ Published platform { p with toAsterixParser := r } draws 0 told events := by
  obtain ⟨r, outcome, read, -⟩ := parseDatagramChecked_eq platform.toSphere p.toAsterixParser frame
  cases outcome with
  | error e =>
    rw [Publisher.parse, read] at parsed
    cases parsed
  | ok both =>
    obtain ⟨targets, reports⟩ := both
    obtain ⟨accepted, refused⟩ := parse_accepted platform labelled dated read
    by_cases valid : ∀ s ∈ subjects targets reports, s.Valid platform { p with toAsterixParser := r }
    · obtain ⟨made, whole, each⟩ := accepted valid
      rw [whole] at parsed
      cases parsed
      exact ⟨_, r, ⟨_, _, _, read, rfl⟩, each⟩
    · obtain ⟨n, e, -, whole⟩ := refused valid
      rw [whole] at parsed
      cases parsed

theorem published_uid {told : List Subject} {events : List Event}
    (each : Published platform p draws 0 told events) {i : Nat}
    {s : Subject} {event : Event} (subject : told[i]? = some s) (found : events[i]? = some event) (value : String) :
    ⟨"source_uid", value⟩ ∈ event.metadata ↔ value = s.uid := by
  have entry : (told.zipIdx 0)[i]? = some (s, i) := by
    rw [List.getElem?_zipIdx, subject, Option.map_some, Nat.zero_add]
  obtain ⟨inside, here⟩ := List.getElem?_eq_some_iff.mp entry
  obtain ⟨inside', here'⟩ := List.getElem?_eq_some_iff.mp found
  have tells := each.get inside inside'
  rw [List.get_eq_getElem, List.get_eq_getElem, here, here'] at tells
  exact tells.uid value

/-- Events of any two datagrams, whatever the parser has seen before each, have the same source uid exactly if they are
about the same radar, the same aircraft address, or the same track number of the same category and site. -/
theorem uids_tell_subjects (labelled : p.Labelled) (labelled' : p'.Labelled)
    (dated : ∀ i, Rust.isRfc3339 (draws i).now = true) (dated' : ∀ i, Rust.isRfc3339 (draws' i).now = true)
    {frame frame' : Bytes} {q q' : Publisher} {events events' : List Event}
    (parsed : p.parse platform draws frame = some (q, .ok events))
    (parsed' : p'.parse platform draws' frame' = some (q', .ok events')) :
    ∃ told told', Decodes platform p frame told ∧ Decodes platform p' frame' told' ∧
      told.length = events.length ∧ told'.length = events'.length ∧
      ∀ (i j : Nat) s s' event event', told[i]? = some s → events[i]? = some event → told'[j]? = some s' →
        events'[j]? = some event' →
        ((∃ value, ⟨"source_uid", value⟩ ∈ event.metadata ∧ ⟨"source_uid", value⟩ ∈ event'.metadata) ↔
          s.key = s'.key) := by
  obtain ⟨told, r, decodes, each⟩ := parse_tells platform labelled dated parsed
  obtain ⟨told', r', decodes', each'⟩ := parse_tells platform labelled' dated' parsed'
  have length := each.length_eq
  have length' := each'.length_eq
  rw [List.length_zipIdx] at length length'
  refine ⟨told, told', decodes, decodes', length, length', ?_⟩
  intro i j s s' event event' subject found subject' found'
  rw [← uid_iff]
  constructor
  · rintro ⟨value, here, there⟩
    rw [← (published_uid platform each subject found value).mp here]
    exact (published_uid platform each' subject' found' value).mp there
  · intro same
    refine ⟨s.uid, (published_uid platform each subject found _).mpr rfl, ?_⟩
    exact (published_uid platform each' subject' found' _).mpr same

end

theorem heard_published (sic : UInt8) (read : markerRead sic = some (true, some (0, [heard sic]))) : ∃ q event,
    radarSite.parse stillPlatform atNoon (marker sic) = some (q, .ok [event]) ∧
    Decodes stillPlatform radarSite (marker sic) [.radar (heard sic)] := by
  obtain ⟨q, parsed, nowhere⟩ := marker_read sic read
  obtain ⟨events, whole, each⟩ := (parse_accepted stillPlatform radarSite_labelled noon_dated parsed).1
    (heard_valid nowhere sic)
  obtain ⟨event, others, -, rest, rfl⟩ := List.forall₂_cons_left_iff.mp each
  cases rest
  exact ⟨_, event, whole, q, [], [heard sic], parsed, rfl⟩

theorem markers_are_told_apart : ∃ q q' event event',
    radarSite.parse stillPlatform atNoon (marker 2) = some (q, .ok [event]) ∧
    radarSite.parse stillPlatform atNoon (marker 3) = some (q', .ok [event']) ∧
    ¬∃ value, ⟨"source_uid", value⟩ ∈ event.metadata ∧ ⟨"source_uid", value⟩ ∈ event'.metadata := by
  obtain ⟨q, event, parsed, r, targets, reports, read, list⟩ := heard_published 2 (by decide +kernel)
  obtain ⟨q', event', parsed', r', targets', reports', read', list'⟩ := heard_published 3 (by decide +kernel)
  refine ⟨q, q', event, event', parsed, parsed', ?_⟩
  obtain ⟨told, told', ⟨_, _, _, again, rfl⟩, ⟨_, _, _, again', rfl⟩, -, -, apart⟩ :=
    uids_tell_subjects stillPlatform radarSite_labelled radarSite_labelled noon_dated noon_dated parsed parsed'
  rw [read] at again
  rw [read'] at again'
  cases again
  cases again'
  rw [← list, ← list'] at apart
  rw [apart 0 0 _ _ _ _ rfl rfl rfl rfl]
  decide

end AsterixProof
