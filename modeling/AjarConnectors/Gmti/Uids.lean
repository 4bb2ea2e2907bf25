import AjarConnectors.Gmti.Parser
import AjarConnectors.Sapient.Published

namespace GmtiModel

open EventModel BuilderModel HttpModel

/-- What sets a target report apart in the format: its place in the dwell of a revisit. -/
structure Detection where
  platform : Text
  jobId : Nat
  revisit : Nat
  dwellIndex : Nat
  place : Nat
  deriving DecidableEq

def Packet.detections (p : Packet) : List Detection :=
  p.segments.flatMap fun s => (List.range s.reports.length).map fun place =>
    ⟨p.platform, p.jobId, s.dwell.revisit, s.dwell.dwellIndex, place⟩

def packetOf (a : Arrival) : List Packet := (readPacket a.frame).toOption.toList

/-- No two target reports of the packets are the same detection. -/
def Apart (arrivals : List Arrival) : Prop := ((arrivals.flatMap packetOf).flatMap Packet.detections).Nodup

/-- A report has a hi-res position, or a delta that its dwell can scale. -/
def hasPosition (d : Dwell) (r : Report) : Bool :=
  r.hrLat.isSome && r.hrLon.isSome ||
    r.deltaLat.isSome && r.deltaLon.isSome && d.latScale.isSome && d.lonScale.isSome

/-- The fields of a report that its uid is made of. -/
structure UidFields where
  platform : Text
  jobId : Nat
  dwellIndex : Nat
  mtiIndex : Option Nat
  deriving DecidableEq

def GmtiTarget.uidFields (t : GmtiTarget) : UidFields := ⟨t.platform, t.jobId, t.dwellIndex, t.mtiIndex⟩

/-- The uid fields of the located reports of a packet. -/
def Packet.located (p : Packet) : List UidFields :=
  p.segments.flatMap fun s => (s.reports.filter (hasPosition s.dwell)).map fun r =>
    ⟨p.platform, p.jobId, s.dwell.dwellIndex, r.mtiIndex⟩

variable (floats : Floats)

/-- What the event builder asks of a target: a source id, and a valid time of receipt and place. -/
def GmtiParser.builds (p : GmtiParser) (t : GmtiTarget) (clock : String) : Bool :=
  p.sourceId != "" && Rust.isRfc3339 clock && Rust.validLocation ⟨t.lat, t.lon, t.heightM.getD .zero⟩

/-- A packet of which every located report can be built. -/
def GmtiParser.accepted (p : GmtiParser) (a : Arrival) : List Packet :=
  (packetOf a).filter fun packet => (packet.targets floats).zipIdx.all fun entry => p.builds entry.1 (a.clock entry.2)

def GmtiParser.events (p : GmtiParser) (arrivals : List Arrival) : List Event :=
  arrivals.flatMap fun a => (p.parse floats a).toOption.getD []

def uidOf (event : Event) : Option String := (event.metadata.find? fun m => m.key == "source_uid").map Attribute.value

end GmtiModel

namespace GmtiProof

open GmtiModel EventModel BuilderModel BuilderProof
open HttpModel (Text Bytes)

variable (floats : Floats)

theorem digits_no_colon (n : Nat) : ':' ∉ (toString n).toList := by
  intro member
  have digit := Nat.isDigit_of_mem_toDigits (by decide) (by decide) (Nat.toList_repr ▸ member)
  exact absurd digit (by decide)

/-- What follows the last colon, and what stands before it. -/
theorem last_colon {a a' b b' : List Char} (clean : ':' ∉ b) (clean' : ':' ∉ b') (same : a ++ ':' :: b = a' ++ ':' :: b') :
    a = a' ∧ b = b' := by
  have back := congrArg List.reverse same
  rw [List.reverse_append, List.reverse_append, List.reverse_cons, List.reverse_cons, List.append_assoc, List.append_assoc,
    List.singleton_append, List.singleton_append] at back
  have front : ∀ {c : List Char}, ':' ∉ c → ∀ rest, (c.reverse ++ ':' :: rest).takeWhile (· ≠ ':') = c.reverse := by
    intro c none rest
    rw [List.takeWhile_append_of_pos]
    · simp
    · intro x member
      have other : x ≠ ':' := fun equal => none (equal ▸ List.mem_reverse.mp member)
      simpa using other
  have ends := congrArg (List.takeWhile (· ≠ ':')) back
  rw [front clean, front clean'] at ends
  rw [ends] at back
  have starts := List.append_cancel_left back
  rw [List.cons_eq_cons] at starts
  exact ⟨List.reverse_injective starts.2, List.reverse_injective ends⟩

def reportText (mtiIndex : Option Nat) : String :=
  match mtiIndex with
  | some i => toString i
  | none => "na"

theorem reportText_no_colon (mtiIndex : Option Nat) : ':' ∉ (reportText mtiIndex).toList := by
  cases mtiIndex with
  | none => decide
  | some i => exact digits_no_colon i

theorem reportText_injective {i j : Option Nat} (same : reportText i = reportText j) : i = j := by
  have letters : ∀ n : Nat, toString n ≠ "na" := by
    intro n equal
    have first : 'n' ∈ (toString n).toList := by
      rw [equal]
      decide
    have digit := Nat.isDigit_of_mem_toDigits (by decide) (by decide) (Nat.toList_repr ▸ first)
    exact absurd digit (by decide)
  cases i with
  | none =>
    cases j with
    | none => rfl
    | some j => exact absurd same.symm (letters j)
  | some i =>
    cases j with
    | none => exact absurd same (letters i)
    | some j => exact congrArg some (ReportProof.toString_injective same)

/-- A uid spells its fields, whatever the platform is called. -/
theorem sourceUid_inj {t t' : GmtiTarget} : sourceUid t = sourceUid t' ↔ t.uidFields = t'.uidFields := by
  constructor
  · intro same
    have spelled : ∀ t : GmtiTarget, (sourceUid t).toList =
        ((t.platform ++ ':' :: (toString t.jobId).toList) ++ ':' :: (toString t.dwellIndex).toList) ++
          ':' :: (reportText t.mtiIndex).toList := by
      intro t
      change (String.ofList t.platform ++ ":" ++ toString t.jobId ++ ":" ++ toString t.dwellIndex ++ ":" ++
        reportText t.mtiIndex).toList = _
      simp
    have texts := congrArg String.toList same
    rw [spelled, spelled] at texts
    obtain ⟨rest, report⟩ := last_colon (reportText_no_colon _) (reportText_no_colon _) texts
    obtain ⟨rest, dwell⟩ := last_colon (digits_no_colon _) (digits_no_colon _) rest
    obtain ⟨platform, job⟩ := last_colon (digits_no_colon _) (digits_no_colon _) rest
    unfold GmtiTarget.uidFields
    rw [platform, ReportProof.toString_injective (String.toList_injective job),
      ReportProof.toString_injective (String.toList_injective dwell),
      reportText_injective (String.toList_injective report)]
  · intro same
    obtain ⟨platform, job, dwell, report⟩ := UidFields.mk.inj same
    unfold sourceUid
    rw [platform, job, dwell, report]

theorem position_isSome (d : Dwell) (r : Report) : (position floats d r).isSome = hasPosition d r := by
  unfold position hasPosition
  cases r.hrLat <;> cases r.hrLon <;> cases r.deltaLat <;> cases r.deltaLon <;> cases d.latScale <;> cases d.lonScale <;> rfl

theorem locate_uidFields (platform : Text) (jobId : Nat) (s : Segment) (r : Report) :
    (locate floats platform jobId s r).map GmtiTarget.uidFields =
      if hasPosition s.dwell r then some ⟨platform, jobId, s.dwell.dwellIndex, r.mtiIndex⟩ else none := by
  rw [← position_isSome floats]
  unfold locate
  cases position floats s.dwell r <;> rfl

theorem targets_located (p : Packet) : (p.targets floats).map GmtiTarget.uidFields = p.located := by
  unfold Packet.targets Packet.located
  rw [List.map_flatMap]
  congr 1
  funext s
  rw [List.map_filterMap]
  simp only [locate_uidFields]
  induction s.reports with
  | nil => rfl
  | cons r reports ih =>
    rw [List.filterMap_cons, List.filter_cons]
    split
    · rename_i absent
      rw [if_neg (by rintro there; rw [if_pos there] at absent; cases absent)]
      exact ih
    · rename_i fields there
      split at there
      · cases there
        rename_i has
        rw [if_pos has, List.map_cons, ih]
      · cases there

theorem mapM_forall₂ {α β ε : Type} {f : α → Except ε β} {l : List α} {out : List β} (read : l.mapM f = .ok out) :
    List.Forall₂ (fun a b => f a = .ok b) l out := by
  induction l generalizing out with
  | nil =>
    cases read
    exact List.Forall₂.nil
  | cons a l ih =>
    rw [List.mapM_cons] at read
    cases first : f a with
    | error e =>
      rw [first] at read
      cases read
    | ok b =>
      rw [first] at read
      cases rest : l.mapM f with
      | error e =>
        rw [rest] at read
        cases read
      | ok later =>
        rw [rest] at read
        cases read
        exact List.Forall₂.cons first (ih rest)

theorem build_uid {p : GmtiParser} {a : Arrival} {i : Nat} {t : GmtiTarget} {event : Event}
    (built : p.build floats a i t = .ok event) : uidOf event = some (sourceUid t) := by
  unfold GmtiParser.build at built
  split at built
  · cases built
  · rename_i made run
    cases built
    obtain ⟨⟨id, ts, rfl⟩, _⟩ := run_ok run
    have records := eventOf_records p.sourceId "mim:object"
      (baseBuilder floats p.hostility (a.id i) t ++ [.timestamp (a.clock i)]) id ts
      (lastGiven Call.location? (baseBuilder floats p.hostility (a.id i) t ++ [.timestamp (a.clock i)]))
    have stated : ∀ value, Call.metadata "source_uid" value ∈
        baseBuilder floats p.hostility (a.id i) t ++ [.timestamp (a.clock i)] ↔ value = sourceUid t := by
      intro value
      simp [baseBuilder, mem_ifGiven]
    generalize eventOf _ id ts _ = event at records
    have there := (records.metadata "source_uid" (sourceUid t)).mpr ((stated _).mpr rfl)
    unfold uidOf
    cases found : event.metadata.find? fun m => m.key == "source_uid" with
    | none =>
      have absent := List.find?_eq_none.mp found _ there
      simp at absent
    | some m =>
      obtain ⟨key, value⟩ := m
      have named : key = "source_uid" := by simpa using List.find?_some found
      subst named
      have member := (records.metadata "source_uid" value).mp (List.mem_of_find?_eq_some found)
      rw [Option.map_some, (stated value).mp member]

/-- The keys of a detection's event. -/
def detectionOutline (id ts : String) (payload : Bytes) (place : GeoPoint) : Outline where
  attributes := ["hostility", "radial_velocity", "snr_db", "classification_code", "rcs_db"]
  metadata := ["source_uid", "platform", "job_id", "dwell_index", "dwell_time_ms", "sensor_lat", "sensor_lon",
    "mti_report_index"]
  ids := [id]
  times := [ts]
  places := [place]
  payloads := [payload]

theorem detection_fits (hostility : Option String) (id ts : String) (t : GmtiTarget) :
    Fits (detectionOutline id ts t.raw ⟨t.lat, t.lon, t.heightM.getD .zero⟩)
      (baseBuilder floats hostility id t ++ [.timestamp ts]) := by
  apply Fits.of_eq
  · exact (Fits.id id).append (Fits.location _ _ _) |>.append (Fits.payload t.raw) |>.append (Fits.metadatum _ _)
      |>.append (Fits.metadatum _ _) |>.append (Fits.metadatum _ _) |>.append (Fits.metadatum _ _)
      |>.append (Fits.metadatum _ _) |>.append (Fits.metadatum _ _) |>.append (Fits.metadatum _ _)
      |>.append (Fits.ifGiven _ fun _ => Fits.metadatum _ _) |>.append (Fits.ifGiven _ fun _ => Fits.attr _ _)
      |>.append (Fits.ifGiven _ fun _ => Fits.attr _ _) |>.append (Fits.ifGiven _ fun _ => Fits.attr _ _)
      |>.append (Fits.ifGiven _ fun _ => Fits.attr _ _) |>.append (Fits.ifGiven _ fun _ => Fits.attr _ _)
      |>.append (Fits.timestamp ts)
  · simp [Outline.append, detectionOutline]

theorem build_accepts (p : GmtiParser) (a : Arrival) (i : Nat) (t : GmtiTarget) :
    (p.build floats a i t).toOption.isSome = p.builds t (a.clock i) := by
  have fits : Fits _ (baseBuilder floats p.hostility (a.id i) t ++ [.timestamp (a.clock i)]) :=
    detection_fits floats p.hostility (a.id i) (a.clock i) t
  have built : (∃ event, Rust.run p.sourceId "mim:object" (baseBuilder floats p.hostility (a.id i) t ++
      [.timestamp (a.clock i)]) = .ok event) ↔ _ :=
    fits.built_iff (by decide) (by simp [detectionOutline]) (by simp [detectionOutline, maxAttributes])
      (by simp [detectionOutline]) (by simp [detectionOutline, maxMetadata]) rfl rfl rfl
  have valid : p.builds t (a.clock i) = true ↔ p.sourceId ≠ "" ∧ Rust.isRfc3339 (a.clock i) = true ∧
      Rust.validLocation ⟨t.lat, t.lon, t.heightM.getD .zero⟩ = true := by
    rw [GmtiParser.builds, Bool.and_eq_true, Bool.and_eq_true, bne_iff_ne, and_assoc]
  rw [Bool.eq_iff_iff, valid, ← built, GmtiParser.build]
  cases Rust.run p.sourceId "mim:object" (baseBuilder floats p.hostility (a.id i) t ++ [.timestamp (a.clock i)]) with
  | error e => exact iff_of_false (fun accepted => by cases accepted) (fun ⟨_, made⟩ => by cases made)
  | ok event => exact iff_of_true rfl ⟨event, rfl⟩

theorem mapM_accepts {α β ε : Type} {f : α → Except ε β} (l : List α) :
    (l.mapM f).toOption.isSome = l.all fun x => (f x).toOption.isSome := by
  induction l with
  | nil => rfl
  | cons x l ih =>
    rw [List.mapM_cons, List.all_cons, ← ih]
    cases f x with
    | error e => rfl
    | ok y => cases l.mapM f <;> rfl

/-- A packet gives events if it is accepted, and an error otherwise. -/
theorem accepted_eq (p : GmtiParser) (a : Arrival) :
    p.accepted floats a = if (p.parse floats a).toOption.isSome then packetOf a else [] := by
  unfold GmtiParser.accepted GmtiParser.parse parsePacket packetOf
  cases readPacket a.frame with
  | error e => rfl
  | ok packet =>
    have each : ((packet.targets floats).zipIdx.mapM fun entry => p.build floats a entry.2 entry.1).toOption.isSome =
        (packet.targets floats).zipIdx.all fun entry => p.builds entry.1 (a.clock entry.2) := by
      have agree : (fun entry : GmtiTarget × Nat => (p.build floats a entry.2 entry.1).toOption.isSome) =
          fun entry => p.builds entry.1 (a.clock entry.2) := by
        funext entry
        exact build_accepts floats p a entry.2 entry.1
      rw [mapM_accepts, agree]
    change [packet].filter (fun packet => (packet.targets floats).zipIdx.all fun entry =>
        p.builds entry.1 (a.clock entry.2)) =
      if ((packet.targets floats).zipIdx.mapM fun entry => p.build floats a entry.2 entry.1).toOption.isSome then [packet]
      else []
    rw [each, List.filter_singleton, Bool.cond_eq_ite]

theorem parse_uids {p : GmtiParser} {a : Arrival} {events : List Event} (parsed : p.parse floats a = .ok events) :
    ∃ packet, readPacket a.frame = .ok packet ∧
      events.map uidOf = (packet.targets floats).map fun t => some (sourceUid t) := by
  unfold GmtiParser.parse parsePacket at parsed
  cases read : readPacket a.frame with
  | error e =>
    rw [read] at parsed
    cases parsed
  | ok packet =>
    rw [read] at parsed
    refine ⟨packet, rfl, ?_⟩
    have each := mapM_forall₂ parsed
    have uids : List.Forall₂ (fun (entry : GmtiTarget × Nat) uid => some (sourceUid entry.1) = uid)
        (packet.targets floats).zipIdx (events.map uidOf) := by
      rw [List.forall₂_map_right_iff]
      exact each.imp fun entry event built => (build_uid floats built).symm
    have same := List.forall₂_eq_eq_eq ▸ (List.forall₂_map_left_iff (f := fun entry : GmtiTarget × Nat =>
      some (sourceUid entry.1))).mpr uids
    rw [← same]
    have firsts : ((packet.targets floats).zipIdx.map fun entry => some (sourceUid entry.1)) =
        ((packet.targets floats).zipIdx.map Prod.fst).map fun t => some (sourceUid t) := by
      rw [List.map_map]
      rfl
    rw [firsts, List.zipIdx_map_fst]

theorem events_uids (p : GmtiParser) (arrivals : List Arrival) : (p.events floats arrivals).map uidOf =
    ((arrivals.flatMap (p.accepted floats)).flatMap (Packet.targets floats)).map fun t => some (sourceUid t) := by
  unfold GmtiParser.events
  rw [List.flatMap_assoc, List.map_flatMap, List.map_flatMap]
  congr 1
  funext a
  rw [accepted_eq]
  unfold packetOf
  cases parsed : p.parse floats a with
  | error e => rfl
  | ok events =>
    obtain ⟨packet, read, uids⟩ := parse_uids floats parsed
    rw [read]
    exact uids.trans (by simp [Except.toOption])

/-- The source uids of all emitted events are distinct exactly if no two located reports of the packets they come from
    agree in platform, job, dwell index and report index, where two absent indices agree. -/
theorem source_uids_distinct_iff (p : GmtiParser) (arrivals : List Arrival) :
    ((p.events floats arrivals).map uidOf).Nodup ↔
      ((arrivals.flatMap (p.accepted floats)).flatMap Packet.located).Nodup := by
  have fields : (arrivals.flatMap (p.accepted floats)).flatMap Packet.located =
      ((arrivals.flatMap (p.accepted floats)).flatMap (Packet.targets floats)).map GmtiTarget.uidFields := by
    rw [List.map_flatMap]
    congr 1
    funext packet
    exact (targets_located floats packet).symm
  rw [events_uids, fields, List.nodup_iff_pairwise_ne, List.nodup_iff_pairwise_ne, List.pairwise_map, List.pairwise_map]
  apply List.Pairwise.iff
  intro t t'
  rw [ne_eq, ne_eq, Option.some_inj, sourceUid_inj]

/-- One target report at hi-res latitude and longitude 0, with report index 42, in dwell 3 of a revisit. -/
def dwellSegment (revisit : UInt8) : Bytes :=
  [2, 0, 0, 0, 58, 0xff, 0, 0x03, 0xc3, 0x80, 0, 0, 0, 0, revisit, 0, 3, 1, 0, 1] ++ List.replicate 28 0 ++
    [0, 42] ++ List.replicate 8 0

def twoRevisits : Arrival where
  frame := [3, 1, 0, 0, 0, 148, 88, 78, 1, 32, 32, 0, 0, 0, 82, 69, 65, 80, 69, 82, 45, 48, 49, 32, 0, 0, 0, 77, 0, 0, 35, 41] ++
    dwellSegment 7 ++ dwellSegment 8
  id _ := "01890a5d-ac96-774b-bcce-b302099a8057"
  clock _ := "2026-06-10T08:00:00Z"

/-- The same dwell and report index in two revisits give one uid to two detections. -/
theorem revisits_share_a_uid :
    ¬ ∀ (floats : Floats) (p : GmtiParser) (arrivals : List Arrival), Apart arrivals →
      ((p.events floats arrivals).map uidOf).Nodup := by
  intro all
  have apart : Apart [twoRevisits] := by
    unfold Apart
    decide +kernel
  have uids : (GmtiParser.events Floats.idle ⟨"gmti-radar-1", none⟩ [twoRevisits]).map uidOf =
      [some "REAPER-01:9001:3:42", some "REAPER-01:9001:3:42"] := by decide +kernel
  have distinct := all Floats.idle ⟨"gmti-radar-1", none⟩ [twoRevisits] apart
  rw [uids] at distinct
  exact absurd distinct (by decide)

end GmtiProof
