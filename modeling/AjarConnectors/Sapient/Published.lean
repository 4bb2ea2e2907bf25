import AjarConnectors.KeyMap.Sorted
import AjarConnectors.Sapient.Layouts

namespace ReportProof

open ReportModel EventModel BuilderModel BuilderProof

/-! Keys built from repeated fields, told apart by how they begin. -/

def families : List String :=
  ["classification_", "info_", "signal_", "file_", "status_", "capability_", "node_sub_type"]

def family (key : String) : Option String := families.find? fun leading => leading.toList.isPrefixOf key.toList

theorem family_append {leading : String} (known : leading ∈ families) (rest : String) :
    family (leading ++ rest) = some leading := by
  simp only [families, List.mem_cons, List.not_mem_nil, or_false] at known
  rw [family, String.toList_append]
  rcases known with rfl | rfl | rfl | rfl | rfl | rfl | rfl <;> rfl

/-- Blocks of keys of different families have no key in common. -/
theorem nodup_blocks (blocks : List (Option String × List String)) (apart : (blocks.map Prod.fst).Nodup)
    (each : ∀ block ∈ blocks, block.2.Nodup) (labelled : ∀ block ∈ blocks, ∀ key ∈ block.2, family key = block.1) :
    (blocks.flatMap Prod.snd).Nodup := by
  rw [List.nodup_flatMap]
  apply And.intro each
  have distinct : blocks.Pairwise fun a b => a.1 ≠ b.1 := List.pairwise_map.mp apart
  apply distinct.imp_of_mem
  intro a b inA inB differ key keyA keyB
  exact differ ((labelled a inA key keyA).symm.trans (labelled b inB key keyB))

theorem toString_injective {i j : Nat} (same : toString i = toString j) : i = j := by
  have digits : Nat.toDigits 10 i = Nat.toDigits 10 j := by
    rw [← Nat.toList_repr, ← Nat.toList_repr]
    exact congrArg String.toList same
  rw [← Nat.ofDigitChars_ten_toDigits (n := i), digits, Nat.ofDigitChars_ten_toDigits]

/-- Keys numbered by distinct places are distinct. -/
theorem nodup_numbered {α : Type} (keys : Nat → List String) {entries : List (α × Nat)}
    (distinct : (entries.map Prod.snd).Nodup) (each : ∀ i, (keys i).Nodup)
    (apart : ∀ i j key, key ∈ keys i → key ∈ keys j → i = j) :
    (entries.flatMap fun entry => keys entry.2).Nodup := by
  rw [List.nodup_flatMap]
  apply And.intro fun (entry : α × Nat) _ => each entry.2
  have differ : entries.Pairwise fun a b => a.2 ≠ b.2 := List.pairwise_map.mp distinct
  apply differ.imp
  intro a b different key keyA keyB
  exact different (apart a.2 b.2 key keyA keyB)

theorem zipIdx_distinct {α : Type} (items : List α) : (items.zipIdx.map Prod.snd).Nodup := by
  rw [List.zipIdx_map_snd]
  exact List.nodup_range'

section Numbered

variable (r : DetectionReport) (reg : Registration)

/-- One key for each number, with the number between two fixed texts. -/
theorem nodup_infixed {α : Type} (leading trailing : String) {entries : List (α × Nat)}
    (distinct : (entries.map Prod.snd).Nodup) :
    (entries.flatMap fun entry => [leading ++ toString entry.2 ++ trailing]).Nodup := by
  apply nodup_numbered (fun i => [leading ++ toString i ++ trailing]) distinct
  · exact fun _ => List.nodup_singleton _
  · intro i j key inI inJ
    have same : leading ++ toString i ++ trailing = leading ++ toString j ++ trailing :=
      (List.mem_singleton.mp inI).symm.trans (List.mem_singleton.mp inJ)
    rw [String.append_left_inj, String.append_right_inj] at same
    exact toString_injective same

theorem classifications_nodup :
    ((r.classification.zipIdx.drop 1).flatMap fun entry => ["classification_" ++ toString entry.2]).Nodup := by
  have distinct : ((r.classification.zipIdx.drop 1).map Prod.snd).Nodup := by
    rw [List.map_drop]
    exact (zipIdx_distinct r.classification).sublist (List.drop_sublist _ _)
  have numbered := nodup_infixed "classification_" "" distinct
  simpa only [String.append_empty] using numbered

theorem capabilities_nodup :
    (reg.capabilities.zipIdx.flatMap fun entry => ["capability_" ++ toString entry.2]).Nodup := by
  have numbered := nodup_infixed "capability_" "" (zipIdx_distinct reg.capabilities)
  simpa only [String.append_empty] using numbered

theorem files_nodup : (r.associatedFile.zipIdx.flatMap fun entry => ["file_" ++ toString entry.2 ++ "_url"]).Nodup :=
  nodup_infixed "file_" "_url" (zipIdx_distinct r.associatedFile)

/-- A frequency and an amplitude end differently. -/
theorem frequency_ne_amplitude (i j : Nat) :
    "signal_" ++ toString i ++ "_centre_frequency" ≠ "signal_" ++ toString j ++ "_amplitude" := by
  intro same
  have last := congrArg (fun s : String => s.toList.getLast?) same
  have first : "_centre_frequency".toList.getLast? = some 'y' := by decide
  have second : "_amplitude".toList.getLast? = some 'e' := by decide
  simp only [String.toList_append, List.getLast?_append, first, second, Option.some_or] at last
  exact absurd last (by decide)

theorem signals_nodup :
    (r.signal.zipIdx.flatMap fun entry =>
      ["signal_" ++ toString entry.2 ++ "_centre_frequency", "signal_" ++ toString entry.2 ++ "_amplitude"]).Nodup := by
  apply nodup_numbered
    (fun i => ["signal_" ++ toString i ++ "_centre_frequency", "signal_" ++ toString i ++ "_amplitude"])
    (zipIdx_distinct r.signal)
  · intro i
    simp only [List.nodup_cons, List.mem_singleton, List.not_mem_nil, not_false_eq_true, List.nodup_nil, and_true]
    exact frequency_ne_amplitude i i
  · intro i j key inI inJ
    have number {trailing : String} (same : "signal_" ++ toString i ++ trailing = "signal_" ++ toString j ++ trailing) :
        i = j := by
      rw [String.append_left_inj, String.append_right_inj] at same
      exact toString_injective same
    simp only [List.mem_cons, List.not_mem_nil, or_false] at inI inJ
    rcases inI with rfl | rfl <;> rcases inJ with same | same
    · exact number same
    · exact absurd same (frequency_ne_amplitude i j)
    · exact absurd same.symm (frequency_ne_amplitude j i)
    · exact number same

end Numbered

/-! What every report tells the builder, and what follows for the whole. -/

section Whole

variable (p : SapientParser) (around : Surroundings) (nodeId : String) (observed : Option String) (raw : Bytes)
  {layout : Layout} {rest : List Call}

def headKeys : List String := ["node_id", "sapient_version", "hostility"]

theorem builder_entryKeys : (entryKeys (p.builder around nodeId observed raw)).Sublist headKeys := by
  unfold SapientParser.builder
  cases p.hostility with
  | none => exact List.sublist_append_left ["node_id", "sapient_version"] ["hostility"]
  | some h => exact List.Sublist.refl _

theorem builder_counts :
    (attributeKeys (p.builder around nodeId observed raw)).length ≤ 1 ∧
      (metadataKeys (p.builder around nodeId observed raw)).length = 2 := by
  unfold SapientParser.builder
  cases p.hostility with
  | none => exact ⟨Nat.zero_le _, rfl⟩
  | some h => exact ⟨Nat.le_refl _, rfl⟩

theorem whole_keys (tells : Tells layout rest) :
    (entryKeys (p.builder around nodeId observed raw ++ rest)).Sublist (headKeys ++ layout.keys) := by
  rw [entryKeys, List.filterMap_append]
  exact (builder_entryKeys p around nodeId observed raw).append tells.keys

theorem whole_metadata (tells : Tells layout rest) :
    (metadataKeys (p.builder around nodeId observed raw ++ rest)).length = 2 + layout.metadata := by
  rw [metadataKeys_append, List.length_append, (builder_counts p around nodeId observed raw).2, tells.metadata]

theorem whole_roomy (tells : Tells layout rest) (few : layout.attributes < maxAttributes)
    (small : 2 + layout.metadata ≤ maxMetadata) (distinct : (headKeys ++ layout.keys).Nodup) :
    Roomy (p.builder around nodeId observed raw ++ rest) := by
  have keys := distinct.sublist (whole_keys p around nodeId observed raw tells)
  refine ⟨?_, ?_, keys.sublist (attributeKeys_sublist _), keys.sublist (metadataKeys_sublist _)⟩
  · have first := (builder_counts p around nodeId observed raw).1
    have second := tells.attributes
    rw [attributeKeys_append, List.length_append]
    omega
  · rw [whole_metadata p around nodeId observed raw tells]
    exact small

theorem whole_confidence (tells : Tells layout rest) :
    Rust.outsideUnit (confidenceOf (p.builder around nodeId observed raw ++ rest)) = false := by
  have silent : (p.builder around nodeId observed raw).filterMap Call.confidence? = [] := by
    unfold SapientParser.builder
    cases p.hostility <;> rfl
  rw [confidenceOf, lastGiven_getLast, List.filterMap_append, silent, List.nil_append]
  cases found : (rest.filterMap Call.confidence?).getLast? with
  | none => decide
  | some c =>
    rcases List.mem_filterMap.mp (List.mem_of_getLast? found) with ⟨call, member, picked⟩
    have kept := tells.plain call member
    cases call <;> cases picked
    simpa [plain] using kept

theorem whole_admitted (entityType : String) (tells : Tells layout rest) :
    Admitted p.sourceId entityType (p.builder around nodeId observed raw ++ rest) ↔
      p.sourceId ≠ "" ∧ entityType ≠ "" ∧ Rust.isRfc3339 (observed.getD around.now) = true ∧
        ∀ spot, layout.places.getLast? = some spot → Rust.validLocation spot = true := by
  have named : lastGiven Call.id? (p.builder around nodeId observed raw ++ rest) = some around.newId := by
    rw [lastGiven_plain _ _ (fun call good => by cases call <;> first | rfl | cases good) tells.plain]
    unfold SapientParser.builder
    cases p.hostility <;> rfl
  have dated : lastGiven Call.timestamp? (p.builder around nodeId observed raw ++ rest) = some (observed.getD around.now) := by
    rw [lastGiven_plain _ _ (fun call good => by cases call <;> first | rfl | cases good) tells.plain]
    unfold SapientParser.builder
    cases p.hostility <;> rfl
  have placed : lastGiven Call.location? (p.builder around nodeId observed raw ++ rest) = layout.places.getLast? := by
    have silent : (p.builder around nodeId observed raw).filterMap Call.location? = [] := by
      unfold SapientParser.builder
      cases p.hostility <;> rfl
    rw [lastGiven_getLast, List.filterMap_append, silent, tells.places, List.nil_append]
  have untagged : (p.builder around nodeId observed raw ++ rest).filterMap Call.policyTag? = [] := by
    have silent : (p.builder around nodeId observed raw).filterMap Call.policyTag? = [] := by
      unfold SapientParser.builder
      cases p.hostility <;> rfl
    have mute : rest.filterMap Call.policyTag? = [] := by
      apply List.filterMap_eq_nil_iff.mpr
      intro call member
      have good := tells.plain call member
      cases call <;> first | rfl | cases good
    rw [List.filterMap_append, silent, mute, List.nil_append]
  constructor
  · intro admitted
    rcases admitted.timestamp with ⟨ts, given, valid⟩
    rw [dated] at given
    cases given
    refine ⟨admitted.source, admitted.entity, valid, ?_⟩
    rw [← placed]
    exact admitted.location
  · rintro ⟨source, entity, valid, places⟩
    refine ⟨by rw [named]; rfl, ⟨_, dated, valid⟩, ?_, source, entity, Or.inl ?_,
      whole_confidence p around nodeId observed raw tells, by rw [untagged]; exact Nat.zero_le _⟩
    · intro spot found
      rw [placed] at found
      exact places spot found
    · exact List.mem_append_left _ (List.mem_cons_self ..)

end Whole

/-! Each kind of report: its entries fit exactly if its repeated fields are not too many and do not repeat a key. -/

section Kinds

variable (platform : Platform) (p : SapientParser) (around : Surroundings) (nodeId : String)
  (observed : Option String) (raw : Bytes)

theorem infoKeys_family {r : DetectionReport} {key : String} (member : key ∈ infoKeys r) : family key = some "info_" := by
  rcases List.mem_filterMap.mp member with ⟨info, _, made⟩
  unfold infoKey at made
  split at made
  · rcases Option.map_eq_some_iff.mp made with ⟨t, _, rfl⟩
    exact family_append (by decide) _
  · cases made

/-- How many metadata entries a detection makes. -/
def detectionEntries (r : DetectionReport) : Nat :=
  2 + openingEntries platform (p.detectionType platform r) r (p.node nodeId) +
    ((r.classification.drop 1).map fun c => c.type.isSome.toNat).sum +
    middleEntries platform (p.detectionType platform r) r + (infoKeys r).length +
    (r.signal.map fun s => s.centreFrequency.isSome.toNat + s.amplitude.isSome.toNat).sum +
    (r.associatedFile.map fun url => url.isSome.toNat).sum + (p.node nodeId).name.isSome.toNat

def detectionLayout (r : DetectionReport) : Layout where
  keys := openingKeys ++ (((r.classification.zipIdx.drop 1).flatMap fun entry => ["classification_" ++ toString entry.2]) ++
    (["sapient_behaviour", "sapient_state", "native_id", "colour"] ++ (infoKeys r ++
      ((r.signal.zipIdx.flatMap fun entry =>
        ["signal_" ++ toString entry.2 ++ "_centre_frequency", "signal_" ++ toString entry.2 ++ "_amplitude"]) ++
      ((r.associatedFile.zipIdx.flatMap fun entry => ["file_" ++ toString entry.2 ++ "_url"]) ++ ["node_name"])))))
  attributes := 9
  metadata := detectionEntries platform p nodeId r - 2
  places := oneofSpots platform (p.node nodeId).location r.locationOneof

theorem detection_tells (r : DetectionReport) :
    Tells (detectionLayout platform p nodeId r)
      (Detection.opening platform (p.detectionType platform r) nodeId r (p.node nodeId) ++ (Detection.classifications r ++
        (Detection.middle platform (p.detectionType platform r) r ++ (Detection.infos r ++ (Detection.signals platform r ++
          (Detection.files r ++ Detection.closing (p.node nodeId))))))) := by
  have tells := (detection_opening_tells platform (p.detectionType platform r) nodeId r (p.node nodeId)).append
    ((classifications_tells r).append ((detection_middle_tells platform (p.detectionType platform r) r).append
      ((infos_tells r).append ((signals_tells platform r).append ((files_tells r).append
        (detection_closing_tells (p.node nodeId)))))))
  apply tells.of_eq
  simp only [Layout.append, detectionLayout, detectionEntries, List.append_nil, Layout.mk.injEq, true_and, and_true]
  omega

theorem detection_keys (r : DetectionReport) (distinct : (infoKeys r).Nodup) :
    (headKeys ++ (detectionLayout platform p nodeId r).keys).Nodup := by
  have blocks := nodup_blocks
    [(none, headKeys ++ openingKeys ++ ["sapient_behaviour", "sapient_state", "native_id", "colour", "node_name"]),
      (some "classification_", (r.classification.zipIdx.drop 1).flatMap fun entry => ["classification_" ++ toString entry.2]),
      (some "info_", infoKeys r),
      (some "signal_", r.signal.zipIdx.flatMap fun entry =>
        ["signal_" ++ toString entry.2 ++ "_centre_frequency", "signal_" ++ toString entry.2 ++ "_amplitude"]),
      (some "file_", r.associatedFile.zipIdx.flatMap fun entry => ["file_" ++ toString entry.2 ++ "_url"])]
    (by simp) ?_ ?_
  · apply (List.Perm.nodup_iff _).mpr blocks
    rw [List.perm_iff_count]
    intro key
    simp only [detectionLayout, List.flatMap_cons, List.flatMap_nil, List.append_nil, List.count_append, List.count_cons,
      List.count_nil]
    omega
  · simp only [List.forall_mem_cons, List.not_mem_nil, false_implies, implies_true, and_true]
    exact ⟨by decide, classifications_nodup r, distinct, signals_nodup r, files_nodup r⟩
  · simp only [List.forall_mem_cons, List.not_mem_nil, false_implies, implies_true, and_true]
    refine ⟨by decide, ?_, fun key => infoKeys_family, ?_, ?_⟩
    · intro key member
      rcases List.mem_flatMap.mp member with ⟨entry, _, made⟩
      rw [List.mem_singleton.mp made]
      exact family_append (by decide) _
    · intro key member
      rcases List.mem_flatMap.mp member with ⟨entry, _, made⟩
      simp only [List.mem_cons, List.not_mem_nil, or_false] at made
      rcases made with rfl | rfl <;> rw [String.append_assoc] <;> exact family_append (by decide) _
    · intro key member
      rcases List.mem_flatMap.mp member with ⟨entry, _, made⟩
      rw [List.mem_singleton.mp made, String.append_assoc]
      exact family_append (by decide) _

theorem detection_calls (r : DetectionReport) :
    (p.detection platform around nodeId r observed raw).2 = p.builder around nodeId observed raw ++
      (Detection.opening platform (p.detectionType platform r) nodeId r (p.node nodeId) ++ (Detection.classifications r ++
        (Detection.middle platform (p.detectionType platform r) r ++ (Detection.infos r ++ (Detection.signals platform r ++
          (Detection.files r ++ Detection.closing (p.node nodeId))))))) := by
  simp only [SapientParser.detection, List.append_assoc]

theorem detection_roomy_iff (r : DetectionReport) :
    Roomy (p.detection platform around nodeId r observed raw).2 ↔
      (infoKeys r).Nodup ∧ detectionEntries platform p nodeId r ≤ maxMetadata := by
  have tells := detection_tells platform p nodeId r
  have total : 2 + (detectionLayout platform p nodeId r).metadata = detectionEntries platform p nodeId r := by
    simp only [detectionLayout, detectionEntries]
    omega
  have within : (Detection.infos r).Sublist (p.detection platform around nodeId r observed raw).2 :=
    (((List.sublist_append_right _ _).trans (List.sublist_append_left _ _)).trans
      (List.sublist_append_left _ _)).trans (List.sublist_append_left _ _)
  have named : metadataKeys (Detection.infos r) = infoKeys r := (infos_tells r).metadataKeys_eq rfl
  constructor
  · intro roomy
    constructor
    · rw [← named]
      exact roomy.metadataKeys.sublist (metadataKeys_mono within)
    · have small := roomy.metadata
      rw [detection_calls, whole_metadata p around nodeId observed raw tells, total] at small
      exact small
  · rintro ⟨distinct, small⟩
    rw [detection_calls]
    apply whole_roomy p around nodeId observed raw tells
    · show 9 < 128
      decide
    · rw [total]
      exact small
    · exact detection_keys platform p nodeId r distinct

/-- The names a status kind can have. -/
def kindNames : List String := "unspecified" :: statusTypes.map fun entry =>
  TextModel.toAsciiLowercase (enumName (some entry.2) "STATUS_TYPE_")

theorem kind_mem (s : Status) : StatusOf.kind s ∈ kindNames := by
  unfold StatusOf.kind kindNames
  cases found : s.statusType.bind fun n => statusTypes.lookup n with
  | none =>
    have absent : TextModel.toAsciiLowercase (enumName none "STATUS_TYPE_") = "unspecified" := by decide
    rw [absent]
    exact List.mem_cons_self ..
  | some name =>
    rcases Option.bind_eq_some_iff.mp found with ⟨n, _, listed⟩
    apply List.mem_cons_of_mem
    exact List.mem_map.mpr ⟨(n, name), KeyMap.mem_of_lookup listed, rfl⟩

/-- There are only so many kinds, so distinct ones are few. -/
theorem kinds_few {statuses : List Status} (distinct : (statuses.map StatusOf.kind).Nodup) : statuses.length ≤ 15 := by
  have listed : statuses.map StatusOf.kind ⊆ kindNames := by
    intro kind member
    rcases List.mem_map.mp member with ⟨s, _, rfl⟩
    exact kind_mem s
  have most := (List.subperm_of_subset distinct listed).length_le
  rw [List.length_map] at most
  exact most

theorem nodup_status_keys (statuses : List Status) :
    (statuses.map fun s => "status_" ++ StatusOf.kind s).Nodup ↔ (statuses.map StatusOf.kind).Nodup := by
  have cancel : Function.Injective fun kind : String => "status_" ++ kind :=
    fun _ _ same => (String.append_right_inj _).mp same
  rw [← List.nodup_map_iff (l := statuses.map StatusOf.kind) cancel, List.map_map]
  rfl

theorem status_keys (r : StatusReport) (distinct : (r.status.map StatusOf.kind).Nodup) :
    (headKeys ++ (statusOpeningKeys ++ ((r.status.map fun s => "status_" ++ StatusOf.kind s) ++
      ["sapient_node_type", "node_name"]))).Nodup := by
  have blocks := nodup_blocks [(none, headKeys ++ statusOpeningKeys ++ ["sapient_node_type", "node_name"]),
    (some "status_", r.status.map fun s => "status_" ++ StatusOf.kind s)] (by simp) ?_ ?_
  · apply (List.Perm.nodup_iff _).mpr blocks
    rw [List.perm_iff_count]
    intro key
    simp only [List.flatMap_cons, List.flatMap_nil, List.append_nil, List.count_append]
    omega
  · simp only [List.forall_mem_cons, List.not_mem_nil, false_implies, implies_true, and_true]
    exact ⟨by decide, (nodup_status_keys r.status).mpr distinct⟩
  · simp only [List.forall_mem_cons, List.not_mem_nil, false_implies, implies_true, and_true]
    apply And.intro (by decide)
    intro key member
    rcases List.mem_map.mp member with ⟨s, _, rfl⟩
    exact family_append (by decide) _

theorem status_calls (r : StatusReport) :
    (p.status platform around nodeId r observed raw).2 = p.builder around nodeId observed raw ++
      (StatusOf.opening platform p.types.sensorStatus nodeId r ++
        (StatusOf.statuses r ++ StatusOf.closing platform p.types.sensorStatus (p.node nodeId))) := by
  simp only [SapientParser.status, List.append_assoc]

theorem status_tells (r : StatusReport) :
    ∃ count, Tells ⟨statusOpeningKeys ++ ((r.status.map fun s => "status_" ++ StatusOf.kind s) ++
        ["sapient_node_type", "node_name"]), 4, count, (r.nodeLocation.map (spots platform)).getD []⟩
      (StatusOf.opening platform p.types.sensorStatus nodeId r ++
        (StatusOf.statuses r ++ StatusOf.closing platform p.types.sensorStatus (p.node nodeId))) := by
  rcases status_opening_tells platform p.types.sensorStatus nodeId r with ⟨first, opening⟩
  rcases status_closing_tells platform p.types.sensorStatus (p.node nodeId) with ⟨last, closing⟩
  exact ⟨_, (opening.append ((statuses_tells r).append closing)).of_eq (by simp only [Layout.append, List.append_nil]; rfl)⟩

theorem status_roomy_iff (r : StatusReport) :
    Roomy (p.status platform around nodeId r observed raw).2 ↔ (r.status.map StatusOf.kind).Nodup := by
  rcases status_tells platform p nodeId r with ⟨count, tells⟩
  have within : (StatusOf.statuses r).Sublist (p.status platform around nodeId r observed raw).2 :=
    (List.sublist_append_right _ _).trans (List.sublist_append_left _ _)
  have named : metadataKeys (StatusOf.statuses r) = r.status.map fun s => "status_" ++ StatusOf.kind s :=
    (statuses_tells r).metadataKeys_eq (by simp)
  constructor
  · intro roomy
    rw [← nodup_status_keys, ← named]
    exact roomy.metadataKeys.sublist (metadataKeys_mono within)
  · intro distinct
    rw [status_calls]
    apply whole_roomy p around nodeId observed raw tells
    · show 4 < 128
      decide
    · have most := tells.metadata_le
      have few := kinds_few distinct
      simp only [List.length_append, List.length_map, statusOpeningKeys, placeKeys, List.length_cons, List.length_nil] at most
      show 2 + count ≤ 128
      omega
    · exact status_keys r distinct

/-- How many metadata entries a registration makes. -/
def registrationEntries (reg : Registration) : Nat :=
  2 + registrationOpeningEntries platform p.types.sensorStatus reg + (RegistrationOf.subTypes reg).length +
    reg.capabilities.length + registrationClosingEntries reg

def registrationKeys (reg : Registration) : List String :=
  registrationOpeningKeys ++ (((RegistrationOf.subTypes reg).map fun _ => "node_sub_type") ++
    ((reg.capabilities.zipIdx.flatMap fun entry => ["capability_" ++ toString entry.2]) ++
      ["manufacturer", "model", "serial_number"]))

theorem registration_calls (reg : Registration) :
    (p.registration platform around nodeId reg observed raw).2 = p.builder around nodeId observed raw ++
      (RegistrationOf.opening platform p.types.sensorStatus nodeId reg ++
        (RegistrationOf.subTypeCalls reg ++ (RegistrationOf.capabilities reg ++ RegistrationOf.closing reg))) := by
  simp only [SapientParser.registration, List.append_assoc]

theorem registration_tells (reg : Registration) :
    Tells ⟨registrationKeys reg, 2, registrationEntries platform p reg - 2, []⟩
      (RegistrationOf.opening platform p.types.sensorStatus nodeId reg ++
        (RegistrationOf.subTypeCalls reg ++ (RegistrationOf.capabilities reg ++ RegistrationOf.closing reg))) := by
  have tells := (registration_opening_tells platform p.types.sensorStatus nodeId reg).append
    ((subTypes_tells reg).append ((capabilities_tells reg).append (registration_closing_tells reg)))
  apply tells.of_eq
  simp only [Layout.append, registrationKeys, registrationEntries, List.append_nil, Layout.mk.injEq, true_and, and_true]
  omega

theorem nodup_subTypes (subTypes : List String) : (subTypes.map fun _ => "node_sub_type").Nodup ↔ subTypes.length ≤ 1 := by
  match subTypes with
  | [] => simp
  | [_] => simp
  | _ :: _ :: _ => simp

theorem registration_keys (reg : Registration) (single : (RegistrationOf.subTypes reg).length ≤ 1) :
    (headKeys ++ registrationKeys reg).Nodup := by
  have blocks := nodup_blocks [(none, headKeys ++ registrationOpeningKeys ++ ["manufacturer", "model", "serial_number"]),
    (some "node_sub_type", (RegistrationOf.subTypes reg).map fun _ => "node_sub_type"),
    (some "capability_", reg.capabilities.zipIdx.flatMap fun entry => ["capability_" ++ toString entry.2])] (by simp) ?_ ?_
  · apply (List.Perm.nodup_iff _).mpr blocks
    rw [List.perm_iff_count]
    intro key
    simp only [registrationKeys, List.flatMap_cons, List.flatMap_nil, List.append_nil, List.count_append]
    omega
  · simp only [List.forall_mem_cons, List.not_mem_nil, false_implies, implies_true, and_true]
    exact ⟨by decide, (nodup_subTypes _).mpr single, capabilities_nodup reg⟩
  · simp only [List.forall_mem_cons, List.not_mem_nil, false_implies, implies_true, and_true]
    refine ⟨by decide, ?_, ?_⟩
    · intro key member
      rcases List.mem_map.mp member with ⟨_, _, rfl⟩
      decide
    · intro key member
      rcases List.mem_flatMap.mp member with ⟨entry, _, made⟩
      rw [List.mem_singleton.mp made]
      exact family_append (by decide) _

theorem registration_roomy_iff (reg : Registration) :
    Roomy (p.registration platform around nodeId reg observed raw).2 ↔
      (RegistrationOf.subTypes reg).length ≤ 1 ∧ registrationEntries platform p reg ≤ maxMetadata := by
  have tells := registration_tells platform p nodeId reg
  have within : (RegistrationOf.subTypeCalls reg).Sublist (p.registration platform around nodeId reg observed raw).2 :=
    ((List.sublist_append_right _ _).trans (List.sublist_append_left _ _)).trans (List.sublist_append_left _ _)
  have named : metadataKeys (RegistrationOf.subTypeCalls reg) = (RegistrationOf.subTypes reg).map fun _ => "node_sub_type" :=
    (subTypes_tells reg).metadataKeys_eq (by simp)
  have total : 2 + (registrationEntries platform p reg - 2) = registrationEntries platform p reg := by
    rw [registrationEntries]
    omega
  constructor
  · intro roomy
    constructor
    · rw [← nodup_subTypes, ← named]
      exact roomy.metadataKeys.sublist (metadataKeys_mono within)
    · have small := roomy.metadata
      rw [registration_calls, whole_metadata p around nodeId observed raw tells, total] at small
      exact small
  · rintro ⟨single, small⟩
    rw [registration_calls]
    apply whole_roomy p around nodeId observed raw tells
    · show 2 < 128
      decide
    · rw [total]
      exact small
    · exact registration_keys reg single

theorem alert_roomy (a : Alert) : Roomy (p.alert platform around nodeId a observed raw).2 := by
  rcases alertFields_tells platform p.types.alert nodeId a (p.node nodeId) with ⟨count, tells⟩
  apply whole_roomy p around nodeId observed raw tells
  · show 5 < 128
    decide
  · have most : count ≤ alertKeys.length := tells.metadata_le
    have size : alertKeys.length = 20 := rfl
    show 2 + count ≤ 128
    omega
  · show (headKeys ++ alertKeys).Nodup
    decide

end Kinds

/-! Whole messages. -/

section Messages

variable (platform : Platform) (p : SapientParser) (around : Surroundings) (nodeId : String)
  (observed : Option String) (raw : Bytes)

/-- The type the event of a report has. -/
def typeOf : Content → String
  | .detectionReport r => p.detectionType platform r
  | .statusReport _ | .registration _ => p.types.sensorStatus
  | .alert _ => p.types.alert
  | .unmapped => ""

/-- A range and bearing points to a place on the globe, if it points to any. -/
def Located (nodeLocation : Option (F64 × F64 × F64)) : Option LocationOneof → Prop
  | some (.rangeBearing rb) => ∀ spot, relativeSpot platform nodeLocation rb = some spot → Rust.validLocation spot = true
  | _ => True

def LocatedReport : Content → Prop
  | .detectionReport r => Located platform (p.node nodeId).location r.locationOneof
  | .alert a => Located platform (p.node nodeId).location a.locationOneof
  | _ => True

/-- The report passes what the builder checks before it looks at the entries. -/
def Admissible (content : Content) : Prop :=
  p.sourceId ≠ "" ∧ typeOf platform p content ≠ "" ∧ Rust.isRfc3339 (observed.getD around.now) = true ∧
    LocatedReport platform p nodeId content

/-- The repeated fields give no key twice and not too many entries. -/
def Uncrowded : Content → Prop
  | .detectionReport r => (infoKeys r).Nodup ∧ detectionEntries platform p nodeId r ≤ maxMetadata
  | .statusReport r => (r.status.map StatusOf.kind).Nodup
  | .registration reg => (RegistrationOf.subTypes reg).length ≤ 1 ∧ registrationEntries platform p reg ≤ maxMetadata
  | .alert _ | .unmapped => True

theorem spots_valid (loc : Location) (spot : GeoPoint) (found : (spots platform loc).getLast? = some spot) :
    Rust.validLocation spot = true := by
  rcases List.mem_map.mp (List.mem_of_getLast? found) with ⟨place, member, rfl⟩
  exact wgs84_valid platform (Option.mem_toList.mp member)

theorem located_iff (nodeLocation : Option (F64 × F64 × F64)) (loc : Option LocationOneof) :
    (∀ spot, (oneofSpots platform nodeLocation loc).getLast? = some spot → Rust.validLocation spot = true) ↔
      Located platform nodeLocation loc := by
  match loc with
  | none => simp [oneofSpots, Located]
  | some (.location loc) =>
    simp only [oneofSpots, Located, iff_true]
    exact spots_valid platform loc
  | some (.rangeBearing rb) =>
    simp only [oneofSpots, Located]
    cases relativeSpot platform nodeLocation rb <;> simp

theorem detection_admitted_iff (r : DetectionReport) :
    Admitted p.sourceId (p.detectionType platform r) (p.detection platform around nodeId r observed raw).2 ↔
      Admissible platform p around nodeId observed (.detectionReport r) := by
  rw [detection_calls, whole_admitted p around nodeId observed raw _ (detection_tells platform p nodeId r), Admissible,
    LocatedReport, typeOf, ← located_iff]
  rfl

theorem alert_admitted_iff (a : Alert) :
    Admitted p.sourceId p.types.alert (p.alert platform around nodeId a observed raw).2 ↔
      Admissible platform p around nodeId observed (.alert a) := by
  rcases alertFields_tells platform p.types.alert nodeId a (p.node nodeId) with ⟨count, tells⟩
  rw [SapientParser.alert, whole_admitted p around nodeId observed raw _ tells, Admissible, LocatedReport, typeOf,
    ← located_iff]

theorem status_admitted_iff (r : StatusReport) :
    Admitted p.sourceId p.types.sensorStatus (p.status platform around nodeId r observed raw).2 ↔
      Admissible platform p around nodeId observed (.statusReport r) := by
  rcases status_tells platform p nodeId r with ⟨count, tells⟩
  have valid : ∀ spot, ((r.nodeLocation.map (spots platform)).getD []).getLast? = some spot →
      Rust.validLocation spot = true := by
    cases r.nodeLocation with
    | none => simp
    | some loc => exact spots_valid platform loc
  rw [status_calls, whole_admitted p around nodeId observed raw _ tells]
  constructor
  · rintro ⟨source, entity, dated, _⟩
    exact ⟨source, entity, dated, True.intro⟩
  · rintro ⟨source, entity, dated, _⟩
    exact ⟨source, entity, dated, valid⟩

theorem registration_admitted_iff (reg : Registration) :
    Admitted p.sourceId p.types.sensorStatus (p.registration platform around nodeId reg observed raw).2 ↔
      Admissible platform p around nodeId observed (.registration reg) := by
  rw [registration_calls, whole_admitted p around nodeId observed raw _ (registration_tells platform p nodeId reg)]
  constructor
  · rintro ⟨source, entity, dated, _⟩
    exact ⟨source, entity, dated, True.intro⟩
  · rintro ⟨source, entity, dated, _⟩
    exact ⟨source, entity, dated, by simp⟩

/-! What a report tells about its node changes no other part of the parser. -/

theorem updateNode_frame (victim : Nat) (f : Node → Node) :
    (p.updateNode victim nodeId f).sourceId = p.sourceId ∧ (p.updateNode victim nodeId f).types = p.types := by
  unfold SapientParser.updateNode
  split <;> exact ⟨rfl, rfl⟩

theorem locate_frame (r : StatusReport) :
    (p.locate platform around nodeId r).sourceId = p.sourceId ∧ (p.locate platform around nodeId r).types = p.types := by
  unfold SapientParser.locate
  split
  · exact updateNode_frame p nodeId around.victim _
  · exact ⟨rfl, rfl⟩

theorem describe_frame (reg : Registration) :
    (({ p with registrations := p.registrations + 1 } : SapientParser).describe around nodeId reg).sourceId = p.sourceId ∧
      (({ p with registrations := p.registrations + 1 } : SapientParser).describe around nodeId reg).types = p.types :=
  updateNode_frame { p with registrations := p.registrations + 1 } nodeId around.victim _

theorem admissible_status {next p : SapientParser} (r : StatusReport)
    (same : next.sourceId = p.sourceId ∧ next.types = p.types) :
    Admissible platform next around nodeId observed (.statusReport r) ↔
      Admissible platform p around nodeId observed (.statusReport r) := by
  simp only [Admissible, typeOf, LocatedReport, same.1, same.2]

theorem admissible_registration {next p : SapientParser} (reg : Registration)
    (same : next.sourceId = p.sourceId ∧ next.types = p.types) :
    Admissible platform next around nodeId observed (.registration reg) ↔
      Admissible platform p around nodeId observed (.registration reg) := by
  simp only [Admissible, typeOf, LocatedReport, same.1, same.2]

theorem registrationEntries_congr {next p : SapientParser} (reg : Registration) (same : next.types = p.types) :
    registrationEntries platform next reg = registrationEntries platform p reg := by
  simp only [registrationEntries, same]

/-- One message fails for its entries exactly if its builder does. -/
theorem parse_uncrowded_iff {decode : Bytes → Option SapientMessage} {message : SapientMessage} {content : Content}
    {next : SapientParser} {entityType : String} {calls : List Call} (decoded : decode raw = some message)
    (given : message.content = some content)
    (taken : p.take platform around (message.nodeId.getD "") (message.timestamp.bind platform.rfc3339) raw content =
      (next, some (entityType, calls))) :
    (∀ err, (p.parseMessage platform decode around raw).2 = .error (.build err) → err.crowds = false) ↔
      ¬ Crowded (Rust.run next.sourceId entityType calls) := by
  have parsed : (p.parseMessage platform decode around raw).2 =
      ((Rust.run next.sourceId entityType calls).map some).mapError .build := by
    unfold SapientParser.parseMessage
    simp only [decoded, given, taken]
    cases Rust.run next.sourceId entityType calls <;> rfl
  rw [parsed]
  cases Rust.run next.sourceId entityType calls with
  | error e => simp [crowded_error, Except.map, Except.mapError]
  | ok event => simp [crowded_ok, Except.map, Except.mapError]

/-- A message is never refused for its entries exactly if its repeated fields are uncrowded, or the builder
    refuses it before it looks at them. -/
theorem report_is_uncrowded_iff (decode : Bytes → Option SapientMessage) (message : SapientMessage) (content : Content)
    (decoded : decode raw = some message) (given : message.content = some content) :
    (∀ err, (p.parseMessage platform decode around raw).2 = .error (.build err) → err.crowds = false) ↔
      (Admissible platform p around (message.nodeId.getD "") (message.timestamp.bind platform.rfc3339) content →
        Uncrowded platform p (message.nodeId.getD "") content) := by
  cases content with
  | detectionReport r =>
    rw [parse_uncrowded_iff platform p around raw decoded given rfl, run_crowded_iff, not_and_not_right]
    exact imp_congr (detection_admitted_iff platform p around _ _ raw r) (detection_roomy_iff platform p around _ _ raw r)
  | statusReport r =>
    rw [parse_uncrowded_iff platform p around raw decoded given rfl, run_crowded_iff, not_and_not_right]
    have same := admissible_status platform around (message.nodeId.getD "") (message.timestamp.bind platform.rfc3339) r
      (locate_frame platform p around (message.nodeId.getD "") r)
    exact imp_congr ((status_admitted_iff platform _ around _ _ raw r).trans same) (status_roomy_iff platform _ around _ _ raw r)
  | registration reg =>
    rw [parse_uncrowded_iff platform p around raw decoded given rfl, run_crowded_iff, not_and_not_right]
    have frame := describe_frame p around (message.nodeId.getD "") reg
    have same := admissible_registration platform around (message.nodeId.getD "")
      (message.timestamp.bind platform.rfc3339) reg frame
    have entries := registrationEntries_congr platform reg frame.2
    exact imp_congr ((registration_admitted_iff platform _ around _ _ raw reg).trans same)
      ((registration_roomy_iff platform _ around _ _ raw reg).trans (by rw [entries]; rfl))
  | alert a =>
    rw [parse_uncrowded_iff platform p around raw decoded given rfl, run_crowded_iff, not_and_not_right]
    have roomy := alert_roomy platform p around (message.nodeId.getD "") (message.timestamp.bind platform.rfc3339) raw a
    exact imp_congr (alert_admitted_iff platform p around _ _ raw a) (iff_true_intro roomy)
  | unmapped =>
    have parsed : (p.parseMessage platform decode around raw).2 = .ok none := by
      simp only [SapientParser.parseMessage, decoded, given, SapientParser.take]
    rw [parsed]
    simp [Uncrowded]

end Messages

/-- Stands where a report has no numbers and no names to look up. -/
def Platform.idle : Platform where
  toFloats := Floats.idle
  sub _ _ := .zero
  rem _ _ := .zero
  sqrt _ := .zero
  sin _ := .zero
  cos _ := .zero
  asin _ := .zero
  atan2 _ _ := .zero
  toDegrees _ := .zero
  toRadians _ := .zero
  rfc3339 _ := none
  toLowercase text := text
  governs _ _ := false

def fusionParser : SapientParser where
  sourceId := "sapient-fusion-1"

def noon : Surroundings where
  newId := "0192f0c1-2a6b-7d3e-8f00-000000000001"
  now := "2026-05-28T12:00:00Z"
  victim := 0

def registrationOf (subTypes : List String) : SapientMessage where
  nodeId := some "2f1c6a1e-4a5e-4b7e-9b1a-0d3f2e6c7a11"
  content := some (.registration { nodeDefinition := [{ nodeSubType := subTypes }] })

theorem one_sub_type_is_published :
    ¬ ∃ err, (fusionParser.parseMessage Platform.idle (fun _ => some (registrationOf ["pan"])) noon []).2 =
      .error (.build err) ∧ err.crowds = true := by
  have never := (report_is_uncrowded_iff Platform.idle fusionParser noon [] (fun _ => some (registrationOf ["pan"]))
    (registrationOf ["pan"]) _ rfl rfl).mpr fun _ => ⟨by decide, by decide⟩
  rintro ⟨err, refused, crowds⟩
  rw [never err refused] at crowds
  cases crowds

/-- A node that registers two sub-types is refused. -/
theorem two_sub_types_are_refused :
    ¬ ∀ err, (fusionParser.parseMessage Platform.idle (fun _ => some (registrationOf ["pan", "tilt"])) noon []).2 =
      .error (.build err) → err.crowds = false := by
  intro never
  have crowds := never (.duplicateMetadataKey "node_sub_type") (by rfl)
  cases crowds

end ReportProof
