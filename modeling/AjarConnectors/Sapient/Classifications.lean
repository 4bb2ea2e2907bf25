import AjarConnectors.Sapient.Published

namespace ReportModel

open EventModel BuilderModel

section

variable (platform : Platform)

/-- What `governed` leaves in an event. -/
def CarriesAs (event : Event) (key value : String) : Prop :=
  if platform.governs event.entityType key then ⟨key, value⟩ ∈ event.attributes else ⟨key, value⟩ ∈ event.metadata

def typed (c : Classification) : Option (String × Option F64) := c.type.map fun t => (t, c.confidence)

/-- The chosen classification is the object's class, and the type of every other one is listed. -/
def CarriesClassifications (event : Event) (classes : List Classification) : Prop :=
  (∀ c ∈ classes, c.type = none) ∨
    ∃ (chosen : Nat) (top : String × Option F64), topClassification classes = some top ∧
      classes[chosen]?.bind typed = some top ∧
      CarriesAs platform event "object_class" top.1 ∧ CarriesAs platform event "sapient_classification" top.1 ∧
      ∀ (i : Nat) (c : Classification) (t : String), classes[i]? = some c → i ≠ chosen → c.type = some t →
        ∃ n : Nat, ⟨"classification_" ++ toString n, t⟩ ∈ event.metadata

end

/-- The first classification has no type, or ranks above all later ones, or its type is given once more. -/
def FirstIsKept : List Classification → Prop
  | [] => True
  | first :: later => ∀ t, first.type = some t →
      (∀ other ∈ later.filterMap typed, ranksAbove (t, first.confidence) other = true) ∨ ∃ c ∈ later, c.type = some t

end ReportModel

namespace ReportProof

open ReportModel EventModel BuilderModel BuilderProof

/-- `max_by` goes on from the best so far. -/
def better (best : String × Option F64) (later : List (String × Option F64)) : String × Option F64 :=
  later.foldl (fun best next => if ranksAbove best next then best else next) best

theorem foldl_better {turn : Option (String × Option F64) → String × Option F64 → Option (String × Option F64)}
    (keeps : ∀ best next, turn (some best) next = if ranksAbove best next then some best else some next)
    (later : List (String × Option F64)) (best : String × Option F64) :
    later.foldl turn (some best) = some (better best later) := by
  induction later generalizing best with
  | nil => rfl
  | cons next later ih =>
    rw [List.foldl_cons, keeps]
    by_cases above : ranksAbove best next = true
    · simpa [better, above] using ih best
    · simpa [better, above] using ih next

theorem topClassification_cons {classes : List Classification} {first : String × Option F64}
    {later : List (String × Option F64)} (listed : classes.filterMap typed = first :: later) :
    topClassification classes = some (better first later) := by
  change (classes.filterMap typed).foldl _ none = _
  rw [listed]
  exact foldl_better (fun _ _ => rfl) later first

theorem better_mem (later : List (String × Option F64)) (best : String × Option F64) :
    (better best later = best ∧ ∀ other ∈ later, ranksAbove best other = true) ∨ better best later ∈ later := by
  induction later generalizing best with
  | nil => exact Or.inl ⟨rfl, List.forall_mem_nil _⟩
  | cons next later ih =>
    by_cases above : ranksAbove best next = true
    · have step : better best (next :: later) = better best later := by simp [better, above]
      rw [step]
      rcases ih best with ⟨kept, all⟩ | inside
      · exact Or.inl ⟨kept, List.forall_mem_cons.mpr ⟨above, all⟩⟩
      · exact Or.inr (List.mem_cons_of_mem _ inside)
    · have step : better best (next :: later) = better next later := by simp [better, above]
      rw [step]
      rcases ih next with ⟨kept, -⟩ | inside
      · rw [kept]
        exact Or.inr List.mem_cons_self
      · exact Or.inr (List.mem_cons_of_mem _ inside)

theorem better_of_above {best : String × Option F64} {later : List (String × Option F64)}
    (all : ∀ other ∈ later, ranksAbove best other = true) : better best later = best := by
  induction later with
  | nil => rfl
  | cons next later ih =>
    rw [List.forall_mem_cons] at all
    have step : better best (next :: later) = better best later := by simp [better, all.1]
    rw [step, ih all.2]

/-- Where any classification has a type, one of those that do is chosen. -/
theorem topClassification_typed (classes : List Classification) :
    (∀ c ∈ classes, c.type = none) ∨
      ∃ (chosen : Nat) (top : String × Option F64), topClassification classes = some top ∧
        classes[chosen]?.bind typed = some top := by
  cases listed : classes.filterMap typed with
  | nil =>
    left
    intro c member
    have silent := List.filterMap_eq_nil_iff.mp listed c member
    rw [typed, Option.map_eq_none_iff] at silent
    exact silent
  | cons first later =>
    right
    have inside : better first later ∈ classes.filterMap typed := by
      rw [listed]
      rcases better_mem later first with ⟨kept, -⟩ | found
      · rw [kept]
        exact List.mem_cons_self
      · exact List.mem_cons_of_mem _ found
    obtain ⟨c, member, pair⟩ := List.mem_filterMap.mp inside
    obtain ⟨i, within, rfl⟩ := List.mem_iff_getElem.mp member
    exact ⟨i, _, topClassification_cons listed, by rw [List.getElem?_eq_getElem within, Option.bind_some, pair]⟩

section

variable {first : Classification} {later : List Classification} {t : String} (named : first.type = some t)
include named

theorem first_listed : (first :: later).filterMap typed = (t, first.confidence) :: later.filterMap typed := by
  have told : typed first = some (t, first.confidence) := by rw [typed, named, Option.map_some]
  rw [List.filterMap_cons_some told]

theorem first_is_top (above : ∀ other ∈ later.filterMap typed, ranksAbove (t, first.confidence) other = true) :
    topClassification (first :: later) = some (t, first.confidence) := by
  rw [topClassification_cons (first_listed named), better_of_above above]

/-- Where the first classification is the top one, none ranks above it, or it is named again. -/
theorem top_is_first {top : String × Option F64} (found : topClassification (first :: later) = some top)
    (entry : typed first = some top) :
    (∀ other ∈ later.filterMap typed, ranksAbove (t, first.confidence) other = true) ∨ ∃ c ∈ later, c.type = some t := by
  rw [topClassification_cons (first_listed named), Option.some.injEq] at found
  rcases better_mem (later.filterMap typed) (t, first.confidence) with ⟨-, above⟩ | inside
  · exact Or.inl above
  · right
    obtain ⟨c, member, pair⟩ := List.mem_filterMap.mp inside
    rw [← found, typed, named, Option.map_some, Option.some.injEq] at entry
    obtain ⟨u, spelled, made⟩ := Option.map_eq_some_iff.mp pair
    refine ⟨c, member, ?_⟩
    rw [← entry, Prod.mk.injEq] at made
    rw [spelled, made.1]

end

theorem entry_of_metadata {calls : List Call} {key value : String} (member : .metadata key value ∈ calls) :
    key ∈ entryKeys calls :=
  List.mem_filterMap.mpr ⟨_, member, rfl⟩

section

variable (platform : Platform) (p : SapientParser) (around : Surroundings) (nodeId : String)
  (observed : Option String) (raw : Bytes) (r : DetectionReport)

theorem classification_listed (t : String) :
    (∃ n : Nat, .metadata ("classification_" ++ toString n) t ∈ Detection.classifications r) ↔
      ∃ c ∈ r.classification.drop 1, c.type = some t := by
  unfold Detection.classifications
  constructor
  · rintro ⟨n, member⟩
    obtain ⟨entry, inside, told⟩ := List.mem_flatMap.mp member
    refine ⟨entry.1, ?_, ?_⟩
    · rw [← List.zipIdx_map_fst 0 r.classification, ← List.map_drop]
      exact List.mem_map_of_mem inside
    · cases type : entry.1.type with
      | none => simp [type, ifGiven] at told
      | some other =>
        simp only [type, ifGiven, Option.map_some, Option.getD_some, List.mem_singleton, Call.metadata.injEq] at told
        rw [told.2]
  · rintro ⟨c, member, type⟩
    rw [← List.zipIdx_map_fst 0 r.classification, ← List.map_drop] at member
    obtain ⟨entry, inside, rfl⟩ := List.mem_map.mp member
    exact ⟨entry.2, List.mem_flatMap.mpr ⟨entry, inside, by simp [type, ifGiven]⟩⟩

/-- No other part of a detection uses the keys of the classifications. -/
theorem classification_only (n : Nat) (t : String)
    (member : .metadata ("classification_" ++ toString n) t ∈ (p.detection platform around nodeId r observed raw).2) :
    .metadata ("classification_" ++ toString n) t ∈ Detection.classifications r := by
  have label : family ("classification_" ++ toString n) = some "classification_" := family_append (by decide) _
  have outside : ∀ {keys : List String} {calls : List Call}, (entryKeys calls).Sublist keys →
      (∀ key ∈ keys, family key ≠ some "classification_") → .metadata ("classification_" ++ toString n) t ∉ calls := by
    intro keys calls within other told
    exact other _ (within.subset (entry_of_metadata told)) label
  have head : ∀ key ∈ headKeys, family key ≠ some "classification_" := by decide
  have opening : ∀ key ∈ openingKeys, family key ≠ some "classification_" := by decide
  have middle : ∀ key ∈ ["sapient_behaviour", "sapient_state", "native_id", "colour"],
      family key ≠ some "classification_" := by decide
  have closing : ∀ key ∈ ["node_name"], family key ≠ some "classification_" := by decide
  rw [detection_calls] at member
  simp only [List.mem_append] at member
  rcases member with told | told | told | told | told | told | told | told
  · exact absurd told (outside (builder_entryKeys p around nodeId observed raw) head)
  · exact absurd told (outside (detection_opening_tells platform _ nodeId r (p.node nodeId)).keys opening)
  · exact told
  · exact absurd told (outside (detection_middle_tells platform _ r).keys middle)
  · apply absurd told (outside (infos_tells r).keys _)
    intro key inside
    rw [infoKeys_family inside]
    decide
  · apply absurd told (outside (signals_tells platform r).keys _)
    intro key inside
    obtain ⟨entry, -, made⟩ := List.mem_flatMap.mp inside
    have signal : ∃ rest, key = "signal_" ++ rest := by
      simp only [List.mem_cons, List.not_mem_nil, or_false] at made
      rcases made with rfl | rfl
      · exact ⟨_, String.append_assoc⟩
      · exact ⟨_, String.append_assoc⟩
    obtain ⟨rest, rfl⟩ := signal
    rw [family_append (by decide)]
    decide
  · apply absurd told (outside (files_tells r).keys _)
    intro key inside
    obtain ⟨entry, -, made⟩ := List.mem_flatMap.mp inside
    rw [List.mem_singleton.mp made, String.append_assoc, family_append (by decide)]
    decide
  · exact absurd told (outside (detection_closing_tells (p.node nodeId)).keys closing)

theorem governed_told {top : String × Option F64} (chosen : topClassification r.classification = some top) {key : String}
    (named : key = "object_class" ∨ key = "sapient_classification") :
    governed platform (p.detectionType platform r) key top.1 ∈ (p.detection platform around nodeId r observed raw).2 := by
  rw [detection_calls]
  apply List.mem_append_right
  apply List.mem_append_left
  apply List.mem_append_right
  rw [chosen]
  apply List.mem_append_left
  rcases named with rfl | rfl
  · exact List.mem_cons_of_mem _ List.mem_cons_self
  · exact List.mem_cons_self

theorem carries_governed {calls : List Call} {event : Event} (records : Records calls event) {key value : String}
    (told : governed platform event.entityType key value ∈ calls) : CarriesAs platform event key value := by
  unfold CarriesAs
  unfold governed at told
  by_cases governs : platform.governs event.entityType key = true
  · rw [if_pos governs] at told ⊢
    exact (records.attributes _ _).mpr told
  · rw [if_neg governs] at told ⊢
    exact (records.metadata _ _).mpr told

/-- The metadata lists the types of all classifications but the first. -/
theorem listed_iff {event : Event} (records : Records (p.detection platform around nodeId r observed raw).2 event) (t : String) :
    (∃ n : Nat, ⟨"classification_" ++ toString n, t⟩ ∈ event.metadata) ↔ ∃ c ∈ r.classification.drop 1, c.type = some t := by
  rw [← classification_listed]
  apply exists_congr
  intro n
  rw [records.metadata]
  constructor
  · exact classification_only platform p around nodeId observed raw r n t
  · intro told
    rw [detection_calls]
    exact List.mem_append_right _ (List.mem_append_right _ (List.mem_append_left _ told))

theorem carries_iff {event : Event} (records : Records (p.detection platform around nodeId r observed raw).2 event)
    (type : event.entityType = p.detectionType platform r) :
    CarriesClassifications platform event r.classification ↔ FirstIsKept r.classification := by
  have told : ∀ top, topClassification r.classification = some top →
      CarriesAs platform event "object_class" top.1 ∧ CarriesAs platform event "sapient_classification" top.1 := by
    intro top chosen
    constructor
    · apply carries_governed platform records
      rw [type]
      exact governed_told platform p around nodeId observed raw r chosen (Or.inl rfl)
    · apply carries_governed platform records
      rw [type]
      exact governed_told platform p around nodeId observed raw r chosen (Or.inr rfl)
  have listed := listed_iff platform p around nodeId observed raw r records
  unfold CarriesClassifications
  generalize r.classification = classes at told listed ⊢
  cases classes with
  | nil => simp [FirstIsKept]
  | cons first later =>
    rw [List.drop_one, List.tail_cons] at listed
    constructor
    · rintro (untyped | ⟨chosen, top, found, entry, -, -, others⟩) t named
      · rw [untyped first List.mem_cons_self] at named
        cases named
      · cases chosen with
        | zero => exact top_is_first named found entry
        | succ chosen => exact Or.inr ((listed t).mp (others 0 first t rfl (Nat.succ_ne_zero _).symm named))
    · intro kept
      rcases topClassification_typed (first :: later) with untyped | ⟨chosen, top, found, entry⟩
      · exact Or.inl untyped
      · right
        have others : ∀ place, (place = 0 ∨ ∀ t, first.type = some t → ∃ c ∈ later, c.type = some t) →
            ∀ (i : Nat) (c : Classification) (t : String), (first :: later)[i]? = some c → i ≠ place → c.type = some t →
              ∃ n : Nat, ⟨"classification_" ++ toString n, t⟩ ∈ event.metadata := by
          intro place again i c t found other spelled
          apply (listed t).mpr
          cases i with
          | zero =>
            rw [← Option.some.inj found] at spelled
            rcases again with rfl | again
            · exact absurd rfl other
            · exact again t spelled
          | succ i => exact ⟨c, List.mem_of_getElem? found, spelled⟩
        cases named : first.type with
        | none =>
          exact ⟨chosen, top, found, entry, (told top found).1, (told top found).2,
            others chosen (Or.inr fun t spelled => absurd (named.symm.trans spelled) (by simp))⟩
        | some kind =>
          rcases kept kind named with above | again
          · have itself := first_is_top named above
            have here : (first :: later)[0]?.bind typed = some (kind, first.confidence) := by
              rw [List.getElem?_cons_zero, Option.bind_some, typed, named, Option.map_some]
            exact ⟨0, _, itself, here, (told _ itself).1, (told _ itself).2, others 0 (Or.inl rfl)⟩
          · refine ⟨chosen, top, found, entry, (told top found).1, (told top found).2, others chosen (Or.inr fun t spelled => ?_)⟩
            rw [← Option.some.inj (named.symm.trans spelled)]
            exact again

theorem detection_built {p : SapientParser} {decode : Bytes → Option SapientMessage} {message : SapientMessage}
    {r : DetectionReport} {event : Event} (decoded : decode raw = some message)
    (given : message.content = some (.detectionReport r))
    (built : (p.parseMessage platform decode around raw).2 = .ok (some event)) :
    Records (p.detection platform around (message.nodeId.getD "") r (message.timestamp.bind platform.rfc3339) raw).2 event ∧
      event.entityType = p.detectionType platform r := by
  have run : Rust.run p.sourceId (p.detectionType platform r)
      (p.detection platform around (message.nodeId.getD "") r (message.timestamp.bind platform.rfc3339) raw).2 =
        .ok event := by
    unfold SapientParser.parseMessage at built
    have called : (p.detection platform around (message.nodeId.getD "") r (message.timestamp.bind platform.rfc3339) raw).1 =
      p.detectionType platform r := rfl
    simp only [decoded, given, SapientParser.take] at built
    rw [called] at built
    cases result : Rust.run p.sourceId (p.detectionType platform r)
        (p.detection platform around (message.nodeId.getD "") r (message.timestamp.bind platform.rfc3339) raw).2 with
    | error e =>
      rw [result] at built
      cases built
    | ok made =>
      rw [result] at built
      cases built
      rfl
  obtain ⟨⟨id, ts, shape⟩, -⟩ := run_ok run
  rw [shape]
  exact ⟨eventOf_records _ _ _ id ts _, eventOf_entityType _ _ _ id ts _⟩

end

/-- A detection's event names every classification exactly when leaving the first one out of the list loses none. -/
theorem classifications_kept_iff (platform : Platform) (p : SapientParser) (decode : Bytes → Option SapientMessage)
    (around : Surroundings) (frame : Bytes) {message : SapientMessage} {r : DetectionReport} {event : Event}
    (decoded : decode frame = some message) (given : message.content = some (.detectionReport r))
    (built : (p.parseMessage platform decode around frame).2 = .ok (some event)) :
    CarriesClassifications platform event r.classification ↔ FirstIsKept r.classification := by
  obtain ⟨records, type⟩ := detection_built platform around frame decoded given built
  exact carries_iff platform p around _ _ frame r records type

def reportOf (classes : List Classification) : SapientMessage where
  nodeId := some "2f1c6a1e-4a5e-4b7e-9b1a-0d3f2e6c7a11"
  content := some (.detectionReport { classification := classes })

/-- A bird with confidence 0.9 before a drone with 0.2. -/
def birdFirst : List Classification := [⟨some "Bird", some ⟨0x3feccccccccccccd⟩⟩, ⟨some "Drone", some ⟨0x3fc999999999999a⟩⟩]

/-- The same classes with the drone the surer one. -/
def droneSurer : List Classification := [⟨some "Bird", some ⟨0x3fc999999999999a⟩⟩, ⟨some "Drone", some ⟨0x3feccccccccccccd⟩⟩]

theorem bird_and_drone_are_named : ∃ event,
    (fusionParser.parseMessage Platform.idle (fun _ => some (reportOf birdFirst)) noon []).2 = .ok (some event) ∧
      (CarriesClassifications Platform.idle event birdFirst ↔ FirstIsKept birdFirst) := by
  have given : (reportOf birdFirst).content = some (.detectionReport { classification := birdFirst }) := rfl
  exact ⟨_, rfl, classifications_kept_iff Platform.idle fusionParser (fun _ => some (reportOf birdFirst)) noon [] rfl given
    rfl⟩

/-- Where the second classification is the surer one, the event does not say that a bird was seen as well. -/
theorem bird_is_lost : ∃ event,
    (fusionParser.parseMessage Platform.idle (fun _ => some (reportOf droneSurer)) noon []).2 = .ok (some event) ∧
      ¬CarriesClassifications Platform.idle event droneSurer := by
  obtain ⟨event, built⟩ : ∃ event,
      (fusionParser.parseMessage Platform.idle (fun _ => some (reportOf droneSurer)) noon []).2 = .ok (some event) := ⟨_, rfl⟩
  refine ⟨event, built, fun carried => ?_⟩
  have given : (reportOf droneSurer).content = some (.detectionReport { classification := droneSurer }) := rfl
  obtain ⟨records, type⟩ := detection_built Platform.idle noon [] rfl given built
  have kept := (carries_iff Platform.idle fusionParser noon _ _ [] _ records type).mp carried
  rcases kept "Bird" rfl with above | ⟨c, member, spelled⟩
  · exact absurd (above ("Drone", some ⟨0x3feccccccccccccd⟩) List.mem_cons_self) (by decide)
  · rw [List.mem_singleton.mp member] at spelled
    exact absurd spelled (by decide)

end ReportProof
