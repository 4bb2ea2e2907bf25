import AjarConnectors.Egress.Render
import AjarConnectors.Marking.Apply

namespace MarkingModel

open TextModel EventModel EgressModel

/-- The value of a class tag that is not blank. -/
def classValue (tag : String) : Option String :=
  (stripPrefix "class:" tag).bind fun v => if (trim v).isEmpty then none else some (trim v)

/-- The tags before the first ranked one; none where none is ranked. -/
def earlier (tags : List String) : List String := tags.take ((tags.findIdx? isRanked).getD 0)

/-- A label whose classification is this text. -/
def StatesClass (label : Option Value) (text : String) : Prop :=
  ∃ fields, label = some (.object fields) ∧ fields.lookup "classification" = some (.string text)

end MarkingModel

namespace MarkingProof

open TextModel TextProof MarkingModel EventModel EgressModel

section

variable (toUppercase : String → String)

theorem labelTag_class (found : Option String × List String) (tag : String) :
    (labelTag toUppercase found tag).1 = found.1.or ((classValue tag).map toUppercase) := by
  unfold labelTag classValue
  cases cut : stripPrefix "class:" tag with
  | none =>
    dsimp only
    rw [Option.bind_none, Option.map_none, Option.or_none]
    split
    · rfl
    · split <;> rfl
  | some v =>
    dsimp only
    rw [Option.bind_some]
    cases given : found.1 with
    | some text => simp [given]
    | none =>
      cases blank : (trim v).isEmpty with
      | true => simp [given]
      | false => simp

theorem foldl_labelTag_class (tags : List String) (found : Option String × List String) :
    (tags.foldl (labelTag toUppercase) found).1 = found.1.or ((tags.findSome? classValue).map toUppercase) := by
  induction tags generalizing found with
  | nil => simp
  | cons tag tags ih =>
    rw [List.foldl_cons, ih, labelTag_class, Option.or_assoc, List.findSome?_cons]
    cases classValue tag <;> simp

theorem label_lookup (classification : String) (cfg : LabelConfig) (timestamp : String) :
    (KeyMap.insertAll [("policyIdentifier", Value.string cfg.policyIdentifier), ("classification", .string classification),
      ("creationDateTime", .string timestamp)] []).lookup "classification" = some (.string classification) := by
  rw [KeyMap.lookup_insertAll (by simp)]
  simp [List.lookup_cons]

/-- The label's classification is the first class tag that is not blank, in upper case. -/
theorem label_states_iff (cfg : LabelConfig) (event : Event) (text : String) :
    StatesClass (confidentialityLabel toUppercase cfg event) text ↔
      (event.policyTags.findSome? classValue).map toUppercase = some text := by
  have read := foldl_labelTag_class toUppercase event.policyTags (none, [])
  rw [Option.none_or] at read
  unfold confidentialityLabel StatesClass
  dsimp only
  rw [← read]
  cases (event.policyTags.foldl (labelTag toUppercase) (none, [])).1 with
  | none => simp
  | some classification =>
    have written := label_lookup classification cfg event.timestamp
    simp only [Option.map_some, Option.some.injEq, Value.object.injEq]
    constructor
    · rintro ⟨fields, rfl, found⟩
      split at found
      · rw [written] at found
        cases found
        rfl
      · rw [KeyMap.lookup_insert, if_neg (by decide), written] at found
        cases found
        rfl
    · rintro rfl
      refine ⟨_, rfl, ?_⟩
      split
      · exact written
      · rw [KeyMap.lookup_insert, if_neg (by decide)]
        exact written

end

theorem classValue_level (level : Level) : classValue ("class:" ++ level.name) = some level.name := by
  cases level <;> decide

/-- The label of a stamped event states the resolved level exactly if no class tag before the first ranked one
    is read in its place. -/
theorem label_states_resolved_iff (toUppercase : String → String) (labels : LabelConfig) (cfg : MarkingConfig) (m : Marking)
    (made : Marking.fromConfig cfg = .ok m) (raw : String) (stated : cfg.classification = some raw) (event : Event) :
    ∃ floor top, classificationLevel raw = some floor ∧ Resolved floor event.policyTags (m.apply event).policyTags top ∧
      (StatesClass (confidentialityLabel toUppercase labels (m.apply event)) (toUppercase top.name) ↔
        ∀ text, (earlier event.policyTags).findSome? classValue = some text → toUppercase text = toUppercase top.name) := by
  rcases fromConfig_floor made with ⟨none, _⟩ | ⟨raw', floor, given, known, classified⟩
  · rw [stated] at none
    cases none
  · rw [stated] at given
    cases given
    obtain ⟨front, back, added, around, shape, _⟩ := applyTags_shape classified event.policyTags
    have before : earlier event.policyTags = front := by
      rw [earlier, around.place]
      exact around.leading.symm
    have tags : (m.apply event).policyTags = front ++ ("class:" ++ (highest floor event.policyTags).name) :: (back ++ added) := shape
    refine ⟨floor, highest floor event.policyTags, known, resolved_of_classified classified event.policyTags, ?_⟩
    rw [label_states_iff, tags, before, List.findSome?_append, List.findSome?_cons, classValue_level]
    cases front.findSome? classValue with
    | none => simp
    | some text => simp

theorem raised_label_is_read :
    ∃ floor top, classificationLevel "secret" = some floor ∧
      Resolved floor ["rel:GBR", "class:ts"] ["rel:GBR", "class:top-secret"] top ∧
      StatesClass (confidentialityLabel toAsciiUppercase ⟨"NATO"⟩ { Event.default with policyTags := ["rel:GBR", "class:top-secret"] })
        (toAsciiUppercase top.name) := by
  have made : Marking.fromConfig { classification := some "secret" } = .ok ⟨["class:secret"]⟩ := by decide
  have stamped : Marking.apply ⟨["class:secret"]⟩ { Event.default with policyTags := ["rel:GBR", "class:ts"] } =
      { Event.default with policyTags := ["rel:GBR", "class:top-secret"] } := by decide
  obtain ⟨floor, top, known, resolved, states⟩ := label_states_resolved_iff toAsciiUppercase ⟨"NATO"⟩ _ _ made "secret" rfl
    { Event.default with policyTags := ["rel:GBR", "class:ts"] }
  rw [stamped] at resolved states
  refine ⟨floor, top, known, resolved, states.mpr ?_⟩
  intro text found
  have nothing : (earlier ["rel:GBR", "class:ts"]).findSome? classValue = none := by decide
  rw [nothing] at found
  cases found

/-- A class tag of no known level that stands before the ranked one is what the label states. -/
theorem unranked_class_is_read :
    ¬ ∀ (toUppercase : String → String) (labels : LabelConfig) (cfg : MarkingConfig) (m : Marking) (raw : String) (event : Event),
      Marking.fromConfig cfg = .ok m → cfg.classification = some raw →
        ∃ floor top, classificationLevel raw = some floor ∧ Resolved floor event.policyTags (m.apply event).policyTags top ∧
          StatesClass (confidentialityLabel toUppercase labels (m.apply event)) (toUppercase top.name) := by
  intro all
  obtain ⟨floor, top, _, _, states⟩ := all toAsciiUppercase ⟨"NATO"⟩ { classification := some "restricted" }
    ⟨["class:restricted"]⟩ "restricted" { Event.default with policyTags := ["class:sensitive", "class:secret"] }
    (by decide) rfl
  rw [label_states_iff] at states
  have read : ((Marking.apply ⟨["class:restricted"]⟩
      { Event.default with policyTags := ["class:sensitive", "class:secret"] }).policyTags.findSome? classValue).map
        toAsciiUppercase = some "SENSITIVE" := by decide
  rw [read, Option.some.injEq] at states
  cases top <;> exact absurd states (by decide)

end MarkingProof
