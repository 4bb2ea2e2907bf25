import AjarConnectors.Egress.Delivery

namespace EgressModel

open EventModel

inductive Content where
  | attributes
  | metadata
  deriving DecidableEq

def Content.kind : Content → String
  | attributes => "attr:"
  | metadata => "meta:"

def Content.area : Content → String
  | attributes => "attributes"
  | metadata => "metadata"

def Content.entries (event : Event) : Content → List Attribute
  | attributes => event.attributes
  | metadata => event.metadata

/-- The entry stands under each name mapped to its path, or, if there is none, under `unmapped`. -/
def Delivered (content : Content) (mapping : Mapping) (out : Object) (a : Attribute) : Prop :=
  (content.kind ++ a.key ∈ mapping.mappedPaths ∧
    ∀ field ∈ mapping.fields, field.2 = content.kind ++ a.key → out.lookup field.1 = some (.string a.value)) ∨
  ∃ unmapped entries, out.lookup "unmapped" = some (.object unmapped) ∧
    unmapped.lookup content.area = some (.object entries) ∧ entries.lookup a.key = some (.string a.value)

section

variable (toUppercase : String → String) (event : Event) (mapping : Mapping) (unmapped : Unmapped)
  (label : Option LabelConfig)

/-- Nothing comes out only under `Refuse`, and then exactly for content no path names; otherwise every
    entry of the event comes out with its value. -/
def DeliversContent : Prop :=
  ((render toUppercase event mapping unmapped label = none ∧ unmapped = .refuse) ∨
    ∃ out, render toUppercase event mapping unmapped label = some (.object out) ∧
      ∀ content : Content, ∀ a ∈ content.entries event, Delivered content mapping out a) ∧
  (unmapped = .refuse → (render toUppercase event mapping unmapped label = none ↔ Unnamed event mapping))

def KeepsContent : Prop :=
  ∀ content : Content, ∀ a ∈ content.entries event, ∀ field ∈ mapping.fields, field.2 = content.kind ++ a.key →
    ¬ Overwritten toUppercase event mapping label field.1 ∨ (field.1 = "event_id" ∧ a.value = event.id)

end

end EgressModel

namespace EgressProof

open EventModel EgressModel

section

variable {event : Event} {mapping : Mapping}

theorem lookup_content (event : Event) (content : Content) (key : String) :
    lookup event (content.kind ++ key) = findAttribute (content.entries event) key := by
  cases content with
  | attributes => exact lookup_attr event key
  | metadata => exact lookup_meta event key

theorem unnamed_of_mem {content : Content} {a : Attribute} (member : a ∈ content.entries event)
    (unnamed : content.kind ++ a.key ∉ mapping.mappedPaths) : Unnamed event mapping := by
  cases content with
  | attributes => exact .inl ⟨a, member, unnamed⟩
  | metadata => exact .inr ⟨a, member, unnamed⟩

theorem unmappedObject_lookup (event : Event) (mapping : Mapping) (content : Content) :
    (unmappedObject (extras "attr:" mapping.mappedPaths event.attributes)
      (extras "meta:" mapping.mappedPaths event.metadata)).lookup content.area =
      if (extras content.kind mapping.mappedPaths (content.entries event)).isEmpty then none
      else some (.object (extras content.kind mapping.mappedPaths (content.entries event))) := by
  cases content with
  | attributes =>
    simp only [unmappedObject, Content.area, Content.kind, Content.entries]
    split <;> split <;> simp_all
  | metadata =>
    simp only [unmappedObject, Content.area, Content.kind, Content.entries]
    split <;> split <;> simp_all

variable {toUppercase : String → String} {unmapped : Unmapped} {label : Option LabelConfig} {out : Object}

theorem unmapped_lookup (rendered : render toUppercase event mapping unmapped label = some (.object out))
    {content : Content} (unique : ((content.entries event).map Attribute.key).Nodup) {a : Attribute}
    (member : a ∈ content.entries event) :
    (∃ unmapped entries, out.lookup "unmapped" = some (.object unmapped) ∧
      unmapped.lookup content.area = some (.object entries) ∧ entries.lookup a.key = some (.string a.value)) ↔
      content.kind ++ a.key ∉ mapping.mappedPaths := by
  have listed : (extras content.kind mapping.mappedPaths (content.entries event)).lookup a.key =
      if content.kind ++ a.key ∈ mapping.mappedPaths then none else some (.string a.value) := extras_lookup unique member
  have stored := unmappedObject_lookup event mapping content
  constructor
  · intro ⟨unmapped, entries, found, inArea, inSection⟩ named
    rcases render_cases event mapping toUppercase label rendered "unmapped" with
      ⟨-, value⟩ | ⟨other, -⟩ | ⟨other, -⟩ | ⟨-, -, value⟩ | ⟨other | other, -, -⟩
    · -- a mapped name never carries an object
      rw [found] at value
      obtain ⟨path, -, carries⟩ := Option.bind_eq_some_iff.mp value.symm
      rcases lookup_cases event carries with ⟨s, text⟩ | ⟨x, number⟩ | ⟨-, tags⟩
      · cases text
      · cases number
      · cases tags
    · simp at other
    · simp at other
    · rw [found] at value
      cases value
      rw [stored] at inArea
      split at inArea
      · cases inArea
      · cases inArea
        rw [if_pos named, inSection] at listed
        cases listed
    · simp at other
    · simp at other
  · intro unnamed
    rw [if_neg unnamed] at listed
    have nonempty : ¬ (extras content.kind mapping.mappedPaths (content.entries event)).isEmpty = true :=
      fun empty => unnamed ((extras_isEmpty_iff _ _ _).mp empty a member)
    rw [if_neg nonempty] at stored
    refine ⟨_, _, ?_, stored, listed⟩
    rw [render_lookup event mapping toUppercase label rendered, if_pos ⟨rfl, unnamed_of_mem member unnamed⟩]

theorem mapped_lookup (rendered : render toUppercase event mapping unmapped label = some (.object out))
    {name path value : String} (member : (name, path) ∈ mapping.fields)
    (carries : lookup event path = some (.string value)) :
    out.lookup name = some (.string value) ↔
      ¬ Overwritten toUppercase event mapping label name ∨ (name = "event_id" ∧ value = event.id) := by
  rcases render_cases event mapping toUppercase label rendered name with
    ⟨kept, found⟩ | ⟨rfl, own, found⟩ | ⟨rfl, own, found⟩ | ⟨rfl, own, found⟩ | ⟨own, overwritten, fields, found⟩
  · have held := render_kept rendered member kept
    simp [held, carries, kept]
  · have overwritten : Overwritten toUppercase event mapping label "event_id" := .inl ⟨rfl, own⟩
    simp [found, overwritten, eq_comm]
  · have overwritten : Overwritten toUppercase event mapping label "policy_tags" := .inr (.inl ⟨rfl, own⟩)
    simp [found, overwritten, tagsValue]
  · have overwritten : Overwritten toUppercase event mapping label "unmapped" := .inr (.inr (.inr (.inr ⟨rfl, own⟩)))
    simp [found, overwritten]
  · have other : name ≠ "event_id" := by rcases own with rfl | rfl <;> decide
    simp [found, overwritten, other]

theorem delivered_iff (rendered : render toUppercase event mapping unmapped label = some (.object out))
    {content : Content} (unique : ((content.entries event).map Attribute.key).Nodup) {a : Attribute}
    (member : a ∈ content.entries event) :
    Delivered content mapping out a ↔ ∀ field ∈ mapping.fields, field.2 = content.kind ++ a.key →
      ¬ Overwritten toUppercase event mapping label field.1 ∨ (field.1 = "event_id" ∧ a.value = event.id) := by
  have carries : lookup event (content.kind ++ a.key) = some (.string a.value) := by
    rw [lookup_content, findAttribute_of_mem unique member]
  have under : ∀ field ∈ mapping.fields, field.2 = content.kind ++ a.key →
      (out.lookup field.1 = some (.string a.value) ↔
        ¬ Overwritten toUppercase event mapping label field.1 ∨ (field.1 = "event_id" ∧ a.value = event.id)) := by
    intro ⟨name, path⟩ listed same
    subst same
    exact mapped_lookup rendered listed carries
  rw [Delivered, unmapped_lookup rendered unique member]
  constructor
  · intro delivered field listed names
    rcases delivered with ⟨-, mapped⟩ | unnamed
    · exact (under field listed names).mp (mapped field listed names)
    · exact absurd (names ▸ List.mem_map_of_mem listed) unnamed
  · intro kept
    by_cases named : content.kind ++ a.key ∈ mapping.mappedPaths
    · exact .inl ⟨named, fun field listed names => (under field listed names).mpr (kept field listed names)⟩
    · exact .inr named

end

/-- Every attribute and every metadata entry comes out with its value exactly when none is mapped to a name
    that `render` then writes over. -/
theorem content_delivered_iff (toUppercase : String → String) (event : Event) (mapping : Mapping)
    (unmapped : Unmapped) (label : Option LabelConfig)
    (uniqueAttributes : (event.attributes.map Attribute.key).Nodup)
    (uniqueMetadata : (event.metadata.map Attribute.key).Nodup) :
    DeliversContent toUppercase event mapping unmapped label ↔
      (unmapped = .refuse ∧ Unnamed event mapping) ∨ KeepsContent toUppercase event mapping label := by
  have unique : ∀ content : Content, ((content.entries event).map Attribute.key).Nodup := by
    intro content
    cases content with
    | attributes => exact uniqueAttributes
    | metadata => exact uniqueMetadata
  have refused := render_eq_none_iff event mapping toUppercase label unmapped
  constructor
  · intro delivers
    rcases delivers.1 with ⟨nothing, -⟩ | ⟨out, rendered, delivered⟩
    · exact .inl (refused.mp nothing)
    · exact .inr fun content a member =>
        (delivered_iff rendered (unique content) member).mp (delivered content a member)
  · intro condition
    refine ⟨?_, fun refuse => refused.trans (and_iff_right refuse)⟩
    rcases render_object event mapping toUppercase label unmapped with nothing | ⟨out, rendered⟩
    · exact .inl ⟨nothing, (refused.mp nothing).1⟩
    · refine .inr ⟨out, rendered, fun content a member => ?_⟩
      rcases condition with impossible | kept
      · rw [refused.mpr impossible] at rendered
        cases rendered
      · exact (delivered_iff rendered (unique content) member).mpr (kept content a member)

end EgressProof

namespace EgressModel

open EventModel

def trackEvent : Event := { Event.default with id := "e1", attributes := [⟨"speed", "9"⟩], metadata := [⟨"unit", "kn"⟩] }

def speedConfig : Config :=
  ⟨"ajar.egress.site", 2, ⟨[("speed", "attr:speed")], by simp⟩, .include, none⟩

def governanceSpeedConfig : Config :=
  ⟨"ajar.egress.site", 2, ⟨[("governance", "attr:speed")], by simp⟩, .include, none⟩

end EgressModel

namespace EgressProof

open EventModel EgressModel

theorem speedConfig_delivers_content :
    speedConfig.validate = .ok () ∧
      DeliversContent id trackEvent speedConfig.mapping speedConfig.unmapped speedConfig.confidentialityLabel := by
  refine ⟨by decide, (content_delivered_iff id trackEvent _ _ _ (by decide) (by decide)).mpr (.inr ?_)⟩
  intro content a member field listed names
  refine .inl ?_
  obtain rfl := List.mem_singleton.mp listed
  decide

theorem governanceSpeedConfig_loses_content :
    ¬ ∀ (toUppercase : String → String) (cfg : Config) (event : Event), cfg.validate = .ok () →
      (event.attributes.map Attribute.key).Nodup → (event.metadata.map Attribute.key).Nodup →
      DeliversContent toUppercase event cfg.mapping cfg.unmapped cfg.confidentialityLabel := by
  intro claim
  have rendered : render id trackEvent governanceSpeedConfig.mapping governanceSpeedConfig.unmapped
      governanceSpeedConfig.confidentialityLabel = some (.object
        [("event_id", .string "e1"), ("governance", governance), ("policy_tags", .array []),
          ("unmapped", .object [("metadata", .object [("unit", .string "kn")])])]) := rfl
  obtain ⟨⟨nothing, -⟩ | ⟨out, found, delivered⟩, -⟩ :=
    claim id governanceSpeedConfig trackEvent (by decide) (by decide) (by decide)
  · rw [rendered] at nothing
    cases nothing
  · have member : (⟨"speed", "9"⟩ : Attribute) ∈ Content.attributes.entries trackEvent := List.mem_singleton.mpr rfl
    have kept := (delivered_iff found (by decide) member).mp (delivered .attributes _ member)
      ("governance", "attr:speed") (List.mem_singleton.mpr rfl) rfl
    revert kept
    decide

end EgressProof
