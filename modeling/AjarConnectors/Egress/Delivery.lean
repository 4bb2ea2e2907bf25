import AjarConnectors.Egress.Render

namespace EgressModel

open EventModel TextModel

/-- Some attribute or metadata entry is named by no path of the mapping. -/
def Unnamed (event : Event) (mapping : Mapping) : Prop :=
  (∃ a ∈ event.attributes, "attr:" ++ a.key ∉ mapping.mappedPaths) ∨
    ∃ m ∈ event.metadata, "meta:" ++ m.key ∉ mapping.mappedPaths

instance (event : Event) (mapping : Mapping) : Decidable (Unnamed event mapping) := inferInstanceAs (Decidable (_ ∨ _))

section

variable (toUppercase : String → String) (event : Event) (mapping : Mapping) (label : Option LabelConfig)

/-- `render` writes this name itself, over whatever the mapping put there. -/
def Overwritten (name : String) : Prop :=
  (name = "event_id" ∧ "id" ∉ mapping.mappedPaths) ∨
  (name = "policy_tags" ∧ "policy_tags" ∉ mapping.mappedPaths) ∨
  name = "governance" ∨
  (name = "confidentiality_label" ∧ (label.bind fun cfg => confidentialityLabel toUppercase cfg event).isSome) ∨
  (name = "unmapped" ∧ Unnamed event mapping)

instance (name : String) : Decidable (Overwritten toUppercase event mapping label name) :=
  inferInstanceAs (Decidable (_ ∨ _ ∨ _ ∨ _ ∨ _))

end

end EgressModel

namespace EgressProof

open EventModel TextModel TextProof EgressModel

section

variable (event : Event) (mapping : Mapping)

theorem fields_nodup : (mapping.fields.map Prod.fst).Nodup := by
  rw [List.Nodup, List.pairwise_map]
  apply mapping.sorted.imp
  intro a b lt same
  rw [same] at lt
  exact String.lt_irrefl _ lt

theorem mem_fields_iff {name path : String} : (name, path) ∈ mapping.fields ↔ mapping.fields.lookup name = some path :=
  ⟨KeyMap.lookup_of_mem (fields_nodup mapping), KeyMap.mem_of_lookup⟩

theorem mappedObject_lookup (name : String) :
    (mappedObject event mapping).lookup name = (mapping.fields.lookup name).bind (lookup event) := by
  have nodup := fields_nodup mapping
  rw [mappedObject]
  generalize mapping.fields = fields at nodup
  have keys : ∀ fields : List (String × String),
      ((fields.filterMap fun field => (lookup event field.2).map fun v => (field.1, v)).map Prod.fst).Sublist
        (fields.map Prod.fst) := by
    intro fields
    induction fields with
    | nil => simp
    | cons field fields ih =>
      cases found : lookup event field.2 with
      | none => simpa [found] using ih.cons field.1
      | some v => simpa [found] using ih.cons_cons field.1
  rw [KeyMap.lookup_insertAll (nodup.sublist (keys fields))]
  induction fields with
  | nil => rfl
  | cons field fields ih =>
    obtain ⟨first, path⟩ := field
    rw [List.map_cons, List.nodup_cons] at nodup
    rw [List.filterMap_cons]
    by_cases same : name = first
    · subst same
      have later : (fields.filterMap fun field => (lookup event field.2).map fun v => (field.1, v)).lookup name = none := by
        rw [List.lookup_eq_none_iff]
        intro entry member
        apply bne_iff_ne.mpr
        intro equal
        apply nodup.1
        rw [equal]
        exact (keys fields).subset (List.mem_map_of_mem member)
      cases found : lookup event path with
      | none => simp [found, later]
      | some v => simp [found]
    · rw [KeyMap.lookup_cons_of_ne same, ← ih nodup.2]
      cases found : lookup event path with
      | none => simp
      | some v => simp only [Option.map_some, KeyMap.lookup_cons_of_ne same]

theorem named_iff (kind key : String) (paths : List String) :
    (paths.any fun p => stripPrefix kind p == some key) = true ↔ kind ++ key ∈ paths := by
  simp only [List.any_eq_true, beq_iff_eq, stripPrefix_eq_some]
  constructor
  · intro ⟨p, member, same⟩
    subst same
    exact member
  · intro member
    exact ⟨_, member, rfl⟩

theorem extras_isEmpty_iff (kind : String) (paths : List String) (attributes : List Attribute) :
    (extras kind paths attributes).isEmpty = true ↔ ∀ a ∈ attributes, kind ++ a.key ∈ paths := by
  rw [List.isEmpty_iff, extras, KeyMap.insertAll_eq_nil_iff, List.map_eq_nil_iff, List.filter_eq_nil_iff]
  apply forall₂_congr
  intro a _
  rw [← named_iff kind a.key paths, Bool.not_eq_true', Bool.not_eq_false]

theorem extras_lookup {kind : String} {paths : List String} {attributes : List Attribute}
    (unique : (attributes.map Attribute.key).Nodup) {a : Attribute} (member : a ∈ attributes) :
    (extras kind paths attributes).lookup a.key = if kind ++ a.key ∈ paths then none else some (.string a.value) := by
  have keys : (((attributes.filter fun a => !paths.any fun p => stripPrefix kind p == some a.key).map fun a =>
      (a.key, Value.string a.value)).map Prod.fst).Nodup := by
    rw [List.map_map]
    exact unique.sublist (List.filter_sublist.map Attribute.key)
  rw [extras, KeyMap.lookup_insertAll keys]
  split
  · rename_i named
    rw [List.lookup_eq_none_iff]
    intro entry listed
    obtain ⟨b, kept, rfl⟩ := List.mem_map.mp listed
    apply bne_iff_ne.mpr
    intro same
    have key : a.key = b.key := same
    rw [List.mem_filter, ← key, (named_iff kind a.key paths).mpr named] at kept
    simp at kept
  · rename_i unnamed
    have kept : (a.key, Value.string a.value) ∈
        (attributes.filter fun a => !paths.any fun p => stripPrefix kind p == some a.key).map fun a =>
          (a.key, Value.string a.value) := by
      refine List.mem_map.mpr ⟨a, List.mem_filter.mpr ⟨member, ?_⟩, rfl⟩
      rw [← named_iff kind a.key paths, Bool.not_eq_true] at unnamed
      rw [unnamed]
      rfl
    exact KeyMap.lookup_of_mem keys kept

theorem lookup_attr (key : String) : lookup event ("attr:" ++ key) = findAttribute event.attributes key := by
  have stripped : stripPrefix "attr:" ("attr:" ++ key) = some key := stripPrefix_eq_some.mpr rfl
  simp only [lookup, stripped]

theorem lookup_meta (key : String) : lookup event ("meta:" ++ key) = findAttribute event.metadata key := by
  have other : stripPrefix "attr:" ("meta:" ++ key) = none := by
    cases found : stripPrefix "attr:" ("meta:" ++ key) with
    | none => rfl
    | some rest =>
      have same := congrArg String.toList (stripPrefix_eq_some.mp found)
      simp at same
  have stripped : stripPrefix "meta:" ("meta:" ++ key) = some key := stripPrefix_eq_some.mpr rfl
  simp only [lookup, other, stripped]

theorem findAttribute_of_mem {attributes : List Attribute} (unique : (attributes.map Attribute.key).Nodup) {a : Attribute}
    (member : a ∈ attributes) : findAttribute attributes a.key = some (.string a.value) := by
  induction attributes with
  | nil => cases member
  | cons b attributes ih =>
    rw [List.map_cons, List.nodup_cons] at unique
    rcases List.mem_cons.mp member with rfl | later
    · simp [findAttribute]
    · have different : b.key ≠ a.key := fun same => unique.1 (same ▸ List.mem_map_of_mem later)
      rw [← ih unique.2 later]
      simp [findAttribute, different]

theorem findAttribute_string {attributes : List Attribute} {name : String} {v : Value}
    (found : findAttribute attributes name = some v) : ∃ s, v = .string s := by
  obtain ⟨a, -, rfl⟩ := Option.map_eq_some_iff.mp found
  exact ⟨_, rfl⟩

theorem fromF64_number {x : F64} {v : Value} (found : fromF64 x = some v) : v = .number x := by
  unfold fromF64 at found
  split at found
  · cases found
  · cases found
    rfl

theorem lookup_cases {path : String} {v : Value} (found : lookup event path = some v) :
    (∃ s, v = .string s) ∨ (∃ x, v = .number x) ∨ (path = "policy_tags" ∧ v = tagsValue event) := by
  have coordinate : ∀ field : GeoPoint → F64, (event.location.bind fun l => fromF64 (field l)) = some v → ∃ x, v = .number x := by
    intro field bound
    obtain ⟨l, -, number⟩ := Option.bind_eq_some_iff.mp bound
    exact ⟨_, fromF64_number number⟩
  unfold lookup at found
  split at found
  · exact .inl (findAttribute_string found)
  · split at found
    · exact .inl (findAttribute_string found)
    · repeat' split at found
      · exact .inl ⟨_, (Option.some.inj found).symm⟩
      · exact .inl ⟨_, (Option.some.inj found).symm⟩
      · exact .inl ⟨_, (Option.some.inj found).symm⟩
      · exact .inl ⟨_, (Option.some.inj found).symm⟩
      · exact .inr (.inl (coordinate _ found))
      · exact .inr (.inl (coordinate _ found))
      · exact .inr (.inl (coordinate _ found))
      · exact .inr (.inl ⟨_, fromF64_number found⟩)
      · rename_i isTags
        exact .inr (.inr ⟨isTags, (Option.some.inj found).symm⟩)
      · cases found

theorem lookup_tags : lookup event "policy_tags" = some (tagsValue event) := rfl

theorem unnamed_iff : Unnamed event mapping ↔
    ¬ ((extras "attr:" mapping.mappedPaths event.attributes).isEmpty &&
      (extras "meta:" mapping.mappedPaths event.metadata).isEmpty) = true := by
  rw [Bool.and_eq_true, extras_isEmpty_iff, extras_isEmpty_iff, Unnamed, not_and_or]
  simp only [not_forall, exists_prop]

variable (toUppercase : String → String) (label : Option LabelConfig)

theorem confidentialityLabel_object {cfg : LabelConfig} {v : Value}
    (found : confidentialityLabel toUppercase cfg event = some v) : ∃ fields, v = .object fields := by
  obtain ⟨classification, -, rfl⟩ := Option.map_eq_some_iff.mp found
  exact ⟨_, rfl⟩

theorem markedObject_lookup (name : String) :
    (markedObject toUppercase event mapping label).lookup name =
      if name = "confidentiality_label" ∧ (label.bind fun cfg => confidentialityLabel toUppercase cfg event).isSome then
        label.bind fun cfg => confidentialityLabel toUppercase cfg event
      else if name = "governance" then some governance
      else if name = "policy_tags" ∧ "policy_tags" ∉ mapping.mappedPaths then some (tagsValue event)
      else if name = "event_id" ∧ "id" ∉ mapping.mappedPaths then some (.string event.id)
      else (mapping.fields.lookup name).bind (lookup event) := by
  have identified : (if "id" ∈ mapping.mappedPaths then mappedObject event mapping else
      KeyMap.insert "event_id" (.string event.id) (mappedObject event mapping)).lookup name =
      if name = "event_id" ∧ "id" ∉ mapping.mappedPaths then some (.string event.id)
      else (mapping.fields.lookup name).bind (lookup event) := by
    by_cases named : "id" ∈ mapping.mappedPaths
    · simp [named, mappedObject_lookup]
    · simp [named, mappedObject_lookup]
  simp only [markedObject, lookup_tags, Option.getD_some]
  generalize (if "id" ∈ mapping.mappedPaths then mappedObject event mapping else
    KeyMap.insert "event_id" (.string event.id) (mappedObject event mapping)) = out at identified
  have tagged : (if "policy_tags" ∈ mapping.mappedPaths then out else
      KeyMap.insert "policy_tags" (tagsValue event) out).lookup name =
      if name = "policy_tags" ∧ "policy_tags" ∉ mapping.mappedPaths then some (tagsValue event)
      else out.lookup name := by
    by_cases named : "policy_tags" ∈ mapping.mappedPaths
    · simp [named]
    · simp [named]
  rw [← identified, ← tagged]
  cases label.bind fun cfg => confidentialityLabel toUppercase cfg event with
  | none => simp
  | some l => simp

theorem render_lookup {unmapped : Unmapped} {out : Object}
    (rendered : render toUppercase event mapping unmapped label = some (.object out)) (name : String) :
    out.lookup name = if name = "unmapped" ∧ Unnamed event mapping then
        some (.object (unmappedObject (extras "attr:" mapping.mappedPaths event.attributes)
          (extras "meta:" mapping.mappedPaths event.metadata)))
      else (markedObject toUppercase event mapping label).lookup name := by
  simp only [render] at rendered
  split at rendered
  · rename_i empty
    have named : ¬ Unnamed event mapping := fun unnamed => (unnamed_iff event mapping).mp unnamed empty
    cases rendered
    simp [named]
  · rename_i some_extra
    have unnamed : Unnamed event mapping := (unnamed_iff event mapping).mpr some_extra
    match unmapped, rendered with
    | .include, rendered =>
      cases rendered
      simp [unnamed]

/-- What stands under a name of the rendered object. -/
theorem render_cases {unmapped : Unmapped} {out : Object}
    (rendered : render toUppercase event mapping unmapped label = some (.object out)) (name : String) :
    (¬ Overwritten toUppercase event mapping label name ∧
      out.lookup name = (mapping.fields.lookup name).bind (lookup event)) ∨
    (name = "event_id" ∧ "id" ∉ mapping.mappedPaths ∧ out.lookup name = some (.string event.id)) ∨
    (name = "policy_tags" ∧ "policy_tags" ∉ mapping.mappedPaths ∧ out.lookup name = some (tagsValue event)) ∨
    (name = "unmapped" ∧ Unnamed event mapping ∧ out.lookup name = some (.object (unmappedObject
      (extras "attr:" mapping.mappedPaths event.attributes) (extras "meta:" mapping.mappedPaths event.metadata)))) ∨
    ((name = "governance" ∨ name = "confidentiality_label") ∧ Overwritten toUppercase event mapping label name ∧
      ∃ fields, out.lookup name = some (.object fields)) := by
  rw [render_lookup event mapping toUppercase label rendered name, markedObject_lookup]
  by_cases extra : name = "unmapped" ∧ Unnamed event mapping
  · exact .inr (.inr (.inr (.inl ⟨extra.1, extra.2, if_pos extra⟩)))
  rw [if_neg extra]
  by_cases labelled : name = "confidentiality_label" ∧
      (label.bind fun cfg => confidentialityLabel toUppercase cfg event).isSome
  · rw [if_pos labelled]
    obtain ⟨v, found⟩ := Option.isSome_iff_exists.mp labelled.2
    obtain ⟨cfg, -, made⟩ := Option.bind_eq_some_iff.mp found
    obtain ⟨fields, rfl⟩ := confidentialityLabel_object event toUppercase made
    exact .inr (.inr (.inr (.inr ⟨.inr labelled.1, .inr (.inr (.inr (.inl labelled))), fields, found⟩)))
  rw [if_neg labelled]
  by_cases governed : name = "governance"
  · rw [if_pos governed]
    exact .inr (.inr (.inr (.inr ⟨.inl governed, .inr (.inr (.inl governed)), _, rfl⟩)))
  rw [if_neg governed]
  by_cases tagged : name = "policy_tags" ∧ "policy_tags" ∉ mapping.mappedPaths
  · exact .inr (.inr (.inl ⟨tagged.1, tagged.2, if_pos tagged⟩))
  rw [if_neg tagged]
  by_cases identified : name = "event_id" ∧ "id" ∉ mapping.mappedPaths
  · exact .inr (.inl ⟨identified.1, identified.2, if_pos identified⟩)
  rw [if_neg identified]
  refine .inl ⟨?_, rfl⟩
  intro overwritten
  rcases overwritten with own | own | own | own | own
  · exact identified own
  · exact tagged own
  · exact governed own
  · exact labelled own
  · exact extra own

theorem render_eq_none_iff (unmapped : Unmapped) :
    render toUppercase event mapping unmapped label = none ↔ unmapped = .refuse ∧ Unnamed event mapping := by
  rw [unnamed_iff]
  simp only [render]
  split
  · rename_i empty
    simp [empty]
  · rename_i some_extra
    match unmapped with
    | .refuse => simp [some_extra]
    | .include => simp

theorem render_object (unmapped : Unmapped) : render toUppercase event mapping unmapped label = none ∨
    ∃ out, render toUppercase event mapping unmapped label = some (.object out) := by
  simp only [render]
  split
  · exact .inr ⟨_, rfl⟩
  · match unmapped with
    | .refuse => exact .inl rfl
    | .include => exact .inr ⟨_, rfl⟩

variable {event mapping toUppercase label} in
theorem render_kept {unmapped : Unmapped} {out : Object}
    (rendered : render toUppercase event mapping unmapped label = some (.object out)) {name path : String}
    (member : (name, path) ∈ mapping.fields) (kept : ¬ Overwritten toUppercase event mapping label name) :
    out.lookup name = lookup event path := by
  rw [render_lookup event mapping toUppercase label rendered name, markedObject_lookup]
  simp only [Overwritten, not_or] at kept
  rw [if_neg kept.2.2.2.2, if_neg kept.2.2.2.1, if_neg kept.2.2.1, if_neg kept.2.1, if_neg kept.1,
    (mem_fields_iff mapping).mp member, Option.bind_some]

variable {event mapping toUppercase label} in
theorem id_delivered_iff {unmapped : Unmapped} {out : Object}
    (rendered : render toUppercase event mapping unmapped label = some (.object out)) :
    (∃ name, out.lookup name = some (.string event.id)) ↔ "id" ∉ mapping.mappedPaths ∨
      ∃ field ∈ mapping.fields, ¬ Overwritten toUppercase event mapping label field.1 ∧
        lookup event field.2 = some (.string event.id) := by
  constructor
  · intro ⟨name, found⟩
    rcases render_cases event mapping toUppercase label rendered name with
      ⟨kept, value⟩ | ⟨-, unmapped, -⟩ | ⟨-, -, value⟩ | ⟨-, -, value⟩ | ⟨-, -, fields, value⟩
    · rw [found] at value
      obtain ⟨path, mapped, carries⟩ := Option.bind_eq_some_iff.mp value.symm
      exact .inr ⟨(name, path), (mem_fields_iff mapping).mpr mapped, kept, carries⟩
    · exact .inl unmapped
    · rw [found] at value
      cases value
    · rw [found] at value
      cases value
    · rw [found] at value
      cases value
  · intro kept
    rcases kept with unmapped | ⟨field, member, kept, carries⟩
    · refine ⟨"event_id", ?_⟩
      rw [render_lookup event mapping toUppercase label rendered, markedObject_lookup]
      simp [unmapped]
    · exact ⟨field.1, (render_kept rendered member kept).trans carries⟩

variable {event mapping toUppercase label} in
theorem tags_delivered_iff {unmapped : Unmapped} {out : Object}
    (rendered : render toUppercase event mapping unmapped label = some (.object out)) :
    (∃ name, out.lookup name = some (tagsValue event)) ↔ "policy_tags" ∉ mapping.mappedPaths ∨
      ∃ field ∈ mapping.fields, ¬ Overwritten toUppercase event mapping label field.1 ∧ field.2 = "policy_tags" := by
  constructor
  · intro ⟨name, found⟩
    rcases render_cases event mapping toUppercase label rendered name with
      ⟨kept, value⟩ | ⟨-, -, value⟩ | ⟨-, unmapped, -⟩ | ⟨-, -, value⟩ | ⟨-, -, fields, value⟩
    · rw [found] at value
      obtain ⟨path, mapped, carries⟩ := Option.bind_eq_some_iff.mp value.symm
      refine .inr ⟨(name, path), (mem_fields_iff mapping).mpr mapped, kept, ?_⟩
      rcases lookup_cases event carries with ⟨s, text⟩ | ⟨x, number⟩ | ⟨isTags, -⟩
      · cases text
      · cases number
      · exact isTags
    · rw [found] at value
      cases value
    · exact .inl unmapped
    · rw [found] at value
      cases value
    · rw [found] at value
      cases value
  · intro kept
    rcases kept with unmapped | ⟨⟨name, path⟩, member, kept, rfl⟩
    · refine ⟨"policy_tags", ?_⟩
      rw [render_lookup event mapping toUppercase label rendered, markedObject_lookup]
      simp [unmapped]
    · exact ⟨name, (render_kept rendered member kept).trans (lookup_tags event)⟩

end

end EgressProof

namespace EgressModel

open EventModel

/-- The object carries the event's id and all its policy tags under names of its own. -/
def DeliversMarkings (event : Event) (out : Object) : Prop :=
  (∃ name, out.lookup name = some (.string event.id)) ∧ ∃ name, out.lookup name = some (tagsValue event)

section

variable (toUppercase : String → String) (event : Event) (mapping : Mapping) (label : Option LabelConfig)

/-- A mapping of the id leaves it under a name that `render` does not write itself. -/
def KeepsId : Prop :=
  "id" ∉ mapping.mappedPaths ∨
    ∃ field ∈ mapping.fields, ¬ Overwritten toUppercase event mapping label field.1 ∧
      lookup event field.2 = some (.string event.id)

def KeepsTags : Prop :=
  "policy_tags" ∉ mapping.mappedPaths ∨
    ∃ field ∈ mapping.fields, ¬ Overwritten toUppercase event mapping label field.1 ∧ field.2 = "policy_tags"

instance : Decidable (KeepsTags toUppercase event mapping label) := inferInstanceAs (Decidable (_ ∨ _))

end

end EgressModel

namespace EgressProof

open EventModel EgressModel

/-- Every object delivered for an event carries its id and its tags exactly when the mapping leaves each
    of them under some name that `render` does not write over. -/
theorem markings_delivered_iff (toUppercase : String → String) (event : Event) (mapping : Mapping)
    (unmapped : Unmapped) (label : Option LabelConfig) :
    (∀ out, render toUppercase event mapping unmapped label = some (.object out) → DeliversMarkings event out) ↔
      (unmapped = .refuse ∧ Unnamed event mapping) ∨
        (KeepsId toUppercase event mapping label ∧ KeepsTags toUppercase event mapping label) := by
  rw [← render_eq_none_iff event mapping toUppercase label]
  constructor
  · intro delivers
    rcases render_object event mapping toUppercase label unmapped with refused | ⟨out, rendered⟩
    · exact .inl refused
    · obtain ⟨id, tags⟩ := delivers out rendered
      exact .inr ⟨(id_delivered_iff rendered).mp id, (tags_delivered_iff rendered).mp tags⟩
  · intro condition out rendered
    rcases condition with refused | ⟨id, tags⟩
    · rw [refused] at rendered
      cases rendered
    · exact ⟨(id_delivered_iff rendered).mpr id, (tags_delivered_iff rendered).mpr tags⟩

end EgressProof

namespace EgressModel

open EventModel

def secretEvent : Event := { Event.default with id := "e1", policyTags := ["class:secret"] }

def governanceConfig : Config :=
  ⟨"ajar.egress.site", 2, ⟨[("governance", "policy_tags")], by simp⟩, .include, none⟩

end EgressModel

namespace EgressProof

open EventModel EgressModel

/-- The governance block replaces the tags, and they are delivered nowhere else. -/
theorem governanceConfig_strips_tags :
    ¬ ∀ (toUppercase : String → String) (cfg : Config) (event : Event), cfg.validate = .ok () → ∀ out,
      render toUppercase event cfg.mapping cfg.unmapped cfg.confidentialityLabel = some (.object out) →
      DeliversMarkings event out := by
  intro claim
  have rendered : render id secretEvent governanceConfig.mapping governanceConfig.unmapped
      governanceConfig.confidentialityLabel = some (.object [("event_id", .string "e1"), ("governance", governance)]) := rfl
  obtain ⟨name, tags⟩ := (claim id governanceConfig secretEvent (by decide) _ rendered).2
  have kept := (tags_delivered_iff rendered).mp ⟨name, tags⟩
  revert kept
  decide

end EgressProof
