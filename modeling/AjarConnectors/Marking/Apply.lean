import AjarConnectors.Event.Types
import AjarConnectors.Marking.Levels

namespace MarkingModel

open TextModel EventModel

def maxConfigTags : Nat := 16

structure MarkingConfig where
  classification : Option String := none
  releasableTo : List String := []
  policy : Option String := none
  caveats : List String := []

/-- A validated marking: its tags in a fixed order. -/
structure Marking where
  tags : List String
  deriving DecidableEq

/-- A tag goes in unless it is there. -/
def addTag (tags : List String) (tag : String) : List String := if tag ∈ tags then tags else tags ++ [tag]

/-- The tags of one field's entries. -/
def addTokens (field kind : String) : List String → List String → Except MarkingError (List String)
  | [], tags => .ok tags
  | raw :: rest, tags =>
    match token field raw with
    | .error e => .error e
    | .ok t => addTokens field kind rest (addTag tags (kind ++ t))

def classTags : Option String → Except MarkingError (List String)
  | none => .ok []
  | some raw =>
    match classificationLevel raw with
    | none => .error (.unknownLevel raw)
    | some level => .ok ["class:" ++ level.name]

def Marking.fromConfig (cfg : MarkingConfig) : Except MarkingError Marking := do
  let tags ← classTags cfg.classification
  let tags ← addTokens "policy" "policy:" cfg.policy.toList tags
  let tags ← addTokens "releasable_to" "rel:" cfg.releasableTo tags
  let tags ← addTokens "caveats" "caveat:" cfg.caveats tags
  if tags = [] then .error .empty
  else if maxConfigTags < tags.length then .error (.tooMany tags.length)
  else .ok ⟨tags⟩

def isClass (tag : String) : Bool := (stripPrefix "class:" tag).isSome

def isRanked (tag : String) : Bool := (tagLevel tag).isSome

def Marking.floor (m : Marking) : Option Level := (m.tags.findSome? (stripPrefix "class:")).bind classificationLevel

/-- The higher of two levels, the first where they rank the same. -/
def higher (a b : Level) : Level := if a.rank < b.rank then b else a

def highest (floor : Level) (tags : List String) : Level := (tags.filterMap tagLevel).foldl higher floor

/-- One class tag, where the first ranked one was or first. -/
def resolveClass (floor : Level) (tags : List String) : List String :=
  let place := (tags.findIdx? isRanked).getD 0
  let kept := tags.filter fun tag => !isRanked tag
  kept.insertIdx (min place kept.length) ("class:" ++ (highest floor tags).name)

def Marking.resolve (m : Marking) (tags : List String) : List String :=
  match m.floor with
  | none => tags
  | some floor => resolveClass floor tags

def Marking.applyTags (m : Marking) (tags : List String) : List String :=
  (m.tags.filter fun tag => !isClass tag).foldl addTag (m.resolve tags)

def Marking.apply (m : Marking) (event : Event) : Event := { event with policyTags := m.applyTags event.policyTags }

end MarkingModel

namespace MarkingProof

open TextModel TextProof MarkingModel EventModel

theorem isClass_of_ranked {tag : String} (ranked : isRanked tag = true) : isClass tag = true := by
  unfold isRanked tagLevel at ranked
  unfold isClass
  cases found : stripPrefix "class:" tag with
  | none =>
    rw [found] at ranked
    cases ranked
  | some rest => rfl

theorem unranked_of_other {tag : String} (other : isClass tag = false) : isRanked tag = false := by
  cases ranked : isRanked tag with
  | false => rfl
  | true =>
    rw [isClass_of_ranked ranked] at other
    cases other

theorem isRanked_class (level : Level) : isRanked ("class:" ++ level.name) = true := by
  rw [isRanked, tagLevel_class]
  rfl

/-! The level that results. -/

theorem rank_higher (a b : Level) : (higher a b).rank = max a.rank b.rank := by
  unfold higher
  split <;> omega

theorem rank_inj {a b : Level} (same : a.rank = b.rank) : a = b := by
  cases a <;> cases b <;> first | rfl | cases same

theorem higher_eq (a b : Level) : higher a b = a ∨ higher a b = b := by
  unfold higher
  split
  · exact Or.inr rfl
  · exact Or.inl rfl

theorem foldl_higher_le (levels : List Level) (floor : Level) :
    floor.rank ≤ (levels.foldl higher floor).rank ∧ ∀ level ∈ levels, level.rank ≤ (levels.foldl higher floor).rank := by
  induction levels generalizing floor with
  | nil => exact ⟨Nat.le_refl _, fun level member => by cases member⟩
  | cons first rest ih =>
    rcases ih (higher floor first) with ⟨least, all⟩
    rw [rank_higher] at least
    rw [List.foldl_cons]
    constructor
    · omega
    · intro level member
      rcases List.mem_cons.mp member with rfl | member
      · omega
      · exact all level member

theorem foldl_higher_mem (levels : List Level) (floor : Level) :
    levels.foldl higher floor = floor ∨ levels.foldl higher floor ∈ levels := by
  induction levels generalizing floor with
  | nil => exact Or.inl rfl
  | cons first rest ih =>
    rw [List.foldl_cons]
    rcases ih (higher floor first) with same | member
    · rw [same]
      rcases higher_eq floor first with same | same
      · exact Or.inl same
      · rw [same]
        exact Or.inr List.mem_cons_self
    · exact Or.inr (List.mem_cons_of_mem first member)

theorem filterMap_unranked {tags : List String} (unranked : ∀ tag ∈ tags, isRanked tag = false) :
    tags.filterMap tagLevel = [] := by
  rw [List.filterMap_eq_nil_iff]
  intro tag member
  have plain := unranked tag member
  rw [isRanked, Option.isSome_eq_false_iff, Option.isNone_iff_eq_none] at plain
  exact plain

theorem highest_of_unranked {tags : List String} (unranked : ∀ tag ∈ tags, isRanked tag = false) (floor : Level) :
    highest floor tags = floor := by
  rw [highest, filterMap_unranked unranked]
  rfl

/-! Where it stands. -/

theorem insertIdx_front (front back : List String) (tag : String) :
    (front ++ back).insertIdx front.length tag = front ++ tag :: back := by
  induction front with
  | nil => rfl
  | cons first front ih =>
    rw [List.cons_append, List.length_cons, List.insertIdx_succ_cons, ih, List.cons_append]

/-- The class tag goes where the first ranked tag was, and the ranked tags go. -/
theorem resolveClass_ranked {front back : List String} {first : String} (before : ∀ tag ∈ front, isRanked tag = false)
    (ranked : isRanked first = true) (floor : Level) :
    resolveClass floor (front ++ first :: back) =
      front ++ ("class:" ++ (highest floor (front ++ first :: back)).name) :: back.filter fun tag => !isRanked tag := by
  have place : (front ++ first :: back).findIdx? isRanked = some front.length := by
    rw [List.findIdx?_append, List.findIdx?_eq_none_iff.mpr before, List.findIdx?_cons, ranked]
    simp
  have kept : (front ++ first :: back).filter (fun tag => !isRanked tag) = front ++ back.filter fun tag => !isRanked tag := by
    rw [List.filter_append, List.filter_cons_of_neg (by simp [ranked]), List.filter_eq_self.mpr]
    intro tag member
    simp [before tag member]
  have least : min front.length (front ++ back.filter fun tag => !isRanked tag).length = front.length := by
    rw [List.length_append]
    omega
  unfold resolveClass
  rw [place, kept]
  dsimp only
  rw [Option.getD_some, least, insertIdx_front]

theorem filter_unranked {tags : List String} (unranked : ∀ tag ∈ tags, isRanked tag = false) :
    (tags.filter fun tag => !isRanked tag) = tags := by
  rw [List.filter_eq_self]
  intro tag member
  rw [unranked tag member]
  rfl

theorem resolveClass_unranked {tags : List String} (unranked : ∀ tag ∈ tags, isRanked tag = false) (floor : Level) :
    resolveClass floor tags = ("class:" ++ floor.name) :: tags := by
  unfold resolveClass
  rw [List.findIdx?_eq_none_iff.mpr unranked, filter_unranked unranked, highest_of_unranked unranked]
  dsimp only
  rw [Option.getD_none, Nat.zero_min, List.insertIdx_zero]

/-- The tags before and after the place of the class tag. -/
structure Around (tags front back : List String) : Prop where
  before : ∀ tag ∈ front, isRanked tag = false
  after : ∀ tag ∈ back, isRanked tag = false
  others : (tags.filter fun tag => !isRanked tag) = front ++ back
  place : (tags.findIdx? isRanked).getD 0 = front.length
  leading : front = tags.take front.length

theorem unranked_filter (tags : List String) : ∀ tag ∈ tags.filter fun tag => !isRanked tag, isRanked tag = false := by
  intro tag member
  have kept := (List.mem_filter.mp member).2
  rw [Bool.not_eq_true'] at kept
  exact kept

theorem resolveClass_shape (floor : Level) (tags : List String) : ∃ front back, Around tags front back ∧
    resolveClass floor tags = front ++ ("class:" ++ (highest floor tags).name) :: back := by
  cases found : tags.find? isRanked with
  | none =>
    have unranked : ∀ tag ∈ tags, isRanked tag = false := by
      intro tag member
      rw [← Bool.not_eq_true]
      exact List.find?_eq_none.mp found tag member
    refine ⟨[], tags, ⟨List.forall_mem_nil _, unranked, filter_unranked unranked, ?_, rfl⟩, ?_⟩
    · rw [List.findIdx?_eq_none_iff.mpr unranked]
      rfl
    · rw [resolveClass_unranked unranked, highest_of_unranked unranked]
      rfl
  | some first =>
    obtain ⟨ranked, front, back, rfl, before⟩ := List.find?_eq_some_iff_append.mp found
    have unranked : ∀ tag ∈ front, isRanked tag = false := by
      intro tag member
      have plain := before tag member
      rw [Bool.not_eq_true'] at plain
      exact plain
    refine ⟨front, back.filter fun tag => !isRanked tag, ⟨unranked, unranked_filter back, ?_, ?_, List.take_left.symm⟩,
      resolveClass_ranked unranked ranked floor⟩
    · rw [List.filter_append, filter_unranked unranked, List.filter_cons_of_neg]
      rw [ranked]
      decide
    · rw [List.findIdx?_append, List.findIdx?_eq_none_iff.mpr unranked, List.findIdx?_cons, ranked]
      simp

/-! The other tags of the marking. -/

theorem foldl_addTag (news tags : List String) : ∃ added, news.foldl addTag tags = tags ++ added ∧ added.Nodup ∧
    (∀ tag ∈ added, tag ∈ news ∧ tag ∉ tags) ∧ ∀ tag ∈ news, tag ∈ tags ++ added := by
  induction news generalizing tags with
  | nil => exact ⟨[], (List.append_nil tags).symm, List.nodup_nil, by simp, by simp⟩
  | cons first rest ih =>
    rw [List.foldl_cons]
    by_cases there : first ∈ tags
    · rw [addTag, if_pos there]
      obtain ⟨added, same, distinct, new, all⟩ := ih tags
      refine ⟨added, same, distinct, ?_, ?_⟩
      · intro tag member
        exact ⟨List.mem_cons_of_mem first (new tag member).1, (new tag member).2⟩
      · intro tag member
        rcases List.mem_cons.mp member with rfl | member
        · exact List.mem_append_left added there
        · exact all tag member
    · rw [addTag, if_neg there]
      obtain ⟨added, same, distinct, new, all⟩ := ih (tags ++ [first])
      refine ⟨first :: added, ?_, ?_, ?_, ?_⟩
      · rw [same, List.append_assoc]
        rfl
      · apply List.nodup_cons.mpr
        refine ⟨?_, distinct⟩
        intro member
        exact (new first member).2 (List.mem_append_right tags (List.mem_singleton_self first))
      · intro tag member
        rcases List.mem_cons.mp member with rfl | member
        · exact ⟨List.mem_cons_self, there⟩
        · refine ⟨List.mem_cons_of_mem first (new tag member).1, ?_⟩
          intro old
          exact (new tag member).2 (List.mem_append_left [first] old)
      · intro tag member
        rcases List.mem_cons.mp member with rfl | member
        · simp
        · have present := all tag member
          rw [List.append_assoc] at present
          exact present

theorem foldl_addTag_same {news tags : List String} (present : ∀ tag ∈ news, tag ∈ tags) : news.foldl addTag tags = tags := by
  induction news with
  | nil => rfl
  | cons first rest ih =>
    rw [List.foldl_cons, addTag, if_pos (present first List.mem_cons_self)]
    exact ih fun tag member => present tag (List.mem_cons_of_mem first member)

theorem applyTags_added (m : Marking) (tags : List String) : ∃ added, m.applyTags tags = m.resolve tags ++ added ∧ added.Nodup ∧
    (∀ tag ∈ added, tag ∈ m.tags ∧ isClass tag = false ∧ tag ∉ m.resolve tags) ∧
      ∀ tag ∈ m.tags, isClass tag = false → tag ∈ m.applyTags tags := by
  obtain ⟨added, same, distinct, new, all⟩ := foldl_addTag (m.tags.filter fun tag => !isClass tag) (m.resolve tags)
  refine ⟨added, same, distinct, ?_, ?_⟩
  · intro tag member
    obtain ⟨listed, absent⟩ := new tag member
    obtain ⟨own, plain⟩ := List.mem_filter.mp listed
    rw [Bool.not_eq_true'] at plain
    exact ⟨own, plain, absent⟩
  · intro tag own plain
    rw [Marking.applyTags, same]
    apply all
    rw [List.mem_filter, plain]
    exact ⟨own, rfl⟩

theorem applyTags_again_of {m : Marking} {tags : List String} (settled : m.resolve (m.applyTags tags) = m.applyTags tags) :
    m.applyTags (m.applyTags tags) = m.applyTags tags := by
  obtain ⟨_, _, _, _, present⟩ := applyTags_added m tags
  have there : ∀ tag ∈ m.tags.filter (fun tag => !isClass tag), tag ∈ m.applyTags tags := by
    intro tag member
    obtain ⟨own, plain⟩ := List.mem_filter.mp member
    rw [Bool.not_eq_true'] at plain
    exact present tag own plain
  rw [Marking.applyTags, settled, foldl_addTag_same there]

/-! What `apply` does. -/

/-- The one ranked tag that results. -/
structure Resolved (floor : Level) (before after : List String) (top : Level) : Prop where
  only : after.filter isRanked = ["class:" ++ top.name]
  floor_le : floor.rank ≤ top.rank
  wire_le : ∀ tag ∈ before, ∀ level, tagLevel tag = some level → level.rank ≤ top.rank
  attained : top = floor ∨ ∃ tag ∈ before, tagLevel tag = some top
  place : after[(before.findIdx? isRanked).getD 0]? = some ("class:" ++ top.name)

/-- What was added to the tags that were kept. -/
structure Added (m : Marking) (kept added after : List String) : Prop where
  distinct : added.Nodup
  own : ∀ tag ∈ added, tag ∈ m.tags ∧ isClass tag = false ∧ tag ∉ kept
  present : ∀ tag ∈ m.tags, isClass tag = false → tag ∈ after

theorem highest_spec (floor : Level) (tags : List String) :
    floor.rank ≤ (highest floor tags).rank ∧
      (∀ tag ∈ tags, ∀ level, tagLevel tag = some level → level.rank ≤ (highest floor tags).rank) ∧
      (highest floor tags = floor ∨ ∃ tag ∈ tags, tagLevel tag = some (highest floor tags)) := by
  have bound := foldl_higher_le (tags.filterMap tagLevel) floor
  refine ⟨bound.1, ?_, ?_⟩
  · intro tag member level states
    exact bound.2 level (List.mem_filterMap.mpr ⟨tag, member, states⟩)
  · rcases foldl_higher_mem (tags.filterMap tagLevel) floor with same | member
    · exact Or.inl same
    · exact Or.inr (List.mem_filterMap.mp member)

section Classified

variable {m : Marking} {floor : Level} (classified : m.floor = some floor) (tags : List String)

include classified

theorem applyTags_shape : ∃ front back added, Around tags front back ∧
    m.applyTags tags = front ++ ("class:" ++ (highest floor tags).name) :: (back ++ added) ∧
      Added m (front ++ ("class:" ++ (highest floor tags).name) :: back) added (m.applyTags tags) := by
  obtain ⟨front, back, around, shape⟩ := resolveClass_shape floor tags
  have resolved : m.resolve tags = front ++ ("class:" ++ (highest floor tags).name) :: back := by
    rw [Marking.resolve, classified]
    exact shape
  obtain ⟨added, same, distinct, own, present⟩ := applyTags_added m tags
  rw [resolved] at same own
  refine ⟨front, back, added, around, ?_, distinct, own, present⟩
  rw [same, List.append_assoc, List.cons_append]

theorem resolved_of_classified : Resolved floor tags (m.applyTags tags) (highest floor tags) := by
  obtain ⟨front, back, added, around, shape, others⟩ := applyTags_shape classified tags
  have bounds := highest_spec floor tags
  have plain (list : List String) (unranked : ∀ tag ∈ list, isRanked tag = false) : list.filter isRanked = [] := by
    rw [List.filter_eq_nil_iff]
    intro tag member
    rw [unranked tag member]
    decide
  refine ⟨?_, bounds.1, bounds.2.1, bounds.2.2, ?_⟩
  · rw [shape, List.filter_append, List.filter_cons_of_pos (isRanked_class _), List.filter_append,
      plain front around.before, plain back around.after,
      plain added fun tag member => unranked_of_other (others.own tag member).2.1]
    rfl
  · rw [shape, around.place, List.getElem?_append_right (Nat.le_refl _), Nat.sub_self]
    rfl

/-- The tags that are not ranked stay as they are, before what is added. -/
theorem others_of_classified : ∃ added, (m.applyTags tags).filter (fun tag => !isRanked tag) =
    (tags.filter fun tag => !isRanked tag) ++ added ∧ Added m tags added (m.applyTags tags) := by
  obtain ⟨front, back, added, around, shape, others⟩ := applyTags_shape classified tags
  have unranked := fun tag member => unranked_of_other (others.own tag member).2.1
  refine ⟨added, ?_, others.distinct, ?_, others.present⟩
  · rw [around.others, shape, List.filter_append, List.filter_cons_of_neg, List.filter_append,
      filter_unranked around.before, filter_unranked around.after, filter_unranked unranked, List.append_assoc]
    rw [isRanked_class]
    decide
  · intro tag member
    obtain ⟨own, plain, absent⟩ := others.own tag member
    refine ⟨own, plain, ?_⟩
    -- A tag of the event that is not ranked is among those kept.
    intro old
    have kept : tag ∈ front ++ back := by
      rw [← around.others, List.mem_filter, unranked_of_other plain]
      exact ⟨old, rfl⟩
    apply absent
    rcases List.mem_append.mp kept with member | member
    · exact List.mem_append_left _ member
    · exact List.mem_append_right _ (List.mem_cons_of_mem _ member)

theorem applyTags_again : m.applyTags (m.applyTags tags) = m.applyTags tags := by
  obtain ⟨front, back, added, around, shape, others⟩ := applyTags_shape classified tags
  have unranked : ∀ tag ∈ back ++ added, isRanked tag = false := by
    intro tag member
    rcases List.mem_append.mp member with member | member
    · exact around.after tag member
    · exact unranked_of_other (others.own tag member).2.1
  have same : m.resolve (m.applyTags tags) = m.applyTags tags := by
    have level : highest floor (m.applyTags tags) = highest floor tags := by
      have one : (m.applyTags tags).filterMap tagLevel = [highest floor tags] := by
        rw [shape, List.filterMap_append, List.filterMap_cons, tagLevel_class, filterMap_unranked around.before,
          filterMap_unranked unranked]
        rfl
      rw [highest, one, List.foldl_cons, List.foldl_nil]
      apply rank_inj
      rw [rank_higher]
      have least := (highest_spec floor tags).1
      omega
    rw [Marking.resolve, classified]
    dsimp only
    rw [shape, resolveClass_ranked around.before (isRanked_class _), ← shape, level, filter_unranked unranked, shape]
  exact applyTags_again_of same

end Classified

/-! A marking that was configured. -/

theorem addTokens_ok {field kind : String} {raws tags out : List String} (made : addTokens field kind raws tags = .ok out) :
    ∃ more, out = tags ++ more ∧ ∀ tag ∈ more, ∃ rest, tag = kind ++ rest := by
  induction raws generalizing tags with
  | nil =>
    cases made
    exact ⟨[], (List.append_nil _).symm, List.forall_mem_nil _⟩
  | cons raw raws ih =>
    unfold addTokens at made
    split at made
    · cases made
    · rename_i t _
      obtain ⟨more, same, kinds⟩ := ih made
      by_cases there : kind ++ t ∈ tags
      · rw [addTag, if_pos there] at same
        exact ⟨more, same, kinds⟩
      · rw [addTag, if_neg there, List.append_assoc] at same
        refine ⟨(kind ++ t) :: more, same, ?_⟩
        intro tag member
        rcases List.mem_cons.mp member with rfl | member
        · exact ⟨t, rfl⟩
        · exact kinds tag member

theorem isClass_kind {kind : String} (member : kind ∈ ["policy:", "rel:", "caveat:"]) (rest : String) :
    isClass (kind ++ rest) = false := by
  unfold isClass
  cases found : stripPrefix "class:" (kind ++ rest) with
  | none => rfl
  | some more =>
    have same := congrArg String.toList (stripPrefix_eq_some.mp found)
    simp only [List.mem_cons, List.not_mem_nil, or_false] at member
    rcases member with rfl | rfl | rfl <;> simp at same

/-- A marking has the class tag its config states, and no other. -/
theorem fromConfig_ok {cfg : MarkingConfig} {m : Marking} (made : Marking.fromConfig cfg = .ok m) :
    ∃ own more, classTags cfg.classification = .ok own ∧ m.tags = own ++ more ∧ ∀ tag ∈ more, isClass tag = false := by
  unfold Marking.fromConfig at made
  simp only [bind, Except.bind] at made
  split at made
  · cases made
  · rename_i own ofClass
    split at made
    · cases made
    · rename_i second ofPolicy
      split at made
      · cases made
      · rename_i third ofParties
        split at made
        · cases made
        · rename_i last ofCaveats
          obtain ⟨policies, rfl, policyKind⟩ := addTokens_ok ofPolicy
          obtain ⟨parties, rfl, partyKind⟩ := addTokens_ok ofParties
          obtain ⟨caveats, rfl, caveatKind⟩ := addTokens_ok ofCaveats
          have tags : m.tags = own ++ policies ++ parties ++ caveats := by
            split at made
            · cases made
            · split at made
              · cases made
              · cases made
                rfl
          refine ⟨own, policies ++ parties ++ caveats, ofClass, ?_, ?_⟩
          · rw [tags, List.append_assoc, List.append_assoc, List.append_assoc]
          · intro tag member
            rcases List.mem_append.mp member with member | member
            · rcases List.mem_append.mp member with member | member
              · obtain ⟨rest, rfl⟩ := policyKind tag member
                exact isClass_kind (by simp) rest
              · obtain ⟨rest, rfl⟩ := partyKind tag member
                exact isClass_kind (by simp) rest
            · obtain ⟨rest, rfl⟩ := caveatKind tag member
              exact isClass_kind (by simp) rest

theorem findSome_other {tags : List String} (others : ∀ tag ∈ tags, isClass tag = false) :
    tags.findSome? (stripPrefix "class:") = none := by
  rw [List.findSome?_eq_none_iff]
  intro tag member
  have other := others tag member
  rw [isClass, Option.isSome_eq_false_iff, Option.isNone_iff_eq_none] at other
  exact other

/-- What the marking takes for its floor is the level its config states. -/
theorem fromConfig_floor {cfg : MarkingConfig} {m : Marking} (made : Marking.fromConfig cfg = .ok m) :
    (cfg.classification = none ∧ m.floor = none) ∨
      ∃ raw floor, cfg.classification = some raw ∧ classificationLevel raw = some floor ∧ m.floor = some floor := by
  obtain ⟨own, more, ofClass, tags, others⟩ := fromConfig_ok made
  unfold Marking.floor
  rw [tags]
  cases stated : cfg.classification with
  | none =>
    rw [stated] at ofClass
    cases ofClass
    rw [List.nil_append, findSome_other others]
    exact Or.inl ⟨rfl, rfl⟩
  | some raw =>
    unfold classTags at ofClass
    rw [stated] at ofClass
    dsimp only at ofClass
    split at ofClass
    · cases ofClass
    · rename_i level known
      cases ofClass
      refine Or.inr ⟨raw, level, rfl, known, ?_⟩
      have cut : stripPrefix "class:" ("class:" ++ level.name) = some level.name := stripPrefix_eq_some.mpr rfl
      rw [List.singleton_append, List.findSome?_cons, cut]
      simp only [Option.bind_some, classificationLevel_name]

/-- What `apply` makes of an event's tags. -/
structure Stamps (cfg : MarkingConfig) (m : Marking) (before after : List String) : Prop where
  classified : ∀ raw, cfg.classification = some raw → ∃ floor top added, classificationLevel raw = some floor ∧
    Resolved floor before after top ∧ Added m before added after ∧
      (after.filter fun tag => !isRanked tag) = (before.filter fun tag => !isRanked tag) ++ added
  unclassified : cfg.classification = none → ∃ added, after = before ++ added ∧ Added m before added after

theorem apply_stamps_event (cfg : MarkingConfig) (m : Marking) (made : Marking.fromConfig cfg = .ok m) (event : Event) :
    m.apply (m.apply event) = m.apply event ∧ Stamps cfg m event.policyTags (m.apply event).policyTags := by
  rcases fromConfig_floor made with ⟨stated, none⟩ | ⟨raw, floor, stated, known, classified⟩
  · have untouched (tags : List String) : m.resolve tags = tags := by rw [Marking.resolve, none]
    obtain ⟨added, same, distinct, own, present⟩ := applyTags_added m event.policyTags
    rw [untouched] at same own
    refine ⟨?_, ?_, ?_⟩
    · unfold Marking.apply
      dsimp only
      rw [applyTags_again_of (untouched _)]
    · intro raw other
      rw [stated] at other
      cases other
    · intro _
      exact ⟨added, same, distinct, own, present⟩
  · refine ⟨?_, ?_, ?_⟩
    · unfold Marking.apply
      dsimp only
      rw [applyTags_again classified event.policyTags]
    · intro raw' other
      rw [stated] at other
      cases other
      obtain ⟨added, others, facts⟩ := others_of_classified classified event.policyTags
      exact ⟨floor, highest floor event.policyTags, added, known, resolved_of_classified classified event.policyTags,
        facts, others⟩
    · intro other
      rw [stated] at other
      cases other

theorem secret_marking_stamps :
    Marking.fromConfig { classification := some "Secret", policy := some "nato" } = .ok ⟨["class:secret", "policy:NATO"]⟩ ∧
      Stamps { classification := some "Secret", policy := some "nato" } ⟨["class:secret", "policy:NATO"]⟩
        ["rel:GBR", "class:u", "class:TS"] ["rel:GBR", "class:top-secret", "policy:NATO"] := by
  have made : Marking.fromConfig { classification := some "Secret", policy := some "nato" } =
      .ok ⟨["class:secret", "policy:NATO"]⟩ := by decide
  have stamped := (apply_stamps_event _ _ made { Event.default with policyTags := ["rel:GBR", "class:u", "class:TS"] }).2
  have after : (Marking.apply ⟨["class:secret", "policy:NATO"]⟩ { Event.default with policyTags := ["rel:GBR", "class:u", "class:TS"] }).policyTags =
      ["rel:GBR", "class:top-secret", "policy:NATO"] := by decide
  rw [after] at stamped
  exact ⟨made, stamped⟩

end MarkingProof
