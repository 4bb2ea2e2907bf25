import AjarConnectors.SapientEgress.Report

namespace SapientEgressModel

open EventModel

/-- What tells tracks apart: the source, and the native identifier it gave. -/
def trackOf (event : Event) : String × String := (event.sourceId, nativeOf event)

/-- The second source is the first with a colon and the beginning of the first identifier; the second identifier is what
    follows the next colon. -/
def Spliced (a b : String × String) : Prop := ∃ w, b.1 = a.1 ++ ":" ++ w ∧ a.2 = w ++ ":" ++ b.2

def objectIdOf (message : Option DetectionMessage) : Option String := message.map fun m => m.report.objectId

/-- Two reports carry the same object identifier exactly if they are of the same track. -/
def IdsTellTracks (events : List Event) (messages : List (Option DetectionMessage)) : Prop :=
  let reported := (events.map trackOf).zip (messages.map objectIdOf)
  ∀ a ∈ reported, ∀ b ∈ reported, a.2 = b.2 ↔ a.1 = b.1

end SapientEgressModel

namespace SapientEgressProof

open SapientEgressModel EventModel Eviction

section

variable {cap : Nat} {inserted : List String} {c : Cache String String} {names : Finset String}

/-- Without an eviction, a key that is there keeps its value, and one that is not takes the fresh one. -/
theorem entry_lookup (few : names.card ≤ cap) (kept : Kept cap inserted c) (within : ∀ key ∈ c.order, key ∈ names)
    {key : String} (named : key ∈ names) (fresh other : String) :
    (c.entry cap key fresh).map other = (c.map other).or (if other = key then some fresh else none) := by
  unfold Cache.entry
  split
  · rename_i absent
    rw [evict_none few kept within named absent]
    dsimp only
    by_cases same : other = key
    · subst same
      rw [Function.update_self, if_pos rfl, Option.isNone_iff_eq_none.mp absent, Option.none_or]
    · rw [Function.update_of_ne same, if_neg same, Option.or_none]
  · rename_i present
    by_cases same : other = key
    · subst same
      rw [Option.isNone_iff_eq_none] at present
      obtain ⟨id, found⟩ := Option.ne_none_iff_exists'.mp present
      rw [found, Option.some_or]
    · rw [if_neg same, Option.or_none]

theorem entry_within (few : names.card ≤ cap) (kept : Kept cap inserted c) (within : ∀ key ∈ c.order, key ∈ names)
    {key : String} (named : key ∈ names) (fresh : String) : ∀ other ∈ (c.entry cap key fresh).order, other ∈ names :=
  write_within few kept within named fresh id

end

theorem objectId_found (m : Mapper) (fresh key : String) :
    some (m.objectId fresh key).1 = (m.objectId fresh key).2.objects.lookup key := by
  unfold Mapper.objectId
  cases found : m.objects.lookup key with
  | some id => exact found.symm
  | none => exact (AList.lookup_insert (a := key) (b := fresh) m.evict.objects).symm

section

variable (platform : Platform) (classes : Classes) (nodeId : String)

/-- The keys of a run, with the identifiers that were drawn when they were reported. -/
def drawn (reports : List (Draws × Event)) : List (String × String) := reports.map fun r => (keyOf r.2, r.1.object)

/-- A report carries the identifier that was drawn when its key was reported first. -/
theorem detections_ids {names : Finset String} (few : names.card ≤ maxObjects) (reports : List (Draws × Event))
    (located : ∀ r ∈ reports, r.2.location.isSome = true) (named : ∀ r ∈ reports, keyOf r.2 ∈ names)
    {inserted : List String} {seen : List (String × String)} {m : Mapper} (kept : Kept maxObjects inserted m.cache)
    (within : ∀ key ∈ m.cache.order, key ∈ names) (same : ∀ key, m.cache.map key = seen.lookup key) :
    (m.detections platform classes nodeId reports).map objectIdOf =
      reports.map fun r => (seen ++ drawn reports).lookup (keyOf r.2) := by
  induction reports generalizing inserted seen m with
  | nil => rfl
  | cons r reports ih =>
    obtain ⟨draws, event⟩ := r
    obtain ⟨loc, found⟩ := Option.isSome_iff_exists.mp (located _ List.mem_cons_self)
    have here : keyOf event ∈ names := named _ List.mem_cons_self
    have cache := objectId_cache kept draws.object (keyOf event)
    have next : ∀ key, (m.objectId draws.object (keyOf event)).2.cache.map key =
        (seen ++ [(keyOf event, draws.object)]).lookup key := by
      intro key
      rw [cache, entry_lookup few kept within here, same, List.lookup_append]
      congr 1
      rw [List.lookup_cons, List.lookup_nil]
      by_cases equal : key = keyOf event
      · rw [if_pos equal, equal, beq_self_eq_true]
      · rw [if_neg equal, beq_false_of_ne equal]
    have still : ∀ key ∈ (m.objectId draws.object (keyOf event)).2.cache.order, key ∈ names := by
      rw [cache]
      exact entry_within few kept within here draws.object
    have later := ih (fun r member => located r (List.mem_cons_of_mem _ member))
      (fun r member => named r (List.mem_cons_of_mem _ member)) (objectId_kept kept draws.object (keyOf event)) still next
    rw [List.append_assoc, List.singleton_append] at later
    have id : objectIdOf (m.detection platform classes nodeId draws event).1 =
        some (m.objectId draws.object (keyOf event)).1 := by
      rw [Mapper.detection, found]
      rfl
    have state : (m.detection platform classes nodeId draws event).2 = (m.objectId draws.object (keyOf event)).2 := by
      rw [Mapper.detection, found]
    change objectIdOf (m.detection platform classes nodeId draws event).1 ::
      ((m.detection platform classes nodeId draws event).2.detections platform classes nodeId reports).map objectIdOf = _
    rw [id, state, later, List.map_cons]
    congr 1
    -- The identifier of this report is in the list already, or was drawn for it.
    have first : (seen ++ [(keyOf event, draws.object)]).lookup (keyOf event) =
        some (m.objectId draws.object (keyOf event)).1 := by
      rw [objectId_found]
      exact (next _).symm
    rw [drawn, List.map_cons, ← List.singleton_append, ← List.append_assoc, List.lookup_append, first, Option.some_or]

theorem lookup_mem {pairs : List (String × String)} {key value : String} (found : pairs.lookup key = some value) :
    (key, value) ∈ pairs := by
  induction pairs with
  | nil => cases found
  | cons pair pairs ih =>
    rw [List.lookup_cons] at found
    split at found
    · rename_i equal
      rw [eq_of_beq equal, ← Option.some.inj found]
      exact List.mem_cons_self
    · exact List.mem_cons_of_mem _ (ih found)

/-- Distinct values tell distinct keys. -/
theorem lookup_inj {pairs : List (String × String)} (fresh : (pairs.map Prod.snd).Nodup) {a b : String}
    (there : a ∈ pairs.map Prod.fst) (same : pairs.lookup a = pairs.lookup b) : a = b := by
  have found : (pairs.lookup a).isSome = true := by
    rw [List.lookup_isSome_iff]
    obtain ⟨pair, member, rfl⟩ := List.mem_map.mp there
    exact ⟨pair, member, beq_self_eq_true _⟩
  obtain ⟨value, first⟩ := Option.isSome_iff_exists.mp found
  have second : pairs.lookup b = some value := same ▸ first
  have both := List.inj_on_of_nodup_map fresh (lookup_mem first) (lookup_mem second) rfl
  exact congrArg Prod.fst both

/-- Two tracks are spelled alike exactly if one is spliced from the other. -/
theorem spliced_iff (a b : String × String) :
    (a.1 ++ ":" ++ a.2 = b.1 ++ ":" ++ b.2 ∧ a ≠ b) ↔ Spliced a b ∨ Spliced b a := by
  obtain ⟨s, n⟩ := a
  obtain ⟨s', n'⟩ := b
  have spelled : s ++ ":" ++ n = s' ++ ":" ++ n' ↔ s.toList ++ ':' :: n.toList = s'.toList ++ ':' :: n'.toList := by
    rw [← String.toList_inj]
    simp
  have spliced : ∀ a b : String × String, Spliced a b ↔
      ∃ w, b.1.toList = a.1.toList ++ ':' :: w ∧ a.2.toList = w ++ ':' :: b.2.toList := by
    intro a b
    constructor
    · rintro ⟨w, source, native⟩
      refine ⟨w.toList, ?_, ?_⟩
      · rw [source]
        simp
      · rw [native]
        simp
    · rintro ⟨w, source, native⟩
      refine ⟨String.ofList w, ?_, ?_⟩
      · rw [← String.toList_inj, source]
        simp
      · rw [← String.toList_inj, native]
        simp
  dsimp only
  rw [spelled, spliced, spliced, List.append_eq_append_iff]
  dsimp only
  constructor
  · rintro ⟨⟨w, source, native⟩ | ⟨w, source, native⟩, different⟩
    · cases w with
      | nil =>
        rw [List.append_nil] at source
        rw [List.nil_append, List.cons.injEq] at native
        exact absurd (by rw [String.toList_inj.mp source, String.toList_inj.mp native.2]) different
      | cons colon w =>
        rw [List.cons_append, List.cons.injEq] at native
        exact Or.inl ⟨w, by rw [source, native.1], native.2⟩
    · cases w with
      | nil =>
        rw [List.append_nil] at source
        rw [List.nil_append, List.cons.injEq] at native
        exact absurd (by rw [String.toList_inj.mp source, String.toList_inj.mp native.2]) different
      | cons colon w =>
        rw [List.cons_append, List.cons.injEq] at native
        exact Or.inr ⟨w, by rw [source, native.1], native.2⟩
  · rintro (⟨w, source, native⟩ | ⟨w, source, native⟩)
    · refine ⟨Or.inl ⟨':' :: w, source, by rw [native]; rfl⟩, ?_⟩
      intro same
      have long := congrArg List.length source
      rw [(Prod.mk.inj same).1, List.length_append, List.length_cons] at long
      omega
    · refine ⟨Or.inr ⟨':' :: w, source, by rw [native]; rfl⟩, ?_⟩
      intro same
      have long := congrArg List.length source
      rw [(Prod.mk.inj same).1, List.length_append, List.length_cons] at long
      omega

theorem keyOf_track (event : Event) : keyOf event = (trackOf event).1 ++ ":" ++ (trackOf event).2 := rfl

/-- With at most as many tracks as are remembered, and identifiers that are never drawn twice, the object identifiers tell
    the tracks apart exactly if no track is spliced from another. -/
theorem object_ids_tell_tracks_iff (reports : List (Draws × Event)) (located : ∀ r ∈ reports, r.2.location.isSome = true)
    (few : (reports.map fun r => trackOf r.2).toFinset.card ≤ maxObjects)
    (fresh : (reports.map fun r => r.1.object).Nodup) :
    IdsTellTracks (reports.map Prod.snd) (({} : Mapper).detections platform classes nodeId reports) ↔
      ∀ a ∈ reports, ∀ b ∈ reports, ¬ Spliced (trackOf a.2) (trackOf b.2) := by
  have keys : (reports.map fun r => keyOf r.2).toFinset =
      (reports.map fun r => trackOf r.2).toFinset.image fun track => track.1 ++ ":" ++ track.2 := by
    ext key
    simp only [List.mem_toFinset, List.mem_map, Finset.mem_image, exists_exists_and_eq_and]
    rfl
  have room : (reports.map fun r => keyOf r.2).toFinset.card ≤ maxObjects := by
    rw [keys]
    exact Finset.card_image_le.trans few
  have starts : ∀ key, ({} : Mapper).cache.map key = ([] : List (String × String)).lookup key := by
    intro key
    change (AList.lookup key (∅ : AList fun _ : String => String)) = none
    exact AList.lookup_empty key
  have ids := detections_ids platform classes nodeId room reports located
    (fun r member => List.mem_toFinset.mpr (List.mem_map_of_mem member)) mapper_starts
    (fun key member => absurd member List.not_mem_nil) starts
  have drawnOnce : ((drawn reports).map Prod.snd).Nodup := by
    rw [drawn, List.map_map]
    exact fresh
  have listed : ∀ r ∈ reports, keyOf r.2 ∈ (drawn reports).map Prod.fst := by
    intro r member
    rw [drawn, List.map_map]
    exact List.mem_map_of_mem (f := fun r : Draws × Event => keyOf r.2) member
  rw [List.nil_append] at ids
  unfold IdsTellTracks
  rw [ids, List.map_map, List.zip_map']
  dsimp only
  have apart : ∀ a ∈ reports, ∀ b ∈ reports,
      (drawn reports).lookup (keyOf a.2) = (drawn reports).lookup (keyOf b.2) ↔ keyOf a.2 = keyOf b.2 :=
    fun a left b _ => ⟨lookup_inj drawnOnce (listed a left), fun same => by rw [same]⟩
  constructor
  · intro tell a left b right spliced
    have ⟨alike, different⟩ := (spliced_iff (trackOf a.2) (trackOf b.2)).mpr (Or.inl spliced)
    have told := tell _ (List.mem_map_of_mem left) _ (List.mem_map_of_mem right)
    exact different (told.mp ((apart a left b right).mpr alike))
  · intro clean x first y second
    obtain ⟨a, left, rfl⟩ := List.mem_map.mp first
    obtain ⟨b, right, rfl⟩ := List.mem_map.mp second
    dsimp only [Function.comp_apply]
    rw [apart a left b right]
    constructor
    · intro alike
      by_contra different
      rcases (spliced_iff (trackOf a.2) (trackOf b.2)).mp ⟨alike, different⟩ with spliced | spliced
      · exact clean a left b right spliced
      · exact clean b right a left spliced
    · intro same
      rw [keyOf_track, keyOf_track, same]

end

def plainPlatform : Platform := { Sphere.idle with toF32 := id, parseRfc3339 := fun _ => none }

def plainClasses : Classes := ⟨fun _ => none, "Unknown"⟩

/-- A located event of a source, with the identifier it gave. -/
def reported (sourceId uid : String) : Event :=
  { Event.default with
    sourceId := sourceId, location := some ⟨.zero, .zero, .zero⟩, metadata := [⟨"source_uid", uid⟩] }

def draws (object : String) : Draws := ⟨object, "01J9A0REPORT0000000000000", ⟨0, 0⟩⟩

def twoVessels : List (Draws × Event) :=
  [(draws "01J9A0", reported "ais-1" "mmsi:7"), (draws "01J9A1", reported "ais-1" "mmsi:8")]

theorem two_vessels_are_told_apart :
    IdsTellTracks (twoVessels.map Prod.snd)
      (({} : Mapper).detections plainPlatform plainClasses "node" twoVessels) := by
  apply (object_ids_tell_tracks_iff plainPlatform plainClasses "node" twoVessels (by decide) (by decide) (by decide)).mpr
  intro a left b right spliced
  have ⟨alike, different⟩ := (spliced_iff (trackOf a.2) (trackOf b.2)).mpr (Or.inl spliced)
  have distinct : ∀ a ∈ twoVessels, ∀ b ∈ twoVessels, keyOf a.2 = keyOf b.2 → trackOf a.2 = trackOf b.2 := by decide
  exact different (distinct a left b right alike)

/-- Track `1:7` of source `radar`, and track `7` of source `radar:1`. -/
def splicedTracks : List (Draws × Event) :=
  [(draws "01J9A0", reported "radar" "1:7"), (draws "01J9A1", reported "radar:1" "7")]

theorem spliced_tracks_share_an_object :
    ¬ ∀ (platform : Platform) (classes : Classes) (nodeId : String) (reports : List (Draws × Event)),
      (∀ r ∈ reports, r.2.location.isSome = true) → (reports.map fun r => trackOf r.2).toFinset.card ≤ maxObjects →
      (reports.map fun r => r.1.object).Nodup →
      IdsTellTracks (reports.map Prod.snd) (({} : Mapper).detections platform classes nodeId reports) := by
  intro all
  have tell := all plainPlatform plainClasses "node" splicedTracks (by decide) (by decide) (by decide)
  have merged : ¬ IdsTellTracks (splicedTracks.map Prod.snd)
      (({} : Mapper).detections plainPlatform plainClasses "node" splicedTracks) := by
    intro told
    have same := (told (("radar", "1:7"), some "01J9A0") (by decide) (("radar:1", "7"), some "01J9A0") (by decide)).mp rfl
    exact absurd same (by decide)
  exact merged tell

end SapientEgressProof
