import Mathlib.Data.List.Nodup
import Mathlib.Data.List.Pairwise

namespace KeyMap

variable {κ ν : Type*} [DecidableEq κ]

theorem lookup_cons_of_ne {key k : κ} (different : k ≠ key) (value : ν) (map : List (κ × ν)) :
    ((key, value) :: map).lookup k = map.lookup k := by
  rw [List.lookup_cons, beq_eq_false_iff_ne.mpr different]

theorem lookup_of_mem {map : List (κ × ν)} (distinct : (map.map Prod.fst).Nodup) {key : κ} {value : ν}
    (member : (key, value) ∈ map) : map.lookup key = some value := by
  induction map with
  | nil => cases member
  | cons entry map ih =>
    obtain ⟨first, stored⟩ := entry
    rw [List.map_cons, List.nodup_cons] at distinct
    rcases List.mem_cons.mp member with same | later
    · cases same
      exact List.lookup_cons_self
    · have listed : key ∈ map.map Prod.fst := List.mem_map.mpr ⟨(key, value), later, rfl⟩
      have different : key ≠ first := fun same => distinct.1 (same ▸ listed)
      rw [lookup_cons_of_ne different, ih distinct.2 later]

theorem mem_of_lookup {map : List (κ × ν)} {key : κ} {value : ν} (found : map.lookup key = some value) :
    (key, value) ∈ map := by
  obtain ⟨front, back, split, -⟩ := List.lookup_eq_some_iff.mp found
  rw [split]
  simp

theorem lookup_map_snd {μ : Type*} (f : ν → μ) (map : List (κ × ν)) (k : κ) :
    (map.map (Prod.map id f)).lookup k = (map.lookup k).map f := by
  induction map with
  | nil => rfl
  | cons entry map ih =>
    obtain ⟨first, stored⟩ := entry
    by_cases same : k = first
    · rw [same, List.map_cons, Prod.map_apply, id, List.lookup_cons_self, List.lookup_cons_self, Option.map_some]
    · rw [List.map_cons, Prod.map_apply, id, lookup_cons_of_ne same, lookup_cons_of_ne same, ih]

variable [LT κ] [DecidableLT κ]

/-- Insert into a list kept in the order of its keys; an entry of the same key is replaced. -/
def insert (key : κ) (value : ν) : List (κ × ν) → List (κ × ν)
  | [] => [(key, value)]
  | entry :: entries =>
    if key < entry.1 then (key, value) :: entry :: entries
    else if key = entry.1 then (key, value) :: entries
    else entry :: insert key value entries

def insertAll (entries : List (κ × ν)) (map : List (κ × ν)) : List (κ × ν) :=
  entries.foldl (fun map entry => insert entry.1 entry.2 map) map

@[simp] theorem lookup_insert (key k : κ) (value : ν) (map : List (κ × ν)) :
    (insert key value map).lookup k = if k = key then some value else map.lookup k := by
  induction map with
  | nil =>
    by_cases same : k = key
    · rw [insert, if_pos same, same, List.lookup_cons_self]
    · rw [insert, if_neg same, lookup_cons_of_ne same]
  | cons entry map ih =>
    obtain ⟨first, stored⟩ := entry
    simp only [insert]
    by_cases same : k = key
    · subst same
      rw [if_pos rfl]
      split
      · rw [List.lookup_cons_self]
      · split
        · rw [List.lookup_cons_self]
        · rename_i different
          rw [lookup_cons_of_ne different, ih, if_pos rfl]
    · rw [if_neg same]
      split
      · rw [lookup_cons_of_ne same]
      · split
        · rename_i equal
          rw [lookup_cons_of_ne same, lookup_cons_of_ne (by rw [← equal]; exact same)]
        · rw [List.lookup_cons, List.lookup_cons, ih, if_neg same]

theorem lookup_insertAll {entries : List (κ × ν)} (distinct : (entries.map Prod.fst).Nodup) (k : κ) :
    (insertAll entries []).lookup k = entries.lookup k := by
  have general : ∀ (entries map : List (κ × ν)), (entries.map Prod.fst).Nodup →
      (insertAll entries map).lookup k = (entries.lookup k).or (map.lookup k) := by
    intro entries
    induction entries with
    | nil => intro map _; rfl
    | cons entry entries ih =>
      intro map distinct
      rw [List.map_cons, List.nodup_cons] at distinct
      obtain ⟨first, stored⟩ := entry
      have rest := ih (insert first stored map) distinct.2
      rw [lookup_insert] at rest
      by_cases same : k = first
      · subst same
        have later : entries.lookup k = none := by
          rw [List.lookup_eq_none_iff]
          intro entry member
          exact bne_iff_ne.mpr fun equal => distinct.1 (List.mem_map.mpr ⟨entry, member, equal.symm⟩)
        rw [if_pos rfl, later, Option.none_or] at rest
        rw [List.lookup_cons_self, Option.some_or]
        exact rest
      · rw [if_neg same] at rest
        rw [lookup_cons_of_ne same]
        exact rest
  rw [general entries [] distinct]
  simp

omit [LT κ] [DecidableLT κ] [DecidableEq κ] in
theorem keys_zip (keys : List κ) (values : List ν) : (keys.zip values).map Prod.fst <+: keys := by
  induction keys generalizing values with
  | nil => exact List.nil_prefix
  | cons key keys ih =>
    cases values with
    | nil => exact List.nil_prefix
    | cons value values =>
      rw [List.zip_cons_cons, List.map_cons, List.cons_prefix_cons]
      exact ⟨rfl, ih values⟩

/-- Distinct keys find the values of their own positions. -/
theorem lookup_zip {keys : List κ} {values : List ν} (distinct : keys.Nodup) {i : Nat} {key : κ} (here : keys[i]? = some key) :
    (insertAll (keys.zip values) []).lookup key = values[i]? := by
  have once : ((keys.zip values).map Prod.fst).Nodup := (keys_zip keys values).sublist.nodup distinct
  rw [lookup_insertAll once]
  cases found : values[i]? with
  | some value =>
    apply lookup_of_mem once
    apply List.mem_of_getElem? (i := i)
    rw [List.getElem?_zip_eq_some]
    exact ⟨here, found⟩
  | none =>
    rw [List.lookup_eq_none_iff]
    intro entry member
    rw [bne_iff_ne]
    rintro rfl
    obtain ⟨j, place⟩ := List.mem_iff_getElem?.mp member
    rw [List.getElem?_zip_eq_some] at place
    obtain ⟨inside, -⟩ := List.getElem?_eq_some_iff.mp here
    have same : i = j := (List.getElem?_inj inside distinct).mp (here.trans place.1.symm)
    rw [same, place.2] at found
    cases found

theorem insert_ne_nil (key : κ) (value : ν) (map : List (κ × ν)) : insert key value map ≠ [] := by
  cases map with
  | nil => simp [insert]
  | cons entry map =>
    simp only [insert]
    split
    · simp
    · split <;> simp

theorem insertAll_eq_nil_iff (entries : List (κ × ν)) : insertAll entries [] = [] ↔ entries = [] := by
  have grows : ∀ (entries map : List (κ × ν)), map ≠ [] → insertAll entries map ≠ [] := by
    intro entries
    induction entries with
    | nil => intro map nonempty; exact nonempty
    | cons entry entries ih => intro map _; exact ih _ (insert_ne_nil _ _ _)
  cases entries with
  | nil => simp [insertAll]
  | cons entry entries =>
    simp only [reduceCtorEq, iff_false]
    exact grows entries _ (insert_ne_nil _ _ _)

theorem mem_insert {key : κ} {value : ν} {map : List (κ × ν)} {entry : κ × ν} (member : entry ∈ insert key value map) :
    entry.1 = key ∨ entry ∈ map := by
  induction map with
  | nil => exact Or.inl (by rw [List.mem_singleton.mp member])
  | cons first map ih =>
    rw [insert] at member
    split at member
    · rcases List.mem_cons.mp member with rfl | inside
      · exact Or.inl rfl
      · exact Or.inr inside
    · split at member
      · rcases List.mem_cons.mp member with rfl | inside
        · exact Or.inl rfl
        · exact Or.inr (List.mem_cons_of_mem _ inside)
      · rcases List.mem_cons.mp member with rfl | inside
        · exact Or.inr (List.mem_cons_self ..)
        · exact (ih inside).imp_right (List.mem_cons_of_mem _)

/-- Insertion keeps a list in the order of its keys. -/
theorem pairwise_insert (trans : ∀ {a b c : κ}, a < b → b < c → a < c) (total : ∀ {a b : κ}, ¬ a < b → a ≠ b → b < a)
    (key : κ) (value : ν) {map : List (κ × ν)} (sorted : map.Pairwise fun a b => a.1 < b.1) :
    (insert key value map).Pairwise fun a b => a.1 < b.1 := by
  induction map with
  | nil => exact List.pairwise_singleton _ _
  | cons first map ih =>
    rcases List.pairwise_cons.mp sorted with ⟨least, rest⟩
    rw [insert]
    split
    · rename_i below
      apply List.pairwise_cons.mpr ⟨_, sorted⟩
      intro entry member
      rcases List.mem_cons.mp member with rfl | inside
      · exact below
      · exact trans below (least entry inside)
    · split
      · rename_i same
        exact List.pairwise_cons.mpr ⟨fun entry member => same ▸ least entry member, rest⟩
      · rename_i above different
        apply List.pairwise_cons.mpr ⟨_, ih rest⟩
        intro entry member
        rcases mem_insert member with same | inside
        · exact same ▸ total above different
        · exact least entry inside

/-- A key is found after some insertions exactly if it was inserted or there before. -/
theorem lookup_insertAll_isSome (entries map : List (κ × ν)) (k : κ) :
    ((insertAll entries map).lookup k).isSome = true ↔ k ∈ entries.map Prod.fst ∨ (map.lookup k).isSome = true := by
  induction entries generalizing map with
  | nil => simp [insertAll]
  | cons entry entries ih =>
    have rest := ih (insert entry.1 entry.2 map)
    rw [lookup_insert] at rest
    rw [insertAll, List.foldl_cons]
    refine rest.trans ?_
    by_cases same : k = entry.1
    · simp [same]
    · simp [same]

theorem insert_map_snd {μ : Type*} (f : ν → μ) (key : κ) (value : ν) (map : List (κ × ν)) :
    insert key (f value) (map.map (Prod.map id f)) = (insert key value map).map (Prod.map id f) := by
  induction map with
  | nil => rfl
  | cons entry map ih =>
    obtain ⟨first, stored⟩ := entry
    rw [List.map_cons, Prod.map_apply, id, insert, insert]
    dsimp only
    split
    · rfl
    · split
      · rfl
      · rw [ih, List.map_cons, Prod.map_apply, id]

/-- What the values are makes no difference to where they go. -/
theorem insertAll_map_snd {μ : Type*} (f : ν → μ) (entries map : List (κ × ν)) :
    insertAll (entries.map (Prod.map id f)) (map.map (Prod.map id f)) = (insertAll entries map).map (Prod.map id f) := by
  induction entries generalizing map with
  | nil => rfl
  | cons entry entries ih =>
    have rest := ih (insert entry.1 entry.2 map)
    rw [← insert_map_snd] at rest
    exact rest

/-- Insert unless there is an entry of the same key. -/
def emplace (key : κ) (value : ν) : List (κ × ν) → List (κ × ν)
  | [] => [(key, value)]
  | entry :: entries =>
    if key < entry.1 then (key, value) :: entry :: entries
    else if key = entry.1 then entry :: entries
    else entry :: emplace key value entries

def emplaceAll (entries : List (κ × ν)) (map : List (κ × ν)) : List (κ × ν) :=
  entries.foldl (fun map entry => emplace entry.1 entry.2 map) map

theorem emplace_eq_insert {key : κ} (value : ν) {map : List (κ × ν)} (absent : ∀ entry ∈ map, entry.1 ≠ key) :
    emplace key value map = insert key value map := by
  induction map with
  | nil => rfl
  | cons entry map ih =>
    have different : key ≠ entry.1 := fun same => absent entry (List.mem_cons_self ..) same.symm
    rw [emplace, insert, if_neg different, if_neg different, ih fun other member => absent other (List.mem_cons_of_mem _ member)]

/-- Which entry of a key wins only matters where a key comes twice. -/
theorem emplaceAll_eq_insertAll {entries : List (κ × ν)} (distinct : (entries.map Prod.fst).Nodup) :
    emplaceAll entries [] = insertAll entries [] := by
  have general : ∀ map : List (κ × ν), (∀ entry ∈ map, entry.1 ∉ entries.map Prod.fst) →
      emplaceAll entries map = insertAll entries map := by
    induction entries with
    | nil => exact fun _ _ => rfl
    | cons entry entries ih =>
      intro map absent
      rw [List.map_cons, List.nodup_cons] at distinct
      rw [emplaceAll, insertAll, List.foldl_cons, List.foldl_cons, emplace_eq_insert]
      · apply ih distinct.2
        intro other member listed
        rcases mem_insert member with same | inside
        · exact distinct.1 (same ▸ listed)
        · exact absent other inside (List.mem_cons_of_mem _ listed)
      · intro other member same
        exact absent other member (by rw [same]; exact List.mem_cons_self ..)
  exact general [] fun _ member => by cases member

end KeyMap
