import Mathlib.Data.Finset.Card
import Mathlib.Data.List.Nodup
import Mathlib.Logic.Function.Basic

namespace Eviction

variable {κ ν : Type*}

/-- A map of bounded size, with its keys in the order of their insertion. -/
structure Cache (κ ν : Type*) where
  map : κ → Option ν
  order : List κ

namespace Cache

variable [DecidableEq κ]

def empty : Cache κ ν := ⟨fun _ => none, []⟩

/-- At the cap, the key that was inserted first goes. -/
def evict (cap : Nat) (c : Cache κ ν) : Cache κ ν :=
  if cap ≤ c.order.length then
    match c.order with
    | [] => c
    | oldest :: rest => ⟨Function.update c.map oldest none, rest⟩
  else c

/-- Makes room for a key that is not there, with a fresh value. -/
def entry (cap : Nat) (c : Cache κ ν) (key : κ) (fresh : ν) : Cache κ ν :=
  if (c.map key).isNone then ⟨Function.update (c.evict cap).map key (some fresh), (c.evict cap).order ++ [key]⟩ else c

def value (c : Cache κ ν) (key : κ) (fresh : ν) : ν := (c.map key).getD fresh

def set (c : Cache κ ν) (key : κ) (v : ν) : Cache κ ν := { c with map := Function.update c.map key (some v) }

/-- What the reference to an entry is used for: the value of the key is replaced. -/
def write (cap : Nat) (c : Cache κ ν) (key : κ) (fresh : ν) (f : ν → ν) : Cache κ ν :=
  (c.entry cap key fresh).set key (f ((c.entry cap key fresh).value key fresh))

/-- A key is inserted when it is not there. -/
def inserts (c : Cache κ ν) (key : κ) : List κ := if (c.map key).isNone then [key] else []

end Cache

/-- The queue holds exactly the keys of the map, once each: those inserted last, in the order of their insertion. -/
structure Kept (cap : Nat) (inserted : List κ) (c : Cache κ ν) : Prop where
  keys : ∀ key, key ∈ c.order ↔ (c.map key).isSome = true
  once : c.order.Nodup
  bounded : c.order.length ≤ cap
  latest : c.order = inserted.drop (inserted.length - cap)

section

variable {cap : Nat} {inserted : List κ} {c : Cache κ ν}

theorem kept_empty : Kept cap [] (Cache.empty : Cache κ ν) where
  keys := by simp [Cache.empty]
  once := List.nodup_nil
  bounded := Nat.zero_le cap
  latest := by rw [List.drop_nil, Cache.empty]

theorem absent_of_isNone (kept : Kept cap inserted c) {key : κ} (absent : (c.map key).isNone = true) : key ∉ c.order := by
  rw [kept.keys, Option.isNone_iff_eq_none.mp absent]
  exact Bool.false_ne_true

variable [DecidableEq κ]

/-- Below the cap nothing goes; at the cap exactly the oldest key does. -/
theorem evict_cases (cap : Nat) (c : Cache κ ν) :
    (c.evict cap = c ∧ (c.order.length < cap ∨ c.order = [])) ∨
    (∃ oldest rest, c.order = oldest :: rest ∧ cap ≤ c.order.length ∧
      c.evict cap = ⟨Function.update c.map oldest none, rest⟩) := by
  unfold Cache.evict
  split
  · rename_i full
    cases order : c.order with
    | nil => exact Or.inl ⟨rfl, Or.inr rfl⟩
    | cons oldest rest =>
      rw [order] at full
      exact Or.inr ⟨oldest, rest, rfl, full, rfl⟩
  · rename_i room
    exact Or.inl ⟨rfl, Or.inl (Nat.not_le.mp room)⟩

/-- After an eviction there is room, and the queue and the map still agree. -/
theorem evict_kept (some : 0 < cap) (kept : Kept cap inserted c) :
    (∀ key, key ∈ (c.evict cap).order ↔ ((c.evict cap).map key).isSome = true) ∧ (c.evict cap).order.Nodup ∧
    (c.evict cap).order.length < cap ∧ (c.evict cap).order = inserted.drop (inserted.length + 1 - cap) := by
  have latest := kept.latest
  have bounded := kept.bounded
  have counted := congrArg List.length latest
  rw [List.length_drop] at counted
  rcases evict_cases cap c with ⟨stays, below | none⟩ | ⟨oldest, rest, order, full, evicted⟩
  · have same : inserted.length + 1 - cap = inserted.length - cap := by omega
    rw [stays, same]
    exact ⟨kept.keys, kept.once, below, latest⟩
  · have nothing : inserted.drop (inserted.length + 1 - cap) = [] := by
      rw [none, List.length_nil] at counted
      apply List.drop_of_length_le
      omega
    rw [stays, nothing, none]
    refine ⟨?_, List.nodup_nil, some, rfl⟩
    rw [← none]
    exact kept.keys
  · have once := kept.once
    have keys := kept.keys
    rw [order] at once keys latest counted full bounded
    rw [List.length_cons] at counted full bounded
    rw [evicted]
    refine ⟨?_, (List.nodup_cons.mp once).2, bounded, ?_⟩
    · intro key
      by_cases same : key = oldest
      · subst same
        simp only [Function.update_self, Option.isSome_none, Bool.false_eq_true, iff_false]
        exact (List.nodup_cons.mp once).1
      · simp only [Function.update_of_ne same]
        rw [← keys, List.mem_cons, or_iff_right same]
    · have next : inserted.length + 1 - cap = 1 + (inserted.length - cap) := by omega
      rw [next, Nat.add_comm, ← List.drop_drop, ← latest]
      rfl

/-- One entry keeps the representation, whether its key is there, new, or was evicted before. -/
theorem entry_kept (some : 0 < cap) (kept : Kept cap inserted c) (key : κ) (fresh : ν) :
    Kept cap (inserted ++ c.inserts key) (c.entry cap key fresh) := by
  unfold Cache.inserts Cache.entry
  split
  · rename_i absent
    obtain ⟨keys, once, room, latest⟩ := evict_kept some kept
    have new : key ∉ (c.evict cap).order := by
      intro member
      rw [latest] at member
      apply absent_of_isNone kept absent
      have further : inserted.drop (inserted.length + 1 - cap) <:+ inserted.drop (inserted.length - cap) :=
        List.drop_suffix_drop_left _ (by omega)
      rw [kept.latest]
      exact further.subset member
    constructor
    · intro other
      rw [List.mem_append, List.mem_singleton, keys]
      by_cases same : other = key
      · subst same
        simp
      · simp [same]
    · rw [List.nodup_append]
      refine ⟨once, List.nodup_singleton key, ?_⟩
      intro a member b last equal
      rw [List.mem_singleton.mp last] at equal
      rw [equal] at member
      exact new member
    · rw [List.length_append, List.length_singleton]
      exact room
    · have inside : inserted.length + 1 - cap ≤ inserted.length := by omega
      rw [List.length_append, List.length_singleton, List.drop_append_of_le_length inside, ← latest]
  · rw [List.append_nil]
    exact kept

theorem entry_present (cap : Nat) (c : Cache κ ν) (key : κ) (fresh : ν) : ((c.entry cap key fresh).map key).isSome = true := by
  unfold Cache.entry
  split
  · simp
  · rename_i present
    rw [Option.isNone_iff_eq_none] at present
    exact Option.isSome_iff_ne_none.mpr present

theorem set_kept (kept : Kept cap inserted c) {key : κ} (present : (c.map key).isSome = true) (v : ν) :
    Kept cap inserted (c.set key v) where
  keys := by
    intro other
    by_cases same : other = key
    · subst same
      simp only [Cache.set, Function.update_self, Option.isSome_some, iff_true]
      exact (kept.keys other).mpr present
    · simp only [Cache.set, Function.update_of_ne same]
      exact kept.keys other
  once := kept.once
  bounded := kept.bounded
  latest := kept.latest

theorem write_kept (some : 0 < cap) (kept : Kept cap inserted c) (key : κ) (fresh : ν) (f : ν → ν) :
    Kept cap (inserted ++ c.inserts key) (c.write cap key fresh f) :=
  set_kept (entry_kept some kept key fresh) (entry_present cap c key fresh) _

/-- While all keys come from a set that is no larger than the cap, no key goes. -/
theorem evict_none {names : Finset κ} (few : names.card ≤ cap) (kept : Kept cap inserted c)
    (within : ∀ key ∈ c.order, key ∈ names) {key : κ} (named : key ∈ names) (absent : (c.map key).isNone = true) :
    c.evict cap = c := by
  have once : (key :: c.order).Nodup := List.nodup_cons.mpr ⟨absent_of_isNone kept absent, kept.once⟩
  have inside : (key :: c.order).toFinset ⊆ names := by
    intro other member
    rcases List.mem_cons.mp (List.mem_toFinset.mp member) with rfl | listed
    · exact named
    · exact within other listed
  have room := (Finset.card_le_card inside).trans few
  rw [List.toFinset_card_of_nodup once, List.length_cons] at room
  unfold Cache.evict
  exact if_neg (by omega)

theorem write_within {names : Finset κ} (few : names.card ≤ cap) (kept : Kept cap inserted c)
    (within : ∀ key ∈ c.order, key ∈ names) {key : κ} (named : key ∈ names) (fresh : ν) (f : ν → ν) :
    ∀ other ∈ (c.write cap key fresh f).order, other ∈ names := by
  intro other member
  change other ∈ (c.entry cap key fresh).order at member
  unfold Cache.entry at member
  split at member
  · rename_i absent
    rw [evict_none few kept within named absent, List.mem_append, List.mem_singleton] at member
    rcases member with listed | rfl
    · exact within other listed
    · exact named
  · exact within other member

/-- Then a write leaves all other keys as they were. -/
theorem write_other {names : Finset κ} (few : names.card ≤ cap) (kept : Kept cap inserted c)
    (within : ∀ key ∈ c.order, key ∈ names) {key other : κ} (named : key ∈ names) (fresh : ν) (f : ν → ν)
    (different : other ≠ key) : (c.write cap key fresh f).map other = c.map other := by
  change Function.update (c.entry cap key fresh).map key _ other = c.map other
  rw [Function.update_of_ne different]
  unfold Cache.entry
  split
  · rename_i absent
    rw [evict_none few kept within named absent]
    exact Function.update_of_ne different _ _
  · rfl

/-- A cache with all the insertions so far, after one more write. -/
def logged (cap : Nat) (fresh : ν) (s : List κ × Cache κ ν) (op : κ × (ν → ν)) : List κ × Cache κ ν :=
  (s.1 ++ s.2.inserts op.1, s.2.write cap op.1 fresh op.2)

theorem foldl_kept (some : 0 < cap) (fresh : ν) (ops : List (κ × (ν → ν))) {s : List κ × Cache κ ν}
    (kept : Kept cap s.1 s.2) : Kept cap (ops.foldl (logged cap fresh) s).1 (ops.foldl (logged cap fresh) s).2 := by
  induction ops generalizing s with
  | nil => exact kept
  | cons op ops ih => exact ih (write_kept some kept op.1 fresh op.2)

/-- What every value satisfies. -/
def AllValues (holds : ν → Prop) (c : Cache κ ν) : Prop := ∀ key v, c.map key = some v → holds v

variable {holds : ν → Prop}

omit [DecidableEq κ] in
theorem empty_values : AllValues holds (Cache.empty : Cache κ ν) := by
  intro key v found
  cases found

theorem evict_values (all : AllValues holds c) : AllValues holds (c.evict cap) := by
  rcases evict_cases cap c with ⟨stays, _⟩ | ⟨oldest, rest, _, _, evicted⟩
  · rw [stays]
    exact all
  · rw [evicted]
    intro key v found
    by_cases same : key = oldest
    · subst same
      simp at found
    · simp only [Function.update_of_ne same] at found
      exact all key v found

theorem update_values (all : AllValues holds c) {v : ν} (right : holds v) (key : κ) : AllValues holds (c.set key v) := by
  intro other found value
  by_cases same : other = key
  · subst same
    simp only [Cache.set, Function.update_self, Option.some.injEq] at value
    subst value
    exact right
  · simp only [Cache.set, Function.update_of_ne same] at value
    exact all other found value

theorem entry_values (all : AllValues holds c) {fresh : ν} (starts : holds fresh) (key : κ) :
    AllValues holds (c.entry cap key fresh) := by
  unfold Cache.entry
  split
  · exact update_values (evict_values all) starts key
  · exact all

omit [DecidableEq κ] in
theorem value_holds (all : AllValues holds c) {fresh : ν} (starts : holds fresh) (key : κ) : holds (c.value key fresh) := by
  unfold Cache.value
  cases found : c.map key with
  | none => exact starts
  | some v => exact all key v found

/-- What the fresh value satisfies and every write keeps holds of all values. -/
theorem foldl_values (cap : Nat) {fresh : ν} (starts : holds fresh) {ops : List (κ × (ν → ν))}
    (keeps : ∀ op ∈ ops, ∀ v, holds v → holds (op.2 v)) {s : List κ × Cache κ ν} (all : AllValues holds s.2) :
    AllValues holds (ops.foldl (logged cap fresh) s).2 := by
  induction ops generalizing s with
  | nil => exact all
  | cons op ops ih =>
    apply ih fun op member => keeps op (List.mem_cons_of_mem _ member)
    have entered : AllValues holds (s.2.entry cap op.1 fresh) := entry_values all starts op.1
    exact update_values entered (keeps op List.mem_cons_self _ (value_holds entered starts op.1)) op.1

end

end Eviction
