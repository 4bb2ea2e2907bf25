import Mathlib.Data.Finset.Insert
import Mathlib.Data.Finset.Erase
import AjarConnectors.Eviction.Fifo

namespace EgressModel

structure Dedupe where
  seen : Finset String
  order : List String
  max : Nat

namespace Dedupe

def new (max : Nat) : Dedupe := ⟨∅, [], Nat.max max 1⟩

def firstTime (d : Dedupe) (id : String) : Dedupe × Bool :=
  if id ∈ d.seen then (d, false)
  else
    let kept := if d.max ≤ d.order.length then
      match d.order with
      | [] => d
      | old :: order => { d with seen := d.seen.erase old, order := order }
    else d
    ({ kept with seen := insert id kept.seen, order := kept.order ++ [id] }, true)

end Dedupe

/-- The ids that were new so far, with the window after them. -/
def Dedupe.told (s : List String × Dedupe) (id : String) : List String × Dedupe :=
  (if (s.2.firstTime id).2 then s.1 ++ [id] else s.1, (s.2.firstTime id).1)

def Dedupe.run (max : Nat) (ids : List String) : List String × Dedupe := ids.foldl told ([], new max)

/-- The last `n` of a list. -/
def latest (n : Nat) (ids : List String) : List String := ids.drop (ids.length - n)

end EgressModel

namespace EgressProof

open EgressModel Eviction

/-- The window as a map of bounded size with nothing to remember but its keys. -/
def cacheOf (d : Dedupe) : Cache String Unit := ⟨fun id => if id ∈ d.seen then some () else none, d.order⟩

theorem cacheOf_isNone (d : Dedupe) (id : String) : ((cacheOf d).map id).isNone = true ↔ id ∉ d.seen := by
  unfold cacheOf
  by_cases known : id ∈ d.seen <;> simp [known]

theorem cacheOf_evicted (d : Dedupe) (old : String) (order : List String) :
    cacheOf { d with seen := d.seen.erase old, order := order } =
      ⟨Function.update (cacheOf d).map old none, order⟩ := by
  unfold cacheOf
  congr 1
  funext id
  by_cases same : id = old
  · subst same
    simp
  · simp [Finset.mem_erase, same]

theorem cacheOf_admitted (d : Dedupe) (id : String) :
    cacheOf { d with seen := insert id d.seen, order := d.order ++ [id] } =
      ⟨Function.update (cacheOf d).map id (some ()), d.order ++ [id]⟩ := by
  unfold cacheOf
  congr 1
  funext other
  by_cases same : other = id
  · subst same
    simp
  · simp [Finset.mem_insert, same]

/-- What `first_time` keeps before it remembers an id. -/
def kept (d : Dedupe) : Dedupe :=
  if d.max ≤ d.order.length then
    match d.order with
    | [] => d
    | old :: order => { d with seen := d.seen.erase old, order := order }
  else d

theorem kept_evict (d : Dedupe) : cacheOf (kept d) = (cacheOf d).evict d.max ∧ (kept d).max = d.max := by
  obtain ⟨seen, order, max⟩ := d
  unfold kept Cache.evict
  by_cases full : max ≤ order.length
  · rw [if_pos full, if_pos (show max ≤ (cacheOf ⟨seen, order, max⟩).order.length from full)]
    cases order with
    | nil => exact ⟨rfl, rfl⟩
    | cons old rest => exact ⟨cacheOf_evicted ⟨seen, old :: rest, max⟩ old rest, rfl⟩
  · rw [if_neg full, if_neg (show ¬max ≤ (cacheOf ⟨seen, order, max⟩).order.length from full)]
    exact ⟨rfl, rfl⟩

/-- `first_time` is the insertion of a key that is not there. -/
theorem firstTime_entry (d : Dedupe) (id : String) :
    cacheOf (d.firstTime id).1 = (cacheOf d).entry d.max id () ∧ (d.firstTime id).1.max = d.max := by
  unfold Dedupe.firstTime Cache.entry
  by_cases known : id ∈ d.seen
  · rw [if_pos known, if_neg fun absent => (cacheOf_isNone d id).mp absent known]
    exact ⟨rfl, rfl⟩
  · rw [if_neg known, if_pos ((cacheOf_isNone d id).mpr known)]
    obtain ⟨evicted, max⟩ := kept_evict d
    rw [← evicted]
    exact ⟨cacheOf_admitted (kept d) id, max⟩

theorem firstTime_told_new (d : Dedupe) (id : String) : (d.firstTime id).2 = true ↔ id ∉ d.seen := by
  unfold Dedupe.firstTime
  by_cases known : id ∈ d.seen <;> simp [known]

/-- The window holds the ids told last, and the two collections agree. -/
theorem told_kept {s : List String × Dedupe} (some : 0 < s.2.max) (held : Kept s.2.max s.1 (cacheOf s.2)) (id : String) :
    Kept s.2.max (Dedupe.told s id).1 (cacheOf (Dedupe.told s id).2) ∧ (Dedupe.told s id).2.max = s.2.max := by
  have next := entry_kept some held id ()
  obtain ⟨entered, max⟩ := firstTime_entry s.2 id
  rw [← entered] at next
  refine ⟨?_, max⟩
  unfold Dedupe.told
  unfold Cache.inserts at next
  by_cases known : id ∈ s.2.seen
  · rw [if_neg fun absent => (cacheOf_isNone s.2 id).mp absent known, List.append_nil] at next
    rw [if_neg fun new => (firstTime_told_new s.2 id).mp new known]
    exact next
  · rw [if_pos ((cacheOf_isNone s.2 id).mpr known)] at next
    rw [if_pos ((firstTime_told_new s.2 id).mpr known)]
    exact next

theorem foldl_told_kept (ids : List String) {s : List String × Dedupe} (some : 0 < s.2.max)
    (held : Kept s.2.max s.1 (cacheOf s.2)) :
    Kept s.2.max (ids.foldl Dedupe.told s).1 (cacheOf (ids.foldl Dedupe.told s).2) ∧
      (ids.foldl Dedupe.told s).2.max = s.2.max := by
  induction ids generalizing s with
  | nil => exact ⟨held, rfl⟩
  | cons id ids ih =>
    obtain ⟨next, max⟩ := told_kept some held id
    rw [← max] at some next
    rw [← max]
    exact ih some next

theorem seen_iff_order {cap : Nat} {told : List String} {d : Dedupe} (held : Kept cap told (cacheOf d)) (id : String) :
    id ∈ d.seen ↔ id ∈ d.order := by
  have keys := held.keys id
  unfold cacheOf at keys
  by_cases known : id ∈ d.seen <;> simpa [known] using keys

/-- After any ids, an id is new exactly when it is not among the last that were, and the set is the queue. -/
theorem first_time_is_a_window (max : Nat) (ids : List String) :
    (∀ id, ((Dedupe.run max ids).2.firstTime id).2 = true ↔ id ∉ latest (Nat.max max 1) (Dedupe.run max ids).1) ∧
      (Dedupe.run max ids).2.seen = (Dedupe.run max ids).2.order.toFinset ∧ (Dedupe.run max ids).2.order.Nodup ∧
      (Dedupe.run max ids).2.seen.card ≤ Nat.max max 1 := by
  have empty : cacheOf (Dedupe.new max) = Cache.empty := rfl
  have start : Kept (Nat.max max 1) [] (cacheOf (Dedupe.new max)) := by
    rw [empty]
    exact kept_empty
  obtain ⟨held, -⟩ := foldl_told_kept ids (s := ([], Dedupe.new max)) (Nat.le_max_right max 1) start
  change Kept (Nat.max max 1) (Dedupe.run max ids).1 (cacheOf (Dedupe.run max ids).2) at held
  have window : (Dedupe.run max ids).2.order = latest (Nat.max max 1) (Dedupe.run max ids).1 := held.latest
  have same : (Dedupe.run max ids).2.seen = (Dedupe.run max ids).2.order.toFinset := by
    ext id
    rw [List.mem_toFinset]
    exact seen_iff_order held id
  have once : (Dedupe.run max ids).2.order.Nodup := held.once
  refine ⟨fun id => ?_, same, once, ?_⟩
  · rw [firstTime_told_new, seen_iff_order held, window]
  · rw [same, List.toFinset_card_of_nodup once]
    exact held.bounded

end EgressProof
