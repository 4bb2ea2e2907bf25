import Mathlib.Data.List.AList
import AjarConnectors.Eviction.Fifo

namespace SapientEgressModel

def maxObjects : Nat := 10000

/-- The object identifiers of the tracks that were reported last. -/
structure Mapper where
  objects : AList fun _ : String => String := ∅
  order : List String := []

namespace Mapper

/-- At the cap, the oldest track goes. -/
def evict (m : Mapper) : Mapper :=
  if maxObjects ≤ m.objects.entries.length then
    match m.order with
    | [] => m
    | old :: rest => ⟨m.objects.erase old, rest⟩
  else m

/-- The stable SAPIENT object identifier for a track; `fresh` is the identifier that `ulid::new` draws. -/
def objectId (m : Mapper) (fresh key : String) : String × Mapper :=
  match m.objects.lookup key with
  | some id => (id, m)
  | none => (fresh, ⟨m.evict.objects.insert key fresh, m.evict.order ++ [key]⟩)

def cache (m : Mapper) : Eviction.Cache String String := ⟨fun key => m.objects.lookup key, m.order⟩

/-- A mapper with the tracks it drew an identifier for, after one more report. -/
def logged (s : List String × Mapper) (report : String × String) : List String × Mapper :=
  (s.1 ++ (if (s.2.objects.lookup report.1).isNone then [report.1] else []), (s.2.objectId report.2 report.1).2)

end Mapper

end SapientEgressModel

namespace SapientEgressProof

open SapientEgressModel Eviction

/-- A mapper whose queue lists its keys has as many keys as its queue is long. -/
theorem objects_length {m : Mapper} {inserted : List String} (kept : Kept maxObjects inserted m.cache) :
    m.objects.entries.length = m.order.length := by
  have same : m.objects.keys.Perm m.order := by
    apply (List.perm_ext_iff_of_nodup m.objects.keys_nodup kept.once).mpr
    intro key
    rw [← AList.mem_keys, ← AList.lookup_isSome]
    exact (kept.keys key).symm
  rw [← same.length_eq, AList.keys, List.keys, List.length_map]

theorem evict_cache {m : Mapper} (length : m.objects.entries.length = m.order.length) :
    m.evict.cache = m.cache.evict maxObjects := by
  obtain ⟨objects, order⟩ := m
  unfold Mapper.evict Cache.evict
  change (if maxObjects ≤ objects.entries.length then _ else _ : Mapper).cache = if maxObjects ≤ order.length then _ else _
  rw [length]
  split
  · cases order with
    | nil => rfl
    | cons old rest =>
      have erased : (fun other => (objects.erase old).lookup other) =
          Function.update (fun key => objects.lookup key) old none := by
        funext other
        by_cases same : other = old
        · subst same
          rw [AList.lookup_erase, Function.update_self]
        · rw [AList.lookup_erase_ne same, Function.update_of_ne same]
      exact congrArg (Cache.mk · rest) erased
  · rfl

/-- The map and the queue of the mapper step as the abstract cache does. -/
theorem objectId_cache {m : Mapper} {inserted : List String} (kept : Kept maxObjects inserted m.cache) (fresh key : String) :
    (m.objectId fresh key).2.cache = m.cache.entry maxObjects key fresh := by
  have length := objects_length kept
  have evicted := evict_cache length
  unfold Mapper.objectId Cache.entry
  change (match m.objects.lookup key with | some id => _ | none => _ : String × Mapper).2.cache =
    if (m.objects.lookup key).isNone then _ else _
  cases found : m.objects.lookup key with
  | some id => rfl
  | none =>
    have inserted : (fun other => (m.evict.objects.insert key fresh).lookup other) =
        Function.update m.evict.cache.map key (some fresh) := by
      funext other
      by_cases same : other = key
      · subst same
        rw [AList.lookup_insert, Function.update_self]
      · rw [AList.lookup_insert_ne same, Function.update_of_ne same]
        rfl
    rw [← evicted]
    unfold Mapper.cache at inserted ⊢
    dsimp only at inserted ⊢
    rw [inserted]
    rfl

theorem objectId_kept {m : Mapper} {inserted : List String} (kept : Kept maxObjects inserted m.cache) (fresh key : String) :
    Kept maxObjects (inserted ++ m.cache.inserts key) (m.objectId fresh key).2.cache := by
  rw [objectId_cache kept]
  exact entry_kept (by decide) kept key fresh

/-- After any reports, the mapper lists the tracks it drew an identifier for last, in their order. -/
theorem reports_kept (reports : List (String × String)) {s : List String × Mapper} (kept : Kept maxObjects s.1 s.2.cache) :
    Kept maxObjects (reports.foldl Mapper.logged s).1 (reports.foldl Mapper.logged s).2.cache := by
  induction reports generalizing s with
  | nil => exact kept
  | cons report reports ih => exact ih (objectId_kept kept report.2 report.1)

theorem mapper_starts : Kept maxObjects [] ({} : Mapper).cache where
  keys := by
    intro key
    have nothing : (AList.lookup key (∅ : AList fun _ : String => String)) = none := AList.lookup_empty key
    change key ∈ [] ↔ (AList.lookup key (∅ : AList fun _ : String => String)).isSome = true
    rw [nothing]
    simp
  once := List.nodup_nil
  bounded := Nat.zero_le _
  latest := (List.drop_nil).symm

end SapientEgressProof
