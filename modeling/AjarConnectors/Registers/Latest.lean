import Mathlib.Data.List.Basic

namespace Registers

variable {α β γ σ : Type*} {said : α → Option β}

/-- The last value that the writes give. -/
def latest (said : α → Option β) (writes : List α) : Option β := (writes.filterMap said).getLast?

theorem latest_append (before after : List α) :
    latest said (before ++ after) = (latest said after).or (latest said before) := by
  unfold latest
  rw [List.filterMap_append, List.getLast?_append]

theorem latest_singleton (write : α) : latest said [write] = said write := by
  unfold latest
  cases told : said write with
  | none => rw [List.filterMap_cons_none told]; rfl
  | some value => rw [List.filterMap_cons_some told]; rfl

theorem latest_cons (write : α) (later : List α) :
    latest said (write :: later) = (latest said later).or (said write) := by
  have whole := @latest_append _ _ said [write] later
  rw [latest_singleton] at whole
  exact whole

theorem latest_eq_none_iff {writes : List α} : latest said writes = none ↔ ∀ write ∈ writes, said write = none := by
  rw [latest, List.getLast?_eq_none_iff, List.filterMap_eq_nil_iff]

theorem latest_eq_some {writes : List α} {value : β} (last : latest said writes = some value) :
    ∃ write ∈ writes, said write = some value := List.mem_filterMap.mp (List.mem_of_getLast? last)

/-- Writes that give nothing may be left out. -/
theorem latest_filter (keep : α → Bool) (silent : ∀ write, keep write = false → said write = none) (writes : List α) :
    latest said (writes.filter keep) = latest said writes := by
  induction writes with
  | nil => rfl
  | cons write later ih =>
    cases kept : keep write with
    | true => rw [List.filter_cons_of_pos kept, latest_cons, latest_cons, ih]
    | false =>
      rw [List.filter_cons_of_neg (Bool.eq_false_iff.mp kept), latest_cons, ih, silent write kept, Option.or_none]

section

variable {step : σ → α → σ}

/-- A register that each write overwrites with what it gives holds the last value given. -/
theorem foldl_getD (get : σ → β) (law : ∀ s write, get (step s write) = (said write).getD (get s)) (writes : List α)
    (s : σ) : get (writes.foldl step s) = (latest said writes).getD (get s) := by
  induction writes generalizing s with
  | nil => rfl
  | cons write later ih =>
    rw [List.foldl_cons, ih, latest_cons, law]
    cases latest said later <;> rfl

/-- The same of a register that may hold nothing yet. -/
theorem foldl_or (get : σ → Option β) (law : ∀ s write, get (step s write) = (said write).or (get s)) (writes : List α)
    (s : σ) : get (writes.foldl step s) = (latest said writes).or (get s) := by
  induction writes generalizing s with
  | nil => rfl
  | cons write later ih => rw [List.foldl_cons, ih, latest_cons, law, Option.or_assoc]

/-- A counter that some writes raise counts them. -/
theorem foldl_count (get : σ → Nat) (counts : α → Bool)
    (law : ∀ s write, get (step s write) = get s + if counts write then 1 else 0) (writes : List α) (s : σ) :
    get (writes.foldl step s) = get s + writes.countP counts := by
  induction writes generalizing s with
  | nil => rfl
  | cons write later ih =>
    rw [List.foldl_cons, ih, law, List.countP_cons]
    omega

end

end Registers
