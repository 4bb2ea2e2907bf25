import Mathlib.Data.List.Basic

namespace Partial

variable {α β : Type*}

theorem index_inside {xs : List α} {i : Nat} (default : α) (inside : i < xs.length) : xs[i]? = some (xs.getD i default) := by
  rw [List.getD_eq_getElem?_getD, List.getElem?_eq_getElem inside, Option.getD_some]

/-- The elements from `start` to `stop`, none where they are not all there. -/
def slice (xs : List α) (start stop : Nat) : Option (List α) :=
  if start ≤ stop ∧ stop ≤ xs.length then some ((xs.drop start).take (stop - start)) else none

theorem slice_inside {xs : List α} {start len : Nat} (inside : start + len ≤ xs.length) :
    slice xs start (start + len) = some ((xs.drop start).take len) := by
  rw [slice, if_pos ⟨Nat.le_add_right start len, inside⟩, Nat.add_sub_cancel_left]

/-- A loop whose every turn returns comes to its end. -/
theorem foldlM_returns {f : β → α → Option β} {l : List α} (each : ∀ b, ∀ x ∈ l, ∃ next, f b x = some next) (start : β) :
    ∃ b, l.foldlM f start = some b := by
  induction l generalizing start with
  | nil => exact ⟨start, rfl⟩
  | cons x l ih =>
    obtain ⟨next, step⟩ := each start x List.mem_cons_self
    rw [List.foldlM_cons, step]
    exact ih (fun b y member => each b y (List.mem_cons_of_mem x member)) next

/-- Turn by turn the same as a loop that cannot fail, it is that loop. -/
theorem foldlM_some {f : β → α → Option β} {g : β → α → β} {l : List α} (each : ∀ b, ∀ x ∈ l, f b x = some (g b x))
    (start : β) : l.foldlM f start = some (l.foldl g start) := by
  induction l generalizing start with
  | nil => rfl
  | cons x l ih =>
    rw [List.foldlM_cons, each start x List.mem_cons_self, List.foldl_cons]
    exact ih (fun b y member => each b y (List.mem_cons_of_mem x member)) (g start x)

theorem mapM_some {f : α → Option β} {g : α → β} {l : List α} (each : ∀ x ∈ l, f x = some (g x)) :
    l.mapM f = some (l.map g) := by
  induction l with
  | nil => rfl
  | cons x l ih =>
    rw [List.mapM_cons, each x List.mem_cons_self, ih fun y member => each y (List.mem_cons_of_mem x member)]
    rfl

theorem mapM_eq_none_iff {f : α → Option β} {l : List α} : l.mapM f = none ↔ ∃ x ∈ l, f x = none := by
  induction l with
  | nil => simp
  | cons x l ih =>
    rw [List.mapM_cons]
    cases here : f x with
    | none => simp [here]
    | some y =>
      cases later : l.mapM f with
      | none =>
        obtain ⟨z, member, none⟩ := ih.mp later
        simp only [Option.bind_eq_bind, Option.bind_some, Option.bind_none, true_iff]
        exact ⟨z, List.mem_cons_of_mem x member, none⟩
      | some ys =>
        simp only [Option.bind_eq_bind, Option.bind_some, Option.pure_def, reduceCtorEq, List.mem_cons, false_iff]
        rintro ⟨z, rfl | member, none⟩
        · rw [here] at none
          cases none
        · rw [ih.mpr ⟨z, member, none⟩] at later
          cases later

theorem length_mapM {f : α → Option β} {l : List α} {ys : List β} (all : l.mapM f = some ys) : ys.length = l.length := by
  induction l generalizing ys with
  | nil =>
    cases all
    rfl
  | cons x l ih =>
    rw [List.mapM_cons] at all
    cases here : f x with
    | none =>
      rw [here] at all
      cases all
    | some y =>
      cases later : l.mapM f with
      | none =>
        rw [here, later] at all
        cases all
      | some rest =>
        rw [here, later] at all
        cases all
        rw [List.length_cons, List.length_cons, ih later]

end Partial
