import Mathlib.Order.Lattice.Nat

/-! How many edits of single elements turn one list into another. -/

namespace Edits

variable {α : Type*}

/-- One element is inserted, deleted or replaced. -/
inductive Edit : List α → List α → Prop where
  | insert (front back : List α) (b : α) : Edit (front ++ back) (front ++ b :: back)
  | delete (front back : List α) (a : α) : Edit (front ++ a :: back) (front ++ back)
  | replace (front back : List α) (a b : α) : Edit (front ++ a :: back) (front ++ b :: back)

/-- So many edits, one after the other. -/
inductive Chain : Nat → List α → List α → Prop where
  | done (xs : List α) : Chain 0 xs xs
  | more {n : Nat} {xs ys zs : List α} : Edit xs ys → Chain n ys zs → Chain (n + 1) xs zs

/-- The least number of edits that turn the one into the other. -/
noncomputable def distance (xs ys : List α) : Nat := sInf {n | Chain n xs ys}

/-- The edits of a pass along both lists. -/
inductive Script : List α → List α → Nat → Prop where
  | nil : Script [] [] 0
  | keep (a : α) {xs ys : List α} {n : Nat} : Script xs ys n → Script (a :: xs) (a :: ys) n
  | replace (a b : α) {xs ys : List α} {n : Nat} : Script xs ys n → Script (a :: xs) (b :: ys) (n + 1)
  | insert (b : α) {xs ys : List α} {n : Nat} : Script xs ys n → Script xs (b :: ys) (n + 1)
  | delete (a : α) {xs ys : List α} {n : Nat} : Script xs ys n → Script (a :: xs) ys (n + 1)

namespace Script

variable {xs ys zs : List α} {m n : Nat} {a b : α}

theorem refl (xs : List α) : Script xs xs 0 := by
  induction xs with
  | nil => exact nil
  | cons a xs ih => exact keep a ih

theorem symm (script : Script xs ys n) : Script ys xs n := by
  induction script with
  | nil => exact nil
  | keep a _ ih => exact keep a ih
  | replace a b _ ih => exact replace b a ih
  | insert b _ ih => exact delete b ih
  | delete a _ ih => exact insert a ih

theorem insertAll (inserted : List α) (script : Script xs ys n) : Script xs (inserted ++ ys) (inserted.length + n) := by
  induction inserted with
  | nil =>
    rw [List.nil_append, List.length_nil, Nat.zero_add]
    exact script
  | cons b inserted ih =>
    rw [List.cons_append, List.length_cons, Nat.add_right_comm]
    exact insert b ih

theorem append {xs' ys' : List α} (first : Script xs ys m) (second : Script xs' ys' n) :
    Script (xs ++ xs') (ys ++ ys') (m + n) := by
  induction first with
  | nil =>
    rw [Nat.zero_add]
    exact second
  | keep a _ ih => exact keep a ih
  | replace a b _ ih =>
    rw [Nat.add_right_comm]
    exact replace a b ih
  | insert b _ ih =>
    rw [Nat.add_right_comm]
    exact insert b ih
  | delete a _ ih =>
    rw [Nat.add_right_comm]
    exact delete a ih

theorem reverse (script : Script xs ys n) : Script xs.reverse ys.reverse n := by
  induction script with
  | nil => exact nil
  | keep a _ ih =>
    rw [List.reverse_cons, List.reverse_cons]
    exact ih.append (keep a nil)
  | replace a b _ ih =>
    rw [List.reverse_cons, List.reverse_cons]
    exact ih.append (replace a b nil)
  | insert b _ ih =>
    rw [List.reverse_cons]
    have added := ih.append (insert b nil)
    rwa [List.append_nil] at added
  | delete a _ ih =>
    rw [List.reverse_cons]
    have dropped := ih.append (delete a nil)
    rwa [List.append_nil] at dropped

/-- After some insertions the first element goes with one of the other list, or is deleted. -/
theorem first (script : Script (a :: xs) zs n) : ∃ inserted zs' k, Script xs zs' k ∧
    ((∃ c, zs = inserted ++ c :: zs' ∧ (a = c ∧ n = inserted.length + k ∨ n = inserted.length + k + 1)) ∨
      (zs = inserted ++ zs' ∧ n = inserted.length + k + 1)) := by
  generalize whole : a :: xs = ys at script
  induction script with
  | nil => cases whole
  | keep c rest _ =>
    cases whole
    exact ⟨[], _, _, rest, Or.inl ⟨_, rfl, Or.inl ⟨rfl, (Nat.zero_add _).symm⟩⟩⟩
  | replace c d rest _ =>
    cases whole
    exact ⟨[], _, _, rest, Or.inl ⟨_, rfl, Or.inr (by simp)⟩⟩
  | insert c rest ih =>
    obtain ⟨inserted, zs', k, after, kinds⟩ := ih whole
    refine ⟨c :: inserted, zs', k, after, ?_⟩
    simp only [List.cons_append, List.length_cons]
    rcases kinds with ⟨d, rfl, ⟨same, rfl⟩ | rfl⟩ | ⟨rfl, rfl⟩
    · exact Or.inl ⟨d, rfl, Or.inl ⟨same, by omega⟩⟩
    · exact Or.inl ⟨d, rfl, Or.inr (by omega)⟩
    · exact Or.inr ⟨rfl, by omega⟩
  | delete c rest _ =>
    cases whole
    exact ⟨[], _, _, rest, Or.inr ⟨rfl, by simp⟩⟩

/-- What happens in two passes happens in one with no more edits. -/
theorem trans (front : Script xs ys m) (back : Script ys zs n) : ∃ k ≤ m + n, Script xs zs k := by
  induction front generalizing zs n with
  | nil => exact ⟨n, by omega, back⟩
  | keep a _ ih =>
    obtain ⟨inserted, zs', k, after, kinds⟩ := back.first
    obtain ⟨l, short, both⟩ := ih after
    rcases kinds with ⟨c, rfl, ⟨rfl, rfl⟩ | rfl⟩ | ⟨rfl, rfl⟩
    · exact ⟨_, by omega, insertAll inserted (keep a both)⟩
    · exact ⟨_, by omega, insertAll inserted (replace a c both)⟩
    · exact ⟨_, by omega, insertAll inserted (delete a both)⟩
  | replace a b _ ih =>
    obtain ⟨inserted, zs', k, after, kinds⟩ := back.first
    obtain ⟨l, short, both⟩ := ih after
    rcases kinds with ⟨c, rfl, ⟨rfl, rfl⟩ | rfl⟩ | ⟨rfl, rfl⟩
    · exact ⟨_, by omega, insertAll inserted (replace a b both)⟩
    · exact ⟨_, by omega, insertAll inserted (replace a c both)⟩
    · exact ⟨_, by omega, insertAll inserted (delete a both)⟩
  | insert b _ ih =>
    obtain ⟨inserted, zs', k, after, kinds⟩ := back.first
    obtain ⟨l, short, both⟩ := ih after
    rcases kinds with ⟨c, rfl, ⟨rfl, rfl⟩ | rfl⟩ | ⟨rfl, rfl⟩
    · exact ⟨_, by omega, insertAll inserted (insert b both)⟩
    · exact ⟨_, by omega, insertAll inserted (insert c both)⟩
    · exact ⟨_, by omega, insertAll inserted both⟩
  | delete a _ ih =>
    obtain ⟨l, short, both⟩ := ih back
    exact ⟨l + 1, by omega, delete a both⟩

end Script

section

variable {xs ys zs : List α} {m n : Nat}

theorem Edit.cons (a : α) (edit : Edit xs ys) : Edit (a :: xs) (a :: ys) := by
  cases edit with
  | insert front back b => exact insert (a :: front) back b
  | delete front back b => exact delete (a :: front) back b
  | replace front back b c => exact replace (a :: front) back b c

theorem Chain.cons (a : α) (chain : Chain n xs ys) : Chain n (a :: xs) (a :: ys) := by
  induction chain with
  | done xs => exact done (a :: xs)
  | more edit _ ih => exact more (edit.cons a) ih

theorem Script.chain (script : Script xs ys n) : Chain n xs ys := by
  induction script with
  | nil => exact Chain.done []
  | keep a _ ih => exact ih.cons a
  | @replace a b xs ys n _ ih => exact Chain.more (Edit.replace [] xs a b) (ih.cons b)
  | @insert b xs ys n _ ih => exact Chain.more (Edit.insert [] xs b) (ih.cons b)
  | @delete a xs ys n _ ih => exact Chain.more (Edit.delete [] xs a) ih

theorem Edit.script (edit : Edit xs ys) : Script xs ys 1 := by
  cases edit with
  | insert front back b => exact (Script.refl front).append (Script.insert b (Script.refl back))
  | delete front back a => exact (Script.refl front).append (Script.delete a (Script.refl back))
  | replace front back a b => exact (Script.refl front).append (Script.replace a b (Script.refl back))

theorem Chain.script (chain : Chain n xs ys) : ∃ k ≤ n, Script xs ys k := by
  induction chain with
  | done xs => exact ⟨0, Nat.le_refl 0, Script.refl xs⟩
  | more edit _ ih =>
    obtain ⟨k, short, rest⟩ := ih
    obtain ⟨l, less, both⟩ := edit.script.trans rest
    exact ⟨l, by omega, both⟩

variable [DecidableEq α]

end

end Edits
