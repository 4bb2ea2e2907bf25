import Mathlib.Data.List.Basic

namespace Buffered

variable {α : Type*}

/-- A buffer over a source: what is buffered, and what each later read of the source returns, which
    is never nothing before the source ends. -/
structure Reader (α : Type*) where
  buffer : List α
  arriving : List (α × List α)

/-- Up to and including the first delimiter, or everything if there is none, and what follows. -/
def takeThrough [DecidableEq α] (delimiter : α) : List α → List α × List α
  | [] => ([], [])
  | a :: rest =>
    if a = delimiter then ([a], rest)
    else (a :: (takeThrough delimiter rest).1, (takeThrough delimiter rest).2)

namespace Reader

/-- All that is still to come, however it is cut into reads. -/
def flat (r : Reader α) : List α := r.buffer ++ r.arriving.flatMap fun next => next.1 :: next.2

def isEnded (r : Reader α) : Bool := r.buffer.isEmpty && r.arriving.isEmpty

def readUntilLoop [DecidableEq α] (delimiter : α) (taken buffer : List α) : List (α × List α) → List α × Reader α
  | [] => (taken ++ (takeThrough delimiter buffer).1, ⟨(takeThrough delimiter buffer).2, []⟩)
  | next :: later =>
    if delimiter ∈ buffer then
      (taken ++ (takeThrough delimiter buffer).1, ⟨(takeThrough delimiter buffer).2, next :: later⟩)
    else readUntilLoop delimiter (taken ++ buffer) (next.1 :: next.2) later

def readUntil [DecidableEq α] (delimiter : α) (r : Reader α) : List α × Reader α :=
  readUntilLoop delimiter [] r.buffer r.arriving

def readExactLoop (count : Nat) (taken buffer : List α) : List (α × List α) → Option (List α × Reader α)
  | [] => if count ≤ buffer.length then some (taken ++ buffer.take count, ⟨buffer.drop count, []⟩) else none
  | next :: later =>
    if count ≤ buffer.length then some (taken ++ buffer.take count, ⟨buffer.drop count, next :: later⟩)
    else readExactLoop (count - buffer.length) (taken ++ buffer) (next.1 :: next.2) later

def readExact (count : Nat) (r : Reader α) : Option (List α × Reader α) :=
  readExactLoop count [] r.buffer r.arriving

end Reader

section

variable [DecidableEq α] (delimiter : α)

theorem takeThrough_append (s : List α) : (takeThrough delimiter s).1 ++ (takeThrough delimiter s).2 = s := by
  induction s with
  | nil => rfl
  | cons a rest ih =>
    rw [takeThrough]
    split
    · rfl
    · rw [List.cons_append, ih]

variable {delimiter}

theorem takeThrough_of_mem {s : List α} (member : delimiter ∈ s) (later : List α) :
    takeThrough delimiter (s ++ later) = ((takeThrough delimiter s).1, (takeThrough delimiter s).2 ++ later) := by
  induction s with
  | nil => cases member
  | cons a rest ih =>
    rw [List.cons_append, takeThrough, takeThrough]
    split
    · rfl
    · rename_i other
      have inside : delimiter ∈ rest := by
        rcases List.mem_cons.mp member with same | inside
        · exact absurd same.symm other
        · exact inside
      rw [ih inside]

theorem takeThrough_of_not_mem {s : List α} (absent : delimiter ∉ s) (later : List α) :
    takeThrough delimiter (s ++ later) = (s ++ (takeThrough delimiter later).1, (takeThrough delimiter later).2) := by
  induction s with
  | nil => rfl
  | cons a rest ih =>
    have other : a ≠ delimiter := by
      intro same
      subst same
      exact absent List.mem_cons_self
    rw [List.cons_append, takeThrough, if_neg other, ih fun inside => absent (List.mem_cons_of_mem _ inside)]
    rfl

theorem takeThrough_line {line : List α} (absent : delimiter ∉ line) (later : List α) :
    takeThrough delimiter (line ++ delimiter :: later) = (line ++ [delimiter], later) := by
  rw [takeThrough_of_not_mem absent, takeThrough, if_pos rfl]

variable (delimiter)

theorem readUntilLoop_flat (taken buffer : List α) (arriving : List (α × List α)) :
    (Reader.readUntilLoop delimiter taken buffer arriving).1 =
      taken ++ (takeThrough delimiter (Reader.flat ⟨buffer, arriving⟩)).1 ∧
    (Reader.readUntilLoop delimiter taken buffer arriving).2.flat =
      (takeThrough delimiter (Reader.flat ⟨buffer, arriving⟩)).2 := by
  induction arriving generalizing taken buffer with
  | nil => simp [Reader.readUntilLoop, Reader.flat]
  | cons next later ih =>
    rw [Reader.readUntilLoop, Reader.flat]
    split
    · rename_i member
      rw [takeThrough_of_mem member]
      exact ⟨rfl, rfl⟩
    · rename_i absent
      have next := ih (taken ++ buffer) (next.1 :: next.2)
      rw [takeThrough_of_not_mem absent]
      rw [Reader.flat] at next
      rw [next.1, next.2, List.append_assoc]
      exact ⟨rfl, rfl⟩

/-- How the source cuts its bytes does not matter to a read up to a delimiter. -/
theorem readUntil_flat (r : Reader α) :
    (r.readUntil delimiter).1 = (takeThrough delimiter r.flat).1 ∧
    (r.readUntil delimiter).2.flat = (takeThrough delimiter r.flat).2 := by
  have loop := readUntilLoop_flat delimiter [] r.buffer r.arriving
  rw [List.nil_append] at loop
  exact loop

end

theorem readExactLoop_flat {count : Nat} {taken buffer got : List α} {arriving : List (α × List α)} {r : Reader α}
    (found : Reader.readExactLoop count taken buffer arriving = some (got, r)) :
    count ≤ (Reader.flat ⟨buffer, arriving⟩).length ∧ got = taken ++ (Reader.flat ⟨buffer, arriving⟩).take count ∧
      r.flat = (Reader.flat ⟨buffer, arriving⟩).drop count := by
  induction arriving generalizing count taken buffer with
  | nil =>
    rw [Reader.readExactLoop] at found
    split at found
    · rename_i enough
      cases found
      rw [Reader.flat, List.flatMap_nil, List.append_nil]
      exact ⟨enough, rfl, List.append_nil _⟩
    · cases found
  | cons next later ih =>
    rw [Reader.readExactLoop] at found
    rw [Reader.flat]
    dsimp only
    split at found
    · rename_i enough
      cases found
      rw [List.length_append, List.take_append_of_le_length enough, List.drop_append_of_le_length enough]
      exact ⟨by omega, rfl, rfl⟩
    · rename_i short
      have rest := ih found
      rw [Reader.flat] at rest
      dsimp only at rest
      rw [List.flatMap_cons, List.length_append, List.take_append, List.drop_append,
        List.take_of_length_le (by omega), List.drop_of_length_le (by omega), ← List.append_assoc, List.nil_append]
      exact ⟨by omega, rest.2.1, rest.2.2⟩

theorem readExactLoop_isSome {count : Nat} {taken buffer : List α} {arriving : List (α × List α)}
    (enough : count ≤ (Reader.flat ⟨buffer, arriving⟩).length) :
    (Reader.readExactLoop count taken buffer arriving).isSome = true := by
  induction arriving generalizing count taken buffer with
  | nil =>
    rw [Reader.readExactLoop, if_pos]
    · rfl
    · simpa [Reader.flat] using enough
  | cons next later ih =>
    rw [Reader.readExactLoop]
    split
    · rfl
    · apply ih
      rw [Reader.flat, List.length_append, List.flatMap_cons, List.length_append] at enough
      rw [Reader.flat, List.length_append]
      dsimp only at enough ⊢
      omega

/-- How the source cuts its bytes does not matter to a read of a fixed count. -/
theorem readExact_flat {count : Nat} {r r' : Reader α} {got : List α} (found : r.readExact count = some (got, r')) :
    count ≤ r.flat.length ∧ got = r.flat.take count ∧ r'.flat = r.flat.drop count := by
  have loop := readExactLoop_flat found
  rw [List.nil_append] at loop
  exact loop

theorem readExact_isSome {count : Nat} {r : Reader α} (enough : count ≤ r.flat.length) :
    (r.readExact count).isSome = true :=
  readExactLoop_isSome enough

theorem isEnded_iff (r : Reader α) : r.isEnded = true ↔ r.flat = [] := by
  rw [Reader.isEnded, Reader.flat, Bool.and_eq_true, List.isEmpty_iff, List.isEmpty_iff, List.append_eq_nil_iff,
    List.flatMap_eq_nil_iff]
  constructor
  · intro ended
    exact ⟨ended.1, fun next member => by rw [ended.2] at member; cases member⟩
  · intro ended
    refine ⟨ended.1, ?_⟩
    cases arriving : r.arriving with
    | nil => rfl
    | cons next later => cases ended.2 next (by rw [arriving]; exact List.mem_cons_self)

end Buffered
