import AjarConnectors.Buffered.Reader

namespace Buffered

variable {α : Type*}

/-- What some reads of the source return, one after the other. -/
def joined (reads : List (α × List α)) : List α := reads.flatMap fun next => next.1 :: next.2

namespace Reader

/-- How much the source still holds. -/
def pending (r : Reader α) : Nat := (joined r.arriving).length

/-- No read of the source returns more than the buffer holds. -/
structure Fits (capacity : Nat) (r : Reader α) : Prop where
  buffer : r.buffer.length ≤ capacity
  reads : ∀ next ∈ r.arriving, (next.1 :: next.2).length ≤ capacity

/-- The delimiter, or the end of the source, comes within the reads that return at most so much. -/
def EndsWithin (delimiter : α) (room : Nat) (r : Reader α) : Prop :=
  ∃ now later, r.arriving = now ++ later ∧ (joined now).length ≤ room ∧ (delimiter ∈ r.buffer ++ joined now ∨ later = [])

theorem flat_length (r : Reader α) : r.flat.length = r.buffer.length + r.pending := List.length_append

theorem pending_cons (buffer : List α) (next : α × List α) (later : List (α × List α)) :
    pending ⟨buffer, next :: later⟩ = (next.1 :: next.2).length + pending ⟨next.1 :: next.2, later⟩ := by
  rw [pending, joined, List.flatMap_cons, List.length_append]
  rfl

end Reader

variable {delimiter : α}

theorem endsWithin_buffered {room : Nat} {r : Reader α} (member : delimiter ∈ r.buffer) : r.EndsWithin delimiter room :=
  ⟨[], r.arriving, rfl, Nat.zero_le _, Or.inl (List.mem_append_left _ member)⟩

/-- A line that the buffer does not end needs the next read. -/
theorem endsWithin_cons {room : Nat} {buffer : List α} {next : α × List α} {later : List (α × List α)}
    (absent : delimiter ∉ buffer) : Reader.EndsWithin delimiter room ⟨buffer, next :: later⟩ ↔
      (next.1 :: next.2).length ≤ room ∧
        Reader.EndsWithin delimiter (room - (next.1 :: next.2).length) ⟨next.1 :: next.2, later⟩ := by
  constructor
  · rintro ⟨now, rest, split, small, ends⟩
    cases now with
    | nil =>
      rcases ends with member | rfl
      · rw [joined, List.flatMap_nil, List.append_nil] at member
        exact absurd member absent
      · cases split
    | cons first now =>
      obtain ⟨rfl, rfl⟩ := List.cons.inj split
      rw [joined, List.flatMap_cons, List.length_append] at small
      refine ⟨by omega, now, rest, rfl, ?_, ?_⟩
      · change (now.flatMap _).length ≤ _
        omega
      · rcases ends with member | ended
        · left
          exact (List.mem_append.mp member).resolve_left absent
        · exact Or.inr ended
  · rintro ⟨first, now, rest, split, small, ends⟩
    refine ⟨next :: now, rest, congrArg (next :: ·) split, ?_, ?_⟩
    · change (joined now).length ≤ _ at small
      rw [joined, List.flatMap_cons, List.length_append]
      change _ + (joined now).length ≤ _
      omega
    · rcases ends with member | ended
      · left
        exact List.mem_append_right _ member
      · exact Or.inr ended

theorem readExactLoop_fits {capacity count : Nat} {taken buffer got : List α} {arriving : List (α × List α)}
    {r : Reader α} (fits : Reader.Fits capacity ⟨buffer, arriving⟩)
    (found : Reader.readExactLoop count taken buffer arriving = some (got, r)) : r.Fits capacity := by
  have cut : (buffer.drop count).length ≤ capacity := by
    have whole := fits.buffer
    rw [List.length_drop]
    dsimp only at whole
    omega
  induction arriving generalizing count taken buffer with
  | nil =>
    rw [Reader.readExactLoop] at found
    split at found
    · cases found
      exact ⟨cut, fits.reads⟩
    · cases found
  | cons next later ih =>
    rw [Reader.readExactLoop] at found
    split at found
    · cases found
      exact ⟨cut, fits.reads⟩
    · have read := fits.reads next List.mem_cons_self
      refine ih ⟨read, fun other member => fits.reads other (List.mem_cons_of_mem _ member)⟩ found ?_
      rw [List.length_drop]
      omega

theorem readExact_fits {capacity count : Nat} {r r' : Reader α} {got : List α} (fits : r.Fits capacity)
    (found : r.readExact count = some (got, r')) : r'.Fits capacity :=
  readExactLoop_fits fits found

variable [DecidableEq α]

theorem takeThrough_length_le (delimiter : α) (s : List α) : (takeThrough delimiter s).2.length ≤ s.length := by
  have parts := congrArg List.length (takeThrough_append delimiter s)
  rw [List.length_append] at parts
  omega

theorem readUntilLoop_fits {capacity : Nat} {taken buffer : List α} {arriving : List (α × List α)}
    (fits : Reader.Fits capacity ⟨buffer, arriving⟩) :
    (Reader.readUntilLoop delimiter taken buffer arriving).2.Fits capacity := by
  have cut := Nat.le_trans (takeThrough_length_le delimiter buffer) fits.buffer
  induction arriving generalizing taken buffer with
  | nil => exact ⟨cut, fits.reads⟩
  | cons next later ih =>
    rw [Reader.readUntilLoop]
    split
    · exact ⟨cut, fits.reads⟩
    · have read := fits.reads next List.mem_cons_self
      have rest : Reader.Fits capacity ⟨next.1 :: next.2, later⟩ :=
        ⟨read, fun other member => fits.reads other (List.mem_cons_of_mem _ member)⟩
      exact ih rest (Nat.le_trans (takeThrough_length_le delimiter _) read)

theorem readUntil_fits (delimiter : α) {capacity : Nat} {r : Reader α} (fits : r.Fits capacity) : (r.readUntil delimiter).2.Fits capacity :=
  readUntilLoop_fits fits

theorem readUntil_length (delimiter : α) (r : Reader α) :
    (r.readUntil delimiter).1.length + (r.readUntil delimiter).2.flat.length = r.flat.length := by
  have flat := readUntil_flat delimiter r
  rw [flat.1, flat.2, ← List.length_append, takeThrough_append]

theorem readUntilLoop_pending_le (delimiter : α) (taken buffer : List α) (arriving : List (α × List α)) :
    (Reader.readUntilLoop delimiter taken buffer arriving).2.pending ≤ Reader.pending ⟨buffer, arriving⟩ := by
  induction arriving generalizing taken buffer with
  | nil => exact Nat.le_refl _
  | cons next later ih =>
    rw [Reader.readUntilLoop]
    split
    · exact Nat.le_refl _
    · have rest := ih (taken ++ buffer) (next.1 :: next.2)
      rw [Reader.pending_cons]
      omega

theorem readUntilLoop_pending {room : Nat} {taken buffer : List α} {arriving : List (α × List α)} :
    Reader.pending ⟨buffer, arriving⟩ ≤ (Reader.readUntilLoop delimiter taken buffer arriving).2.pending + room ↔
      Reader.EndsWithin delimiter room ⟨buffer, arriving⟩ := by
  induction arriving generalizing taken buffer room with
  | nil => exact iff_of_true (Nat.zero_le _) ⟨[], [], rfl, Nat.zero_le _, Or.inr rfl⟩
  | cons next later ih =>
    rw [Reader.readUntilLoop]
    by_cases member : delimiter ∈ buffer
    · rw [if_pos member]
      exact iff_of_true (Nat.le_add_right _ _) (endsWithin_buffered member)
    · rw [if_neg member, endsWithin_cons member, ← @ih _ (taken ++ buffer), Reader.pending_cons]
      have fewer := readUntilLoop_pending_le delimiter (taken ++ buffer) (next.1 :: next.2) later
      omega

theorem readUntil_pending_le (delimiter : α) (r : Reader α) : (r.readUntil delimiter).2.pending ≤ r.pending :=
  readUntilLoop_pending_le delimiter [] r.buffer r.arriving

/-- A read up to a delimiter takes no more of the source than it must. -/
theorem readUntil_pending (delimiter : α) (room : Nat) (r : Reader α) :
    r.pending ≤ (r.readUntil delimiter).2.pending + room ↔ r.EndsWithin delimiter room :=
  readUntilLoop_pending

end Buffered
