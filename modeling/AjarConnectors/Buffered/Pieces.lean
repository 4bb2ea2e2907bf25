import AjarConnectors.Buffered.Reader

namespace Buffered

variable {α : Type*} [DecidableEq α] {delimiter : α}

/-- What stands between the delimiters; what follows the last one only if there is something. -/
def pieces (delimiter : α) : List α → List (List α)
  | [] => []
  | a :: rest =>
    if a = delimiter then [] :: pieces delimiter rest
    else match pieces delimiter rest with
      | [] => [[a]]
      | first :: others => (a :: first) :: others

/-- What a read up to the delimiter has read, without the delimiter. -/
def pieceOf (delimiter : α) (raw : List α) : List α := raw.takeWhile fun a => a ≠ delimiter

theorem pieces_line {line : List α} (absent : delimiter ∉ line) (rest : List α) :
    pieces delimiter (line ++ delimiter :: rest) = line :: pieces delimiter rest := by
  induction line with
  | nil => exact if_pos rfl
  | cons a line ih =>
    have other : a ≠ delimiter := fun same => absent (same ▸ List.mem_cons_self)
    rw [List.cons_append, pieces, if_neg other, ih fun inside => absent (List.mem_cons_of_mem a inside)]

theorem pieces_last {line : List α} (absent : delimiter ∉ line) (filled : line ≠ []) : pieces delimiter line = [line] := by
  induction line with
  | nil => exact absurd rfl filled
  | cons a line ih =>
    have other : a ≠ delimiter := fun same => absent (same ▸ List.mem_cons_self)
    have later : delimiter ∉ line := fun inside => absent (List.mem_cons_of_mem a inside)
    rw [pieces, if_neg other]
    by_cases last : line = []
    · rw [last]
      rfl
    · rw [ih later last]

theorem takeThrough_absent {s : List α} (absent : delimiter ∉ s) : takeThrough delimiter s = (s, []) := by
  have whole := takeThrough_of_not_mem absent []
  rw [List.append_nil, takeThrough, List.append_nil] at whole
  exact whole

/-- Either a delimiter comes, and a piece before it without one, or none does. -/
theorem delimiter_cases (delimiter : α) (s : List α) :
    (∃ line rest, s = line ++ delimiter :: rest ∧ delimiter ∉ line) ∨ delimiter ∉ s := by
  induction s with
  | nil => exact Or.inr (List.not_mem_nil)
  | cons a s ih =>
    by_cases same : a = delimiter
    · left
      exact ⟨[], s, by rw [same]; rfl, List.not_mem_nil⟩
    · rcases ih with ⟨line, rest, cut, absent⟩ | absent
      · left
        refine ⟨a :: line, rest, by rw [cut]; rfl, ?_⟩
        intro member
        exact (List.mem_cons.mp member).elim (fun first => same first.symm) absent
      · right
        intro member
        exact (List.mem_cons.mp member).elim (fun first => same first.symm) absent

/-- The first piece is what a read up to the delimiter gives, and the others are the pieces of what it leaves. -/
theorem pieces_takeThrough {s : List α} (filled : s ≠ []) :
    pieces delimiter s = pieceOf delimiter (takeThrough delimiter s).1 :: pieces delimiter (takeThrough delimiter s).2 := by
  have whole : ∀ line : List α, delimiter ∉ line → ∀ later, (line ++ later).takeWhile (fun a => a ≠ delimiter) =
      line ++ later.takeWhile fun a => a ≠ delimiter := by
    intro line absent later
    apply List.takeWhile_append_of_pos
    intro a member
    exact decide_eq_true fun same => absent (same ▸ member)
  unfold pieceOf
  rcases delimiter_cases delimiter s with ⟨line, rest, rfl, absent⟩ | absent
  · rw [takeThrough_line absent, pieces_line absent, whole line absent, List.takeWhile_cons_of_neg (by simp), List.append_nil]
  · have same := whole s absent []
    rw [List.append_nil, List.takeWhile_nil, List.append_nil] at same
    rw [takeThrough_absent absent, pieces_last absent filled, same]
    rfl

end Buffered
