import Mathlib.Data.List.Basic

namespace Bursts

variable {σ β : Type*} (step : σ → β → σ)

/-- A checksum register whose steps lose nothing: with the same input different states stay different, and a state can be
    reached by two inputs in one way only. -/
structure Lossless : Prop where
  state : ∀ {s t : σ} {b : β}, step s b = step t b → s = t
  pair : ∀ {s : σ} {a b a' b' : β}, step (step s a) b = step (step s a') b' → a = a' ∧ b = b'

theorem cut_at {inputs : List β} {i : Nat} (inside : i < inputs.length) :
    ∃ before c after, inputs = before ++ c :: after ∧ before.length = i := by
  refine ⟨inputs.take i, inputs[i], inputs.drop (i + 1), ?_, List.length_take_of_le (Nat.le_of_lt inside)⟩
  rw [← List.drop_eq_getElem_cons inside, List.take_append_drop]

theorem set_cut (before after : List β) (c b : β) : (before ++ c :: after).set before.length b = before ++ b :: after := by
  simp

theorem set_cut_pair (before after : List β) (c d a b : β) :
    ((before ++ c :: d :: after).set before.length a).set (before.length + 1) b = before ++ a :: b :: after := by
  simp

namespace Lossless

variable {step} (lossless : Lossless step)
include lossless

theorem input {s : σ} {a a' : β} (same : step s a = step s a') : a = a' :=
  (lossless.pair (congrArg (step · a) same)).1

theorem foldl_state {s t : σ} (inputs : List β) (same : inputs.foldl step s = inputs.foldl step t) : s = t := by
  induction inputs generalizing s t with
  | nil => exact same
  | cons b inputs ih => exact lossless.state (ih same)

/-- Two adjacent inputs are told from any others in their place. -/
theorem foldl_pair {s : σ} {a b a' b' : β} {before after : List β}
    (same : (before ++ a :: b :: after).foldl step s = (before ++ a' :: b' :: after).foldl step s) : a = a' ∧ b = b' := by
  rw [List.foldl_append, List.foldl_append] at same
  exact lossless.pair (lossless.foldl_state after same)

theorem foldl_input {s : σ} {a a' : β} {before after : List β}
    (same : (before ++ a :: after).foldl step s = (before ++ a' :: after).foldl step s) : a = a' := by
  rw [List.foldl_append, List.foldl_append] at same
  exact lossless.input (lossless.foldl_state after same)

theorem foldl_set {s : σ} {inputs : List β} {i : Nat} {b : β} (same : (inputs.set i b).foldl step s = inputs.foldl step s) :
    inputs.set i b = inputs := by
  by_cases inside : i < inputs.length
  · obtain ⟨before, c, after, rfl, rfl⟩ := cut_at inside
    rw [set_cut] at same ⊢
    rw [lossless.foldl_input same]
  · exact List.set_eq_of_length_le (Nat.not_lt.mp inside)

theorem foldl_set_pair {s : σ} {inputs : List β} {i : Nat} {a b : β}
    (same : ((inputs.set i a).set (i + 1) b).foldl step s = inputs.foldl step s) : (inputs.set i a).set (i + 1) b = inputs := by
  by_cases inside : i + 1 < inputs.length
  · obtain ⟨before, c, after, rfl, rfl⟩ := cut_at (Nat.lt_of_succ_lt inside)
    cases after with
    | nil => simp at inside
    | cons d after =>
      rw [set_cut_pair] at same ⊢
      obtain ⟨first, second⟩ := lossless.foldl_pair same
      rw [first, second]
  · rw [List.set_eq_of_length_le (by rw [List.length_set]; omega)] at same ⊢
    exact lossless.foldl_set same

end Lossless

end Bursts
