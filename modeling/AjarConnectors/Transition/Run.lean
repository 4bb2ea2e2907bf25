import Mathlib.Data.List.Basic

namespace Transition

variable {σ ι : Type*} (step : σ → ι → σ) (ok : σ → ι → Prop)

/-- Every input of a run meets `ok` in the state it arrives in. -/
def Allowed : σ → List ι → Prop
  | _, [] => True
  | s, input :: inputs => ok s input ∧ Allowed (step s input) inputs

instance Allowed.decidable [∀ s input, Decidable (ok s input)] (s : σ) (inputs : List ι) :
    Decidable (Allowed step ok s inputs) :=
  match inputs with
  | [] => isTrue trivial
  | input :: inputs =>
    have := Allowed.decidable (step s input) inputs
    inferInstanceAs (Decidable (ok s input ∧ Allowed step ok (step s input) inputs))

variable {step ok}

theorem Allowed.mono {ok' : σ → ι → Prop} (weaker : ∀ s input, ok s input → ok' s input) {s : σ}
    {inputs : List ι} (allowed : Allowed step ok s inputs) : Allowed step ok' s inputs := by
  induction inputs generalizing s with
  | nil => trivial
  | cons input inputs ih => exact ⟨weaker s input allowed.1, ih allowed.2⟩

theorem Allowed.append_iff {s : σ} {inputs more : List ι} :
    Allowed step ok s (inputs ++ more) ↔ Allowed step ok s inputs ∧ Allowed step ok (inputs.foldl step s) more := by
  induction inputs generalizing s with
  | nil => exact (iff_of_eq (true_and _)).symm
  | cons input inputs ih =>
    rw [List.cons_append, Allowed, Allowed, List.foldl_cons, ih, and_assoc]

theorem Allowed.of_forall {s : σ} {inputs : List ι} (all : ∀ s, ∀ input ∈ inputs, ok s input) :
    Allowed step ok s inputs := by
  induction inputs generalizing s with
  | nil => trivial
  | cons input inputs ih =>
    exact ⟨all s input (by simp), ih fun s input member => all s input (List.mem_cons_of_mem _ member)⟩

/-- A statement about the inputs so far and the state, kept by every allowed step, holds after
    every allowed run. -/
theorem invariant_of_past (inv : List ι → σ → Prop)
    (preserved : ∀ past s input, inv past s → ok s input → inv (past ++ [input]) (step s input))
    {s : σ} {past inputs : List ι} (initial : inv past s) (allowed : Allowed step ok s inputs) :
    inv (past ++ inputs) (inputs.foldl step s) := by
  induction inputs generalizing s past with
  | nil => simpa using initial
  | cons input inputs ih =>
    have next := ih (preserved past s input initial allowed.1) allowed.2
    rwa [List.append_assoc] at next

theorem invariant (inv : σ → Prop) (preserved : ∀ s input, inv s → ok s input → inv (step s input))
    {s : σ} {inputs : List ι} (initial : inv s) (allowed : Allowed step ok s inputs) : inv (inputs.foldl step s) := by
  induction inputs generalizing s with
  | nil => exact initial
  | cons input inputs ih => exact ih (preserved s input initial allowed.1) allowed.2

theorem always (inv : σ → Prop) (preserved : ∀ s input, inv s → inv (step s input)) {s : σ} (inputs : List ι)
    (initial : inv s) : inv (inputs.foldl step s) := by
  induction inputs generalizing s with
  | nil => exact initial
  | cons input inputs ih => exact ih (preserved s input initial)

end Transition
