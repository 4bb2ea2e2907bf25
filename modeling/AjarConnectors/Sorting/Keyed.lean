import Mathlib.Data.List.Sort
import Mathlib.Data.List.Chain
import Mathlib.Data.List.Nodup

namespace Keyed

variable {α κ : Type*}

def stableSort (less : α → α → Bool) (entries : List α) : List α :=
  entries.insertionSort fun a b => !(less b a)

def firstRepeat [DecidableEq κ] (key : α → κ) : List α → Option κ
  | a :: b :: rest => if key a = key b then some (key a) else firstRepeat key (b :: rest)
  | _ => none

/-- `less` compares two entries by a strict total order on their keys. -/
structure Compares (r : κ → κ → Prop) (key : α → κ) (less : α → α → Bool) : Prop where
  agrees : ∀ a b, less a b = true ↔ r (key a) (key b)
  trans : ∀ {x y z}, r x y → r y z → r x z
  irrefl : ∀ x, ¬ r x x
  total : ∀ x y, ¬ r x y → ¬ r y x → x = y

variable {r : κ → κ → Prop} {key : α → κ} {less : α → α → Bool}

theorem perm_stableSort (less : α → α → Bool) (entries : List α) : (stableSort less entries).Perm entries :=
  List.perm_insertionSort _ _

theorem Compares.le_trans (compares : Compares r key less) {a b c : α}
    (first : (!(less b a)) = true) (second : (!(less c b)) = true) : (!(less c a)) = true := by
  simp only [Bool.not_eq_true', Bool.eq_false_iff, ne_eq, compares.agrees] at *
  intro below
  by_cases same : r (key a) (key b)
  · exact second (compares.trans below same)
  · exact second (compares.total _ _ same first ▸ below)

theorem Compares.le_total (compares : Compares r key less) (a b : α) :
    (!(less b a)) = true ∨ (!(less a b)) = true := by
  simp only [Bool.not_eq_true', Bool.eq_false_iff, ne_eq, compares.agrees]
  by_cases below : r (key b) (key a)
  · exact Or.inr fun above => compares.irrefl _ (compares.trans below above)
  · exact Or.inl below

theorem Compares.sorted (compares : Compares r key less) (entries : List α) :
    (stableSort less entries).Pairwise fun a b => (!(less b a)) = true := by
  have total : Std.Total fun a b : α => (!(less b a)) = true := ⟨compares.le_total⟩
  have trans : IsTrans α fun a b => (!(less b a)) = true := ⟨fun _ _ _ => compares.le_trans⟩
  exact List.pairwise_insertionSort _ entries

theorem firstRepeat_eq_none_iff [DecidableEq κ] (entries : List α) :
    firstRepeat key entries = none ↔ entries.IsChain fun a b => key a ≠ key b := by
  induction entries with
  | nil => simp [firstRepeat]
  | cons a rest ih =>
    cases rest with
    | nil => simp [firstRepeat]
    | cons b rest =>
      rw [firstRepeat, List.isChain_cons_cons]
      split
      · rename_i same
        simp [same]
      · rename_i differ
        rw [ih]
        simp [differ]

/-- Sorted entries of which no neighbours share a key rise in it. -/
theorem Compares.rising [DecidableEq κ] (compares : Compares r key less) {entries : List α}
    (none : firstRepeat key (stableSort less entries) = none) :
    (stableSort less entries).Pairwise fun a b => r (key a) (key b) := by
  have differ := (firstRepeat_eq_none_iff _).mp none
  have rising : (stableSort less entries).IsChain fun a b => r (key a) (key b) := by
    rw [List.isChain_iff_forall_rel_of_append_cons_cons] at differ ⊢
    intro a b before after place
    have step := List.isChain_iff_forall_rel_of_append_cons_cons.mp (compares.sorted entries).isChain place
    simp only [Bool.not_eq_true', Bool.eq_false_iff, ne_eq, compares.agrees] at step
    by_contra notLess
    exact differ place (compares.total _ _ notLess step)
  have trans : IsTrans α fun a b => r (key a) (key b) := ⟨fun _ _ _ => compares.trans⟩
  exact rising.pairwise

/-- Once sorted, equal keys can only stand side by side. -/
theorem firstRepeat_stableSort [DecidableEq κ] (compares : Compares r key less) (entries : List α) :
    firstRepeat key (stableSort less entries) = none ↔ (entries.map key).Nodup := by
  rw [← ((perm_stableSort less entries).map key).nodup_iff, List.Nodup, List.pairwise_map]
  constructor
  · intro none
    apply (compares.rising none).imp
    intro a b below same
    rw [same] at below
    exact compares.irrefl _ below
  · intro distinct
    exact (firstRepeat_eq_none_iff _).mpr distinct.isChain

theorem perm_of_perm (less : α → α → Bool) {entries others : List α} (perm : entries.Perm others) :
    (stableSort less entries).Perm (stableSort less others) :=
  (perm_stableSort less entries).trans (perm.trans (perm_stableSort less others).symm)

/-- The keys come out in one order, however the entries went in. -/
theorem Compares.keys_of_perm (compares : Compares r key less) {entries others : List α} (perm : entries.Perm others) :
    (stableSort less entries).map key = (stableSort less others).map key := by
  have sorted : ∀ entries : List α, ((stableSort less entries).map key).Pairwise fun x y => ¬ r y x := by
    intro entries
    rw [List.pairwise_map]
    apply (compares.sorted entries).imp
    intro a b notLess
    rw [← compares.agrees, Bool.not_eq_true]
    simpa using notLess
  apply List.Perm.eq_of_pairwise _ (sorted entries) (sorted others) ((perm_of_perm less perm).map key)
  intro x y _ _ above below
  exact compares.total x y below above

theorem firstRepeat_map [DecidableEq κ] (entries : List α) : firstRepeat key entries = firstRepeat id (entries.map key) := by
  induction entries with
  | nil => rfl
  | cons a rest ih =>
    cases rest with
    | nil => rfl
    | cons b rest =>
      rw [firstRepeat, List.map_cons, List.map_cons, firstRepeat, ih, List.map_cons]
      rfl

theorem Compares.firstRepeat_of_perm [DecidableEq κ] (compares : Compares r key less) {entries others : List α}
    (perm : entries.Perm others) :
    firstRepeat key (stableSort less entries) = firstRepeat key (stableSort less others) := by
  rw [firstRepeat_map, compares.keys_of_perm perm, ← firstRepeat_map]

/-- Without a repeated key the order the entries went in is lost. -/
theorem Compares.stableSort_of_perm [DecidableEq κ] (compares : Compares r key less) {entries others : List α}
    (perm : entries.Perm others) (none : firstRepeat key (stableSort less entries) = none) :
    stableSort less entries = stableSort less others := by
  have none' := none
  rw [compares.firstRepeat_of_perm perm] at none'
  apply List.Perm.eq_of_pairwise _ (compares.rising none) (compares.rising none') (perm_of_perm less perm)
  intro a b _ _ below above
  exact absurd (compares.trans below above) (compares.irrefl _)

end Keyed
