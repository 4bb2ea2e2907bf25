import Mathlib.Data.List.Basic
import Mathlib.Data.List.Induction

namespace HashChain

variable {D X : Type*} (link : D → X → D)

def final (first : D) (xs : List X) : D := xs.foldl link first

def uses : D → List X → List (D × X)
  | _, [] => []
  | first, x :: xs => (first, x) :: uses (link first x) xs

/-- Among the pairs used no two collide, and none hashes to the start of the chain. -/
structure Binding (first : D) (used : List (D × X)) : Prop where
  injective : ∀ a ∈ used, ∀ b ∈ used, link a.1 a.2 = link b.1 b.2 → a = b
  fresh : ∀ a ∈ used, link a.1 a.2 ≠ first

variable {link}

theorem Binding.mono {first : D} {used fewer : List (D × X)} (binding : Binding link first used)
    (subset : ∀ a ∈ fewer, a ∈ used) : Binding link first fewer :=
  ⟨fun a memA b memB => binding.injective a (subset a memA) b (subset b memB),
    fun a member => binding.fresh a (subset a member)⟩

theorem final_append (first : D) (xs ys : List X) : final link first (xs ++ ys) = final link (final link first xs) ys :=
  List.foldl_append

theorem uses_append (first : D) (xs ys : List X) :
    uses link first (xs ++ ys) = uses link first xs ++ uses link (final link first xs) ys := by
  induction xs generalizing first with
  | nil => rfl
  | cons x xs ih => simp only [List.cons_append, uses, ih, final, List.foldl_cons]

/-- The head commits to everything taken in: a chain cannot be a shorter one's continuation without
    hashing to the start, nor differ anywhere without a collision. -/
theorem eq_of_final_eq {first : D} {xs ys : List X}
    (binding : Binding link first (uses link first xs ++ uses link first ys))
    (same : final link first xs = final link first ys) : xs = ys := by
  induction xs using List.reverseRecOn generalizing ys with
  | nil =>
    rcases ys.eq_nil_or_concat' with rfl | ⟨zs, z, rfl⟩
    · rfl
    · rw [final_append] at same
      apply absurd same.symm
      apply binding.fresh (final link first zs, z)
      rw [uses_append]
      simp [uses]
  | append_singleton xs x ih =>
    rcases ys.eq_nil_or_concat' with rfl | ⟨zs, z, rfl⟩
    · rw [final_append] at same
      apply absurd same
      apply binding.fresh (final link first xs, x)
      rw [uses_append]
      simp [uses]
    · rw [final_append, final_append] at same
      have last := binding.injective (final link first xs, x) (by simp [uses_append, uses])
        (final link first zs, z) (by simp [uses_append, uses]) same
      rw [Prod.mk.injEq] at last
      have front := ih (binding.mono fun a member => by
        rw [uses_append, uses_append]
        simp only [List.mem_append] at member ⊢
        exact member.elim (fun left => .inl (.inl left)) (fun right => .inr (.inl right))) last.1
      rw [front, last.2]

end HashChain
