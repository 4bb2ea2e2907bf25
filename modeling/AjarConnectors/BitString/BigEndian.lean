import Mathlib.Data.List.Induction
import Mathlib.Data.Nat.Bitwise

namespace BitString

/-- The number a bit string spells, most significant bit first. -/
def number (bits : List Bool) : Nat := bits.foldl (fun value bit => 2 * value + bit.toNat) 0

/-- The low `width` bits of a number, most significant bit first. -/
def digits (value width : Nat) : List Bool := (List.range width).reverse.map value.testBit

theorem number_concat (bits : List Bool) (bit : Bool) : number (bits ++ [bit]) = 2 * number bits + bit.toNat := by
  rw [number, List.foldl_append]
  rfl

@[simp] theorem digits_length (value width : Nat) : (digits value width).length = width := by simp [digits]

theorem digits_succ (value width : Nat) : digits value (width + 1) = digits (value / 2) width ++ [value.testBit 0] := by
  rw [digits, digits, List.range_succ_eq_map, List.reverse_cons, List.map_append, List.map_reverse, List.map_map,
    List.map_reverse]
  congr 3
  funext i
  exact Nat.testBit_succ value i

theorem number_digits (value width : Nat) : number (digits value width) = value % 2^width := by
  induction width generalizing value with
  | zero => rw [Nat.pow_zero, Nat.mod_one]; rfl
  | succ width ih =>
    rw [digits_succ, number_concat, ih, Nat.testBit_zero, Nat.pow_succ, Nat.mul_comm (2^width) 2, Nat.mod_mul]
    rcases Nat.mod_two_eq_zero_or_one value with low | low <;> simp [low, Nat.add_comm]

theorem number_lt (bits : List Bool) : number bits < 2^bits.length := by
  induction bits using List.reverseRecOn with
  | nil => decide
  | append_singleton bits bit ih =>
    rw [number_concat, List.length_append, List.length_singleton, Nat.pow_succ]
    have low := bit.toNat_le
    omega

theorem number_testBit (bits : List Bool) (i : Nat) (inside : i < bits.length) :
    (number bits).testBit (bits.length - 1 - i) = bits[i] := by
  induction bits using List.reverseRecOn with
  | nil => exact absurd inside (Nat.not_lt_zero i)
  | append_singleton bits bit ih =>
    rw [number_concat]
    rw [List.length_append, List.length_singleton] at inside
    by_cases last : i = bits.length
    · subst last
      rw [List.getElem_append_right (Nat.le_refl _)]
      simp only [List.length_append, List.length_singleton, Nat.add_sub_cancel, Nat.sub_self, List.getElem_cons_zero]
      rw [Nat.testBit_zero]
      cases bit <;> simp [Nat.add_mod]
    · have earlier : i < bits.length := by omega
      rw [List.getElem_append_left earlier, ← ih earlier]
      have place : (bits ++ [bit]).length - 1 - i = (bits.length - 1 - i) + 1 := by
        rw [List.length_append, List.length_singleton]
        omega
      rw [place, Nat.testBit_succ]
      congr 1
      have low := bit.toNat_le
      cases bit
      · simp
      · change (2 * number bits + 1) / 2 = number bits
        omega

/-- The top bit of a number of `width + 1` bits says whether it is in the upper half. -/
theorem testBit_top {value width : Nat} (small : value < 2^(width + 1)) : value.testBit width = decide (2^width ≤ value) := by
  rw [Nat.testBit_eq_decide_div_mod_eq]
  apply decide_eq_decide.mpr
  have quotient : value / 2^width < 2 := by
    apply Nat.div_lt_of_lt_mul
    rwa [Nat.mul_comm, ← Nat.pow_succ']
  rw [Nat.mod_eq_of_lt quotient]
  constructor
  · intro one
    by_contra below
    rw [Nat.div_eq_of_lt (by omega)] at one
    cases one
  · intro above
    have least : 1 ≤ value / 2^width := (Nat.le_div_iff_mul_le (Nat.two_pow_pos width)).mpr (by simpa using above)
    omega

end BitString
