import Mathlib.Algebra.Ring.Nat
import Mathlib.Data.List.Basic

namespace Hex

def alphabet : List Char := "0123456789abcdef".toList

def digit (n : Nat) : Char := alphabet.getD n '0'

/-- Two lower-case digits a byte, high half first. -/
def encode (bytes : List UInt8) : List Char := bytes.flatMap fun b => [digit (b.toNat / 16), digit (b.toNat % 16)]

@[simp] theorem encode_nil : encode [] = [] := rfl

@[simp] theorem encode_cons (b : UInt8) (bytes : List UInt8) :
    encode (b :: bytes) = digit (b.toNat / 16) :: digit (b.toNat % 16) :: encode bytes := rfl

@[simp] theorem encode_append (front back : List UInt8) : encode (front ++ back) = encode front ++ encode back :=
  List.flatMap_append

theorem encode_length (bytes : List UInt8) : (encode bytes).length = 2 * bytes.length := by
  induction bytes with
  | nil => rfl
  | cons b bytes ih =>
    rw [encode_cons, List.length_cons, List.length_cons, List.length_cons, ih]
    omega

theorem digit_injective : ∀ m < 16, ∀ n < 16, digit m = digit n → m = n := by decide

theorem digit_mem : ∀ n < 16, digit n ∈ alphabet := by decide

theorem high_lt (b : UInt8) : b.toNat / 16 < 16 := by
  have := b.toNat_lt
  omega

theorem low_lt (b : UInt8) : b.toNat % 16 < 16 := Nat.mod_lt _ (by decide)

theorem encode_mem {bytes : List UInt8} {c : Char} (member : c ∈ encode bytes) : c ∈ alphabet := by
  obtain ⟨b, -, here⟩ := List.mem_flatMap.mp member
  rcases List.mem_cons.mp here with rfl | last
  · exact digit_mem _ (high_lt b)
  · rw [List.mem_singleton.mp last]
    exact digit_mem _ (low_lt b)

theorem encode_injective : Function.Injective encode := by
  intro a
  induction a with
  | nil =>
    intro b same
    have empty := congrArg List.length same
    rw [encode_length, encode_length, List.length_nil] at empty
    exact (List.eq_nil_of_length_eq_zero (by omega)).symm
  | cons x a ih =>
    intro b same
    cases b with
    | nil => cases same
    | cons y b =>
      rw [encode_cons, encode_cons, List.cons.injEq, List.cons.injEq] at same
      have high := digit_injective _ (high_lt x) _ (high_lt y) same.1
      have low := digit_injective _ (low_lt x) _ (low_lt y) same.2.1
      have byte : x = y := by
        apply UInt8.toNat_inj.mp
        omega
      rw [byte, ih same.2.2]

end Hex
