import Mathlib.Algebra.Ring.Nat
import Mathlib.Data.List.GetD

namespace Base64

def alphabet : List Char := "ABCDEFGHIJKLMNOPQRSTUVWXYZabcdefghijklmnopqrstuvwxyz0123456789+/".toList

def symbol (n : Nat) : Char := alphabet.getD n '='

/-- The code points of the alphabet, in its order. -/
def codes : List Nat := List.range' 65 26 ++ List.range' 97 26 ++ List.range' 48 10 ++ [43, 47]

theorem alphabet_codes : alphabet = codes.map Char.ofNat := by decide +kernel

theorem toNat_code : ∀ n ∈ codes, (Char.ofNat n).toNat = n := by decide

theorem code_mem : ∀ n < 64, codes.getD n 61 ∈ codes := by decide

theorem mem_alphabet (c : Char) : c ∈ alphabet ↔ c.toNat ∈ codes := by
  rw [alphabet_codes, List.mem_map]
  constructor
  · rintro ⟨n, member, rfl⟩
    rwa [toNat_code n member]
  · intro member
    exact ⟨c.toNat, member, Char.ofNat_toNat c⟩

theorem toNat_symbol {n : Nat} (small : n < 64) : (symbol n).toNat = codes.getD n 61 := by
  have spelled : symbol n = Char.ofNat (codes.getD n 61) := by
    rw [symbol, alphabet_codes]
    exact List.getD_map codes _ Char.ofNat
  rw [spelled, toNat_code _ (code_mem n small)]

/-- Six bits at a time, most significant first; zero bits fill up a last group of one or two bytes. -/
def sextets : List UInt8 → List Nat
  | a :: b :: c :: rest =>
    let group := (a.toNat * 256 + b.toNat) * 256 + c.toNat
    group / 64^3 :: group / 64^2 % 64 :: group / 64 % 64 :: group % 64 :: sextets rest
  | [a, b] =>
    let group := (a.toNat * 256 + b.toNat) * 4
    [group / 64^2, group / 64 % 64, group % 64]
  | [a] =>
    let group := a.toNat * 16
    [group / 64, group % 64]
  | [] => []

def encode (bytes : List UInt8) : List Char := (sextets bytes).map symbol

/-- The encoding filled up to whole groups of four. -/
def padded (bytes : List UInt8) : List Char := encode bytes ++ List.replicate ((3 - bytes.length % 3) % 3) '='

theorem sextets_lt (bytes : List UInt8) : ∀ n ∈ sextets bytes, n < 64 := by
  induction bytes using sextets.induct with
  | case1 a b c rest ih =>
    have := a.toNat_lt
    have := b.toNat_lt
    have := c.toNat_lt
    intro n member
    rw [sextets] at member
    simp only [List.mem_cons] at member
    rcases member with rfl | rfl | rfl | rfl | later
    · omega
    · omega
    · omega
    · omega
    · exact ih n later
  | case2 a b =>
    have := a.toNat_lt
    have := b.toNat_lt
    intro n member
    rw [sextets] at member
    simp only [List.mem_cons, List.not_mem_nil, or_false] at member
    omega
  | case3 a =>
    have := a.toNat_lt
    intro n member
    rw [sextets] at member
    simp only [List.mem_cons, List.not_mem_nil, or_false] at member
    omega
  | case4 => exact List.forall_mem_nil _

theorem symbol_mem (n : Nat) (small : n < 64) : symbol n ∈ alphabet := by
  rw [mem_alphabet, toNat_symbol small]
  exact code_mem n small

theorem encode_mem {bytes : List UInt8} {c : Char} (member : c ∈ encode bytes) : c ∈ alphabet := by
  obtain ⟨n, listed, rfl⟩ := List.mem_map.mp member
  exact symbol_mem n (sextets_lt bytes n listed)

end Base64
