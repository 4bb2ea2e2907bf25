import Mathlib.Data.List.Induction
import Mathlib.Algebra.Ring.Nat
import Mathlib.Logic.Function.Basic

namespace ByteString

/-- The number that bytes spell, most significant first. -/
def number (bytes : List UInt8) : Nat := bytes.foldl (fun value b => value * 256 + b.toNat) 0

/-- The low `width` bytes of a number, most significant first. -/
def digits (value : Nat) : Nat → List UInt8
  | 0 => []
  | width + 1 => digits (value / 256) width ++ [UInt8.ofNat value]

theorem number_concat (bytes : List UInt8) (b : UInt8) : number (bytes ++ [b]) = number bytes * 256 + b.toNat := by
  rw [number, List.foldl_append]
  rfl

theorem number_pair (high low : UInt8) : number [high, low] = high.toNat * 256 + low.toNat := by
  rw [← List.singleton_append, number_concat]
  simp [number]

@[simp] theorem digits_length (value width : Nat) : (digits value width).length = width := by
  induction width generalizing value with
  | zero => rfl
  | succ width ih => rw [digits, List.length_append, ih, List.length_singleton]

theorem number_digits (value width : Nat) : number (digits value width) = value % 256^width := by
  induction width generalizing value with
  | zero => simp [number, digits, Nat.mod_one]
  | succ width ih =>
    have byte : (UInt8.ofNat value).toNat = value % 256 := by simp
    rw [digits, number_concat, ih, byte, Nat.pow_succ, Nat.mul_comm (256^width) 256, Nat.mod_mul]
    omega

theorem number_digits_of_lt {value width : Nat} (fits : value < 256^width) : number (digits value width) = value := by
  rw [number_digits, Nat.mod_eq_of_lt fits]

theorem number_lt (bytes : List UInt8) : number bytes < 256^bytes.length := by
  induction bytes using List.reverseRecOn with
  | nil => decide
  | append_singleton bytes b ih =>
    rw [number_concat, List.length_append, List.length_singleton, Nat.pow_succ]
    have byte := b.toNat_lt
    omega

theorem digits_number (bytes : List UInt8) : digits (number bytes) bytes.length = bytes := by
  induction bytes using List.reverseRecOn with
  | nil => rfl
  | append_singleton bytes b ih =>
    have byte := b.toNat_lt
    have high : (number bytes * 256 + b.toNat) / 256 = number bytes := by omega
    have low : UInt8.ofNat (number bytes * 256 + b.toNat) = b := by
      apply UInt8.toNat_inj.mp
      rw [UInt8.toNat_ofNat']
      omega
    rw [number_concat, List.length_append, List.length_singleton, digits, high, ih, low]

section

variable {α β : Type*} {f : β → α → β}

/-- Turns that keep states apart keep them apart to the end. -/
theorem foldl_injective (keeps : ∀ x, Function.Injective fun s => f s x) (l : List α) :
    Function.Injective fun s => l.foldl f s := by
  induction l with
  | nil => exact fun _ _ same => same
  | cons x l ih => exact fun _ _ same => keeps x (ih same)

/-- Such a fold tells lists apart that differ in one entry. -/
theorem foldl_changed (keeps : ∀ x, Function.Injective fun s => f s x) {front back : List α} {x y : α} (start : β)
    (differ : ∀ s, f s x ≠ f s y) : (front ++ x :: back).foldl f start ≠ (front ++ y :: back).foldl f start := by
  rw [List.foldl_append, List.foldl_append, List.foldl_cons, List.foldl_cons]
  intro same
  exact differ _ (foldl_injective keeps back same)

end

/-- Byte strings of one length spell different numbers. -/
theorem number_injective {v w : List UInt8} (same : v.length = w.length) (numbers : number v = number w) : v = w := by
  rw [← digits_number v, numbers, same, digits_number]

/-- A fold whose turns keep states and bytes apart tells a string from every one with one byte changed. -/
theorem foldl_set_ne {β : Type*} {f : β → UInt8 × Nat → β} (keeps : ∀ x, Function.Injective fun s => f s x)
    (differ : ∀ s i b c, b ≠ c → f s (b, i) ≠ f s (c, i)) (start : β) {bytes : List UInt8} {i : Nat} {b : UInt8}
    (inside : i < bytes.length) (other : b ≠ bytes[i]) :
    (bytes.set i b).zipIdx.foldl f start ≠ bytes.zipIdx.foldl f start := by
  have split := List.take_append_drop i bytes
  rw [List.drop_eq_getElem_cons inside] at split
  have zipped : bytes.zipIdx = (bytes.take i ++ bytes[i] :: bytes.drop (i + 1)).zipIdx := congrArg List.zipIdx split.symm
  rw [zipped, List.set_eq_take_append_cons_drop, if_pos inside, List.zipIdx_append, List.zipIdx_append, List.zipIdx_cons,
    List.zipIdx_cons]
  exact foldl_changed keeps start fun s => differ s _ b bytes[i] other

/-- A string that ends in a sum of the bytes before does so no more when one byte is changed. -/
theorem sealed_changed {G : Type*} {sum read : List UInt8 → G} {n : Nat}
    (sums : ∀ (l : List UInt8) (i : Nat) (b : UInt8) (inside : i < l.length), b ≠ l[i] → sum (l.set i b) ≠ sum l)
    (reads : ∀ v w : List UInt8, v.length = n → w.length = n → read v = read w → v = w) {bytes : List UInt8}
    (long : n ≤ bytes.length) (closed : sum (bytes.take (bytes.length - n)) = read (bytes.drop (bytes.length - n)))
    {i : Nat} {b : UInt8} (inside : i < bytes.length) (other : b ≠ bytes[i]) :
    sum ((bytes.set i b).take (bytes.length - n)) ≠ read ((bytes.set i b).drop (bytes.length - n)) := by
  intro same
  rw [List.take_set, List.drop_set] at same
  by_cases covered : i < bytes.length - n
  · rw [if_pos covered] at same
    have inner : i < (bytes.take (bytes.length - n)).length := by
      rw [List.length_take]
      omega
    apply sums _ i b inner _ (same.trans closed.symm)
    rwa [List.getElem_take]
  · have unchanged : (bytes.take (bytes.length - n)).set i b = bytes.take (bytes.length - n) := by
      apply List.set_eq_of_length_le
      rw [List.length_take]
      omega
    rw [if_neg covered, unchanged] at same
    have width : (bytes.drop (bytes.length - n)).length = n := by
      rw [List.length_drop]
      omega
    have lists := reads _ _ (by rw [List.length_set, width]) width (same.symm.trans closed)
    have here : i - (bytes.length - n) < (bytes.drop (bytes.length - n)).length := by omega
    have entry := congrArg (fun l => l[i - (bytes.length - n)]?) lists
    have place : bytes.length - n + (i - (bytes.length - n)) = i := by omega
    simp only [List.getElem?_set_self here, List.getElem?_drop, place, List.getElem?_eq_getElem inside,
      Option.some.injEq] at entry
    exact other entry

end ByteString
