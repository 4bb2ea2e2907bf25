import Mathlib.Data.List.Lex
import Mathlib.Data.List.Sort

namespace LexCode

variable {α β κ : Type*}

/-- The first place where two words differ decides them: neither is a prefix of the other. -/
def Before (s : β → β → Prop) (first second : List β) : Prop :=
  ∃ common x y rest others, first = common ++ x :: rest ∧ second = common ++ y :: others ∧ s x y

theorem before_cons_iff {s : β → β → Prop} {x y : β} {first second : List β} :
    Before s (x :: first) (y :: second) ↔ s x y ∨ (x = y ∧ Before s first second) := by
  constructor
  · intro less
    rcases less with ⟨common, a, b, rest, others, left, right, less⟩
    cases common with
    | nil =>
      rw [List.nil_append, List.cons.injEq] at left right
      rw [left.1, right.1]
      exact Or.inl less
    | cons c common =>
      rw [List.cons_append, List.cons.injEq] at left right
      exact Or.inr ⟨left.1.trans right.1.symm, common, a, b, rest, others, left.2, right.2, less⟩
  · intro either
    rcases either with less | ⟨rfl, common, a, b, rest, others, rfl, rfl, less⟩
    · exact ⟨[], x, y, first, second, rfl, rfl, less⟩
    · exact ⟨x :: common, a, b, rest, others, rfl, rfl, less⟩

theorem not_before_nil {s : β → β → Prop} {second : List β} : ¬ Before s [] second := by
  intro less
  rcases less with ⟨common, a, b, rest, others, left, _, _⟩
  simp at left

theorem lex_of_before {s : β → β → Prop} {first second : List β} (less : Before s first second)
    (more others : List β) : List.Lex s (first ++ more) (second ++ others) := by
  rcases less with ⟨common, a, b, rest, tail, rfl, rfl, less⟩
  rw [List.append_assoc, List.append_assoc]
  exact List.Lex.append_left s (List.Lex.rel less) common

theorem lex_flatMap {r : α → α → Prop} {s : β → β → Prop} {code : α → List β}
    (ordered : ∀ a b, r a b → Before s (code a) (code b)) (nonempty : ∀ a, code a ≠ [])
    {xs ys : List α} (less : List.Lex r xs ys) : List.Lex s (xs.flatMap code) (ys.flatMap code) := by
  induction less with
  | @nil y ys =>
    rw [List.flatMap_cons]
    cases shape : code y with
    | nil => exact absurd shape (nonempty y)
    | cons b rest => exact List.Lex.nil
  | rel less =>
    rw [List.flatMap_cons, List.flatMap_cons]
    exact lex_of_before (ordered _ _ less) _ _
  | @cons a xs ys _ ih =>
    rw [List.flatMap_cons, List.flatMap_cons]
    exact List.Lex.append_left s ih (code a)

theorem lex_flatMap_iff {r : α → α → Prop} {s : β → β → Prop} [Std.Trichotomous r] [Std.Asymm s]
    {code : α → List β} (ordered : ∀ a b, r a b → Before s (code a) (code b))
    (nonempty : ∀ a, code a ≠ []) (xs ys : List α) :
    List.Lex s (xs.flatMap code) (ys.flatMap code) ↔ List.Lex r xs ys := by
  constructor
  · intro less
    by_contra notLess
    have swapped : xs = ys ∨ List.Lex r ys xs := by
      by_contra neither
      rw [not_or] at neither
      exact neither.1 (Std.Trichotomous.trichotomous (r := List.Lex r) xs ys notLess neither.2)
    rcases swapped with rfl | greater
    · exact Std.Asymm.asymm (r := List.Lex s) _ _ less less
    · exact Std.Asymm.asymm (r := List.Lex s) _ _ less (lex_flatMap ordered nonempty greater)
  · exact lex_flatMap ordered nonempty

end LexCode

namespace Utf8

open LexCode

def codePoints (text : String) : List Nat := text.toList.map Char.toNat

def encode (c : Char) : List Nat := (String.utf8EncodeChar c).map UInt8.toNat

/-- The UTF-8 encoding of a text, each byte as an unsigned number. -/
def bytes (text : String) : List Nat := text.toList.flatMap encode

theorem encode_one {c : Char} (size : c.toNat < 0x80) : encode c = [c.toNat] := by
  unfold encode String.utf8EncodeChar
  rw [if_pos (show c.val.toNat ≤ 0x7f from by change c.toNat ≤ 0x7f; omega)]
  simp only [List.map_cons, List.map_nil, UInt8.toNat_ofNat']
  rw [Nat.mod_eq_of_lt (show c.val.toNat < 2 ^ 8 from by change c.toNat < 256; omega)]
  rfl

theorem encode_two {c : Char} (low : 0x80 ≤ c.toNat) (high : c.toNat < 0x800) :
    encode c = [0xc0 + c.toNat / 64, 0x80 + c.toNat % 64] := by
  unfold encode String.utf8EncodeChar
  change List.map _ (if c.toNat ≤ 0x7f then _ else if c.toNat ≤ 0x7ff then _ else _) = _
  rw [if_neg (by omega), if_pos (by omega)]
  simp only [List.map_cons, List.map_nil, UInt8.toNat_ofNat', List.cons.injEq, and_true]
  change (c.toNat / 64 % 0x20 + 0xc0) % 2 ^ 8 = _ ∧ (c.toNat % 0x40 + 0x80) % 2 ^ 8 = _
  omega

theorem encode_three {c : Char} (low : 0x800 ≤ c.toNat) (high : c.toNat < 0x10000) :
    encode c = [0xe0 + c.toNat / 4096, 0x80 + c.toNat / 64 % 64, 0x80 + c.toNat % 64] := by
  unfold encode String.utf8EncodeChar
  change List.map _ (if c.toNat ≤ 0x7f then _ else if c.toNat ≤ 0x7ff then _ else
    if c.toNat ≤ 0xffff then _ else _) = _
  rw [if_neg (by omega), if_neg (by omega), if_pos (by omega)]
  simp only [List.map_cons, List.map_nil, UInt8.toNat_ofNat', List.cons.injEq, and_true]
  change (c.toNat / 4096 % 0x10 + 0xe0) % 2 ^ 8 = _ ∧ (c.toNat / 64 % 0x40 + 0x80) % 2 ^ 8 = _ ∧
    (c.toNat % 0x40 + 0x80) % 2 ^ 8 = _
  omega

theorem toNat_lt (c : Char) : c.toNat < 0x110000 := by
  rcases c.valid with small | large
  · change c.toNat < 0xd800 at small
    omega
  · exact large.2

theorem encode_four {c : Char} (low : 0x10000 ≤ c.toNat) :
    encode c = [0xf0 + c.toNat / 262144, 0x80 + c.toNat / 4096 % 64, 0x80 + c.toNat / 64 % 64,
      0x80 + c.toNat % 64] := by
  have high := toNat_lt c
  unfold encode String.utf8EncodeChar
  change List.map _ (if c.toNat ≤ 0x7f then _ else if c.toNat ≤ 0x7ff then _ else
    if c.toNat ≤ 0xffff then _ else _) = _
  rw [if_neg (by omega), if_neg (by omega), if_neg (by omega)]
  simp only [List.map_cons, List.map_nil, UInt8.toNat_ofNat', List.cons.injEq, and_true]
  change (c.toNat / 262144 % 0x08 + 0xf0) % 2 ^ 8 = _ ∧ (c.toNat / 4096 % 0x40 + 0x80) % 2 ^ 8 = _ ∧
    (c.toNat / 64 % 0x40 + 0x80) % 2 ^ 8 = _ ∧ (c.toNat % 0x40 + 0x80) % 2 ^ 8 = _
  omega

/-- One of four shapes, by the range the code point lies in. -/
theorem encode_cases (c : Char) :
    (c.toNat < 0x80 ∧ encode c = [c.toNat]) ∨
    (0x80 ≤ c.toNat ∧ c.toNat < 0x800 ∧ encode c = [0xc0 + c.toNat / 64, 0x80 + c.toNat % 64]) ∨
    (0x800 ≤ c.toNat ∧ c.toNat < 0x10000 ∧
      encode c = [0xe0 + c.toNat / 4096, 0x80 + c.toNat / 64 % 64, 0x80 + c.toNat % 64]) ∨
    (0x10000 ≤ c.toNat ∧ c.toNat < 0x110000 ∧
      encode c = [0xf0 + c.toNat / 262144, 0x80 + c.toNat / 4096 % 64, 0x80 + c.toNat / 64 % 64,
        0x80 + c.toNat % 64]) := by
  by_cases one : c.toNat < 0x80
  · exact Or.inl ⟨one, encode_one one⟩
  by_cases two : c.toNat < 0x800
  · exact Or.inr (Or.inl ⟨by omega, two, encode_two (by omega) two⟩)
  by_cases three : c.toNat < 0x10000
  · exact Or.inr (Or.inr (Or.inl ⟨by omega, three, encode_three (by omega) three⟩))
  · exact Or.inr (Or.inr (Or.inr ⟨by omega, toNat_lt c, encode_four (by omega)⟩))

theorem encode_before (a b : Char) (less : a.toNat < b.toNat) : Before (· < ·) (encode a) (encode b) := by
  rcases encode_cases a with ⟨_, first⟩ | ⟨_, _, first⟩ | ⟨_, _, first⟩ | ⟨_, _, first⟩ <;>
    rcases encode_cases b with ⟨_, second⟩ | ⟨_, _, second⟩ | ⟨_, _, second⟩ | ⟨_, _, second⟩ <;>
    -- the leading bytes separate the classes, and inside a class the digits are compared in turn
    simp only [first, second, before_cons_iff, not_before_nil, and_false, or_false] <;> omega

theorem encode_ne_nil (c : Char) : encode c ≠ [] := by
  rcases encode_cases c with ⟨_, same⟩ | ⟨_, _, same⟩ | ⟨_, _, same⟩ | ⟨_, _, same⟩ <;> simp [same]

theorem codePoint_lt_trichotomous (a b : Char) (notLess : ¬ a.toNat < b.toNat) (notGreater : ¬ b.toNat < a.toNat) :
    a = b := Char.toNat_inj.mp (by omega)

instance codePointTrichotomous : Std.Trichotomous fun a b : Char => a.toNat < b.toNat := ⟨codePoint_lt_trichotomous⟩

theorem lex_codePoints (first second : String) :
    List.Lex (· < ·) (codePoints first) (codePoints second) ↔
      List.Lex (fun a b => a.toNat < b.toNat) first.toList second.toList := by
  have single : ∀ text : String, codePoints text = text.toList.flatMap fun c => [c.toNat] := by
    intro text
    exact List.map_eq_flatMap
  rw [single, single]
  apply lex_flatMap_iff
  · intro a b less
    exact before_cons_iff.mpr (Or.inl less)
  · intro a
    exact List.cons_ne_nil _ _

/-- UTF-8 preserves the order of code points, in both directions. -/
theorem lex_bytes_iff (first second : String) :
    List.Lex (· < ·) (bytes first) (bytes second) ↔
      List.Lex (· < ·) (codePoints first) (codePoints second) := by
  rw [lex_codePoints]
  exact lex_flatMap_iff encode_before encode_ne_nil first.toList second.toList

theorem codePoints_injective : Function.Injective codePoints := by
  intro first second same
  rw [← String.toList_inj]
  exact List.map_injective_iff.mpr (fun a b eq => Char.toNat_inj.mp eq) same

theorem bytes_of_ascii {text : String} (small : ∀ c ∈ text.toList, c.toNat < 0x80) : bytes text = codePoints text := by
  unfold bytes codePoints
  revert small
  induction text.toList with
  | nil => exact fun _ => rfl
  | cons c rest ih =>
    intro small
    rw [List.flatMap_cons, List.map_cons, encode_one (small c List.mem_cons_self),
      ih fun d member => small d (List.mem_cons_of_mem c member)]
    rfl

/-- A character outside ASCII shows in the bytes. -/
theorem ascii_of_bytes {text : String} (small : ∀ b ∈ bytes text, b < 0x80) : ∀ c ∈ text.toList, c.toNat < 0x80 := by
  intro c member
  have inside : ∀ b ∈ encode c, b < 0x80 := fun b found => small b (List.mem_flatMap.mpr ⟨c, member, found⟩)
  rcases encode_cases c with ⟨ascii, _⟩ | ⟨_, _, code⟩ | ⟨_, _, code⟩ | ⟨_, _, code⟩
  · exact ascii
  · have lead := inside _ (code ▸ List.mem_cons_self)
    omega
  · have lead := inside _ (code ▸ List.mem_cons_self)
    omega
  · have lead := inside _ (code ▸ List.mem_cons_self)
    omega

/-- ASCII bytes are one text only. -/
theorem bytes_eq_ascii_iff {text : String} {chars : List Char} (small : ∀ c ∈ chars, c.toNat < 0x80) :
    bytes text = chars.map Char.toNat ↔ text.toList = chars := by
  constructor
  · intro same
    have ascii : ∀ c ∈ text.toList, c.toNat < 0x80 := by
      apply ascii_of_bytes
      rw [same]
      intro b member
      obtain ⟨c, inside, rfl⟩ := List.mem_map.mp member
      exact small c inside
    rw [bytes_of_ascii ascii] at same
    exact List.map_injective_iff.mpr (fun a b eq => Char.toNat_inj.mp eq) same
  · intro same
    rw [bytes_of_ascii (same ▸ small), codePoints, same]

end Utf8
