import AjarConnectors.Utf8.Order

namespace Utf8

def isContinuation (b : UInt8) : Bool := 0x80 ≤ b.toNat && b.toNat < 0xc0

/-- The code point of a lead byte and its continuation bytes, six bits each. -/
def joinBits (lead : Nat) (continuations : List UInt8) : Nat :=
  continuations.foldl (fun value b => value * 64 + b.toNat % 64) lead

/-- Sequences of two, three and four bytes; overlong ones and surrogates are invalid. -/
def isTwo (b0 b1 : UInt8) : Bool := 0xc2 ≤ b0.toNat && b0.toNat < 0xe0 && isContinuation b1

def isThree (b0 b1 b2 : UInt8) : Bool :=
  0xe0 ≤ b0.toNat && b0.toNat < 0xf0 && isContinuation b1 && isContinuation b2 &&
    (joinBits (b0.toNat % 16) [b1, b2] ≥ 0x800) && Nat.isValidChar (joinBits (b0.toNat % 16) [b1, b2])

def isFour (b0 b1 b2 b3 : UInt8) : Bool :=
  0xf0 ≤ b0.toNat && b0.toNat < 0xf8 && isContinuation b1 && isContinuation b2 && isContinuation b3 &&
    (joinBits (b0.toNat % 8) [b1, b2, b3] ≥ 0x10000) && Nat.isValidChar (joinBits (b0.toNat % 8) [b1, b2, b3])

/-- The text of a list of bytes, if they are valid UTF-8. -/
def decode : List UInt8 → Option (List Char)
  | [] => some []
  | b0 :: rest =>
    if b0.toNat < 0x80 then (decode rest).map fun text => Char.ofNat b0.toNat :: text
    else match rest with
      | [] => none
      | b1 :: rest =>
        if isTwo b0 b1 then (decode rest).map fun text => Char.ofNat (joinBits (b0.toNat % 32) [b1]) :: text
        else match rest with
          | [] => none
          | b2 :: rest =>
            if isThree b0 b1 b2 then (decode rest).map fun text => Char.ofNat (joinBits (b0.toNat % 16) [b1, b2]) :: text
            else match rest with
              | [] => none
              | b3 :: rest =>
                if isFour b0 b1 b2 b3 then
                  (decode rest).map fun text => Char.ofNat (joinBits (b0.toNat % 8) [b1, b2, b3]) :: text
                else none

def ascii (bytes : List UInt8) : List Char := bytes.map fun b => Char.ofNat b.toNat

theorem decode_ascii_cons {b : UInt8} (small : b.toNat < 0x80) (rest : List UInt8) :
    decode (b :: rest) = (decode rest).map fun text => Char.ofNat b.toNat :: text := by
  rw [decode.eq_def]
  exact if_pos small

theorem decode_ascii_append {front : List UInt8} (small : ∀ b ∈ front, b.toNat < 0x80) (rest : List UInt8) :
    decode (front ++ rest) = (decode rest).map fun text => ascii front ++ text := by
  induction front with
  | nil => simp [ascii]
  | cons b front ih =>
    rw [List.cons_append, decode_ascii_cons (small b List.mem_cons_self),
      ih fun c member => small c (List.mem_cons_of_mem _ member), Option.map_map]
    rfl

theorem decode_ascii {bytes : List UInt8} (small : ∀ b ∈ bytes, b.toNat < 0x80) : decode bytes = some (ascii bytes) := by
  have whole := decode_ascii_append small []
  rw [List.append_nil] at whole
  rw [whole]
  simp [decode]

/-- Only no bytes read as no text. -/
theorem decode_eq_nil {bytes : List UInt8} (found : decode bytes = some []) : bytes = [] := by
  have filled : ∀ {c : Char} {rest : List UInt8}, (decode rest).map (fun text => c :: text) ≠ some [] := by
    intro c rest same
    rcases Option.map_eq_some_iff.mp same with ⟨text, _, none⟩
    cases none
  revert found
  fun_cases decode bytes with
  | case1 => exact fun _ => rfl
  | case2 => exact fun found => absurd found filled
  | case3 => exact fun found => nomatch found
  | case4 => exact fun found => absurd found filled
  | case5 => exact fun found => nomatch found
  | case6 => exact fun found => absurd found filled
  | case7 => exact fun found => nomatch found
  | case8 => exact fun found => absurd found filled
  | case9 => exact fun found => nomatch found

/-- Text followed by more bytes reads as the text followed by theirs. -/
theorem decode_append {front : List UInt8} {text : List Char} (found : decode front = some text) (rest : List UInt8) :
    decode (front ++ rest) = (decode rest).map fun later => text ++ later := by
  fun_induction decode front generalizing text with
  | case1 =>
    cases found
    simp
  | case2 b0 later small ih =>
    rcases Option.map_eq_some_iff.mp found with ⟨inner, same, rfl⟩
    rw [List.cons_append, decode_ascii_cons small, ih same, Option.map_map]
    rfl
  | case3 => cases found
  | case4 b0 big b1 later two ih =>
    rcases Option.map_eq_some_iff.mp found with ⟨inner, same, rfl⟩
    rw [List.cons_append, List.cons_append, decode.eq_def]
    dsimp only
    rw [if_neg big, if_pos two, ih same, Option.map_map]
    rfl
  | case5 => cases found
  | case6 b0 big b1 two b2 later three ih =>
    rcases Option.map_eq_some_iff.mp found with ⟨inner, same, rfl⟩
    rw [List.cons_append, List.cons_append, List.cons_append, decode.eq_def]
    dsimp only
    rw [if_neg big, if_neg two, if_pos three, ih same, Option.map_map]
    rfl
  | case7 => cases found
  | case8 b0 big b1 two b2 three b3 later four ih =>
    rcases Option.map_eq_some_iff.mp found with ⟨inner, same, rfl⟩
    rw [List.cons_append, List.cons_append, List.cons_append, List.cons_append, decode.eq_def]
    dsimp only
    rw [if_neg big, if_neg two, if_neg three, if_pos four, ih same, Option.map_map]
    rfl
  | case9 => cases found

end Utf8
