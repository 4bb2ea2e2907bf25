import AjarConnectors.Utf8.Decode

namespace Utf8

/-- Stands for bytes that are not UTF-8. -/
def replacement : Char := Char.ofNat 0xfffd

/-- The first two bytes of a sequence of three or of four, of which no completion need be there. -/
def startsThree (b0 b1 : UInt8) : Bool :=
  isContinuation b1 && (b0.toNat == 0xe0 && 0xa0 ≤ b1.toNat || 0xe1 ≤ b0.toNat && b0.toNat ≤ 0xec ||
    b0.toNat == 0xed && b1.toNat < 0xa0 || b0.toNat == 0xee || b0.toNat == 0xef)

def startsFour (b0 b1 : UInt8) : Bool :=
  isContinuation b1 && (b0.toNat == 0xf0 && 0x90 ≤ b1.toNat || 0xf1 ≤ b0.toNat && b0.toNat ≤ 0xf3 ||
    b0.toNat == 0xf4 && b1.toNat < 0x90)

/-- The text of any bytes: each longest part that could have begun a character gives one replacement. -/
def decodeLossy : List UInt8 → List Char
  | [] => []
  | b0 :: rest =>
    if b0.toNat < 0x80 then Char.ofNat b0.toNat :: decodeLossy rest
    else match rest with
      | [] => [replacement]
      | b1 :: rest' =>
        if isTwo b0 b1 then Char.ofNat (joinBits (b0.toNat % 32) [b1]) :: decodeLossy rest'
        else if startsThree b0 b1 then
          match rest' with
          | [] => [replacement]
          | b2 :: rest'' =>
            if isContinuation b2 then Char.ofNat (joinBits (b0.toNat % 16) [b1, b2]) :: decodeLossy rest''
            else replacement :: decodeLossy (b2 :: rest'')
        else if startsFour b0 b1 then
          match rest' with
          | [] => [replacement]
          | b2 :: rest'' =>
            if isContinuation b2 then
              match rest'' with
              | [] => [replacement]
              | b3 :: rest''' =>
                if isContinuation b3 then Char.ofNat (joinBits (b0.toNat % 8) [b1, b2, b3]) :: decodeLossy rest'''
                else replacement :: decodeLossy (b3 :: rest''')
            else replacement :: decodeLossy (b2 :: rest'')
        else replacement :: decodeLossy (b1 :: rest')

theorem three_starts {b0 b1 b2 : UInt8} (three : isThree b0 b1 b2 = true) :
    0xe0 ≤ b0.toNat ∧ startsThree b0 b1 = true ∧ isContinuation b2 = true := by
  simp only [isThree, isContinuation, Bool.and_eq_true, decide_eq_true_eq] at three
  simp only [joinBits, Nat.isValidChar, List.foldl_cons, List.foldl_nil] at three
  simp only [startsThree, isContinuation, Bool.and_eq_true, Bool.or_eq_true, beq_iff_eq, decide_eq_true_eq]
  omega

theorem four_starts {b0 b1 b2 b3 : UInt8} (four : isFour b0 b1 b2 b3 = true) :
    0xf0 ≤ b0.toNat ∧ startsFour b0 b1 = true ∧ isContinuation b2 = true ∧ isContinuation b3 = true := by
  simp only [isFour, isContinuation, Bool.and_eq_true, decide_eq_true_eq] at four
  simp only [joinBits, Nat.isValidChar, List.foldl_cons, List.foldl_nil] at four
  simp only [startsFour, isContinuation, Bool.and_eq_true, Bool.or_eq_true, beq_iff_eq, decide_eq_true_eq]
  omega

theorem not_startsThree {b0 b1 : UInt8} (long : 0xf0 ≤ b0.toNat) : startsThree b0 b1 = false := by
  simp only [startsThree, Bool.and_eq_false_iff, Bool.or_eq_false_iff, beq_eq_false_iff_ne, decide_eq_false_iff_not]
  omega

theorem decodeLossy_of_decode {bytes : List UInt8} {text : List Char} (found : decode bytes = some text) :
    decodeLossy bytes = text := by
  fun_induction decode bytes generalizing text with
  | case1 =>
    cases found
    rfl
  | case2 b0 rest small ih =>
    rcases Option.map_eq_some_iff.mp found with ⟨later, decoded, rfl⟩
    rw [decodeLossy.eq_def]
    dsimp only
    rw [if_pos small, ih decoded]
  | case3 => cases found
  | case4 b0 big b1 rest two ih =>
    rcases Option.map_eq_some_iff.mp found with ⟨later, decoded, rfl⟩
    rw [decodeLossy.eq_def]
    dsimp only
    rw [if_neg big, if_pos two, ih decoded]
  | case5 => cases found
  | case6 b0 big b1 two b2 rest three ih =>
    rcases Option.map_eq_some_iff.mp found with ⟨later, decoded, rfl⟩
    obtain ⟨_, starts, continues⟩ := three_starts three
    rw [decodeLossy.eq_def]
    dsimp only
    rw [if_neg big, if_neg two, if_pos starts, if_pos continues, ih decoded]
  | case7 => cases found
  | case8 b0 big b1 two b2 three b3 rest four ih =>
    rcases Option.map_eq_some_iff.mp found with ⟨later, decoded, rfl⟩
    obtain ⟨long, starts, second, third⟩ := four_starts four
    have notThree : ¬ startsThree b0 b1 = true := by rw [not_startsThree long]; exact Bool.false_ne_true
    rw [decodeLossy.eq_def]
    dsimp only
    rw [if_neg big, if_neg two, if_neg notThree, if_pos starts, if_pos second, if_pos third, ih decoded]
  | case9 => cases found

example : decodeLossy [0x48, 0xf0, 0x90, 0x80, 0x57, 0xe2, 0x82] = ['H', replacement, 'W', replacement] := by decide

end Utf8
