import AjarConnectors.Utf8.Decode

namespace Utf8

def encodeText (text : List Char) : List UInt8 := text.flatMap String.utf8EncodeChar

theorem map_toNat_two {bytes : List UInt8} {a b : Nat} (same : bytes.map UInt8.toNat = [a, b]) :
    ∃ x y, bytes = [x, y] ∧ x.toNat = a ∧ y.toNat = b := by
  match bytes, same with
  | [x, y], same =>
    simp only [List.map_cons, List.map_nil, List.cons.injEq, and_true] at same
    exact ⟨x, y, rfl, same.1, same.2⟩

theorem map_toNat_three {bytes : List UInt8} {a b c : Nat} (same : bytes.map UInt8.toNat = [a, b, c]) :
    ∃ x y z, bytes = [x, y, z] ∧ x.toNat = a ∧ y.toNat = b ∧ z.toNat = c := by
  match bytes, same with
  | [x, y, z], same =>
    simp only [List.map_cons, List.map_nil, List.cons.injEq, and_true] at same
    exact ⟨x, y, z, rfl, same.1, same.2.1, same.2.2⟩

theorem map_toNat_four {bytes : List UInt8} {a b c d : Nat} (same : bytes.map UInt8.toNat = [a, b, c, d]) :
    ∃ w x y z, bytes = [w, x, y, z] ∧ w.toNat = a ∧ x.toNat = b ∧ y.toNat = c ∧ z.toNat = d := by
  match bytes, same with
  | [w, x, y, z], same =>
    simp only [List.map_cons, List.map_nil, List.cons.injEq, and_true] at same
    exact ⟨w, x, y, z, rfl, same.1, same.2.1, same.2.2.1, same.2.2.2⟩

theorem map_toNat_one {bytes : List UInt8} {a : Nat} (same : bytes.map UInt8.toNat = [a]) :
    ∃ x, bytes = [x] ∧ x.toNat = a := by
  match bytes, same with
  | [x], same =>
    simp only [List.map_cons, List.map_nil, List.cons.injEq, and_true] at same
    exact ⟨x, rfl, same⟩

theorem isValidChar_toNat (c : Char) : Nat.isValidChar c.toNat := by
  rcases c.valid with small | large
  · exact Or.inl small
  · exact Or.inr large

/-- One character is decoded from its own bytes, whatever follows them. -/
theorem decode_encode_cons (c : Char) (rest : List UInt8) :
    decode (String.utf8EncodeChar c ++ rest) = (decode rest).map fun text => c :: text := by
  have same : Char.ofNat c.toNat = c := Char.ofNat_toNat c
  have valid := isValidChar_toNat c
  rcases encode_cases c with ⟨small, bytes⟩ | ⟨low, high, bytes⟩ | ⟨low, high, bytes⟩ | ⟨low, high, bytes⟩
  · rcases map_toNat_one bytes with ⟨b0, parts, first⟩
    rw [parts, List.singleton_append, decode_ascii_cons (by omega), first, same]
  · rcases map_toNat_two bytes with ⟨b0, b1, parts, first, second⟩
    have two : isTwo b0 b1 = true := by
      simp only [isTwo, isContinuation, Bool.and_eq_true, decide_eq_true_eq]
      omega
    have joined : joinBits (b0.toNat % 32) [b1] = c.toNat := by
      simp only [joinBits, List.foldl_cons, List.foldl_nil]
      omega
    rw [parts, decode.eq_def]
    simp only [List.cons_append, List.nil_append]
    rw [if_neg (by omega), if_pos two, joined, same]
  · rcases map_toNat_three bytes with ⟨b0, b1, b2, parts, first, second, third⟩
    have joined : joinBits (b0.toNat % 16) [b1, b2] = c.toNat := by
      simp only [joinBits, List.foldl_cons, List.foldl_nil]
      omega
    have notTwo : ¬ isTwo b0 b1 = true := by
      simp only [isTwo, isContinuation, Bool.and_eq_true, decide_eq_true_eq]
      omega
    have three : isThree b0 b1 b2 = true := by
      simp only [isThree, isContinuation, Bool.and_eq_true, decide_eq_true_eq, joined]
      exact ⟨⟨by omega, low⟩, valid⟩
    rw [parts, decode.eq_def]
    simp only [List.cons_append, List.nil_append]
    rw [if_neg (by omega), if_neg notTwo, if_pos three, joined, same]
  · rcases map_toNat_four bytes with ⟨b0, b1, b2, b3, parts, first, second, third, fourth⟩
    have joined : joinBits (b0.toNat % 8) [b1, b2, b3] = c.toNat := by
      simp only [joinBits, List.foldl_cons, List.foldl_nil]
      omega
    have notTwo : ¬ isTwo b0 b1 = true := by
      simp only [isTwo, isContinuation, Bool.and_eq_true, decide_eq_true_eq]
      omega
    have notThree : ¬ isThree b0 b1 b2 = true := by
      simp only [isThree, isContinuation, Bool.and_eq_true, decide_eq_true_eq]
      omega
    have four : isFour b0 b1 b2 b3 = true := by
      simp only [isFour, isContinuation, Bool.and_eq_true, decide_eq_true_eq, joined]
      exact ⟨⟨by omega, low⟩, valid⟩
    rw [parts, decode.eq_def]
    simp only [List.cons_append, List.nil_append]
    rw [if_neg (by omega), if_neg notTwo, if_neg notThree, if_pos four, joined, same]

theorem decode_encodeText (text : List Char) : decode (encodeText text) = some text := by
  induction text with
  | nil => rfl
  | cons c text ih =>
    change decode (String.utf8EncodeChar c ++ encodeText text) = _
    rw [decode_encode_cons, ih]
    rfl

/-- A byte below 0x80 is a character of its own. -/
theorem mem_of_ascii {b : UInt8} (small : b.toNat < 0x80) {text : List Char} (member : b ∈ encodeText text) :
    Char.ofNat b.toNat ∈ text := by
  obtain ⟨c, inside, byte⟩ := List.mem_flatMap.mp member
  have value : b.toNat ∈ encode c := List.mem_map_of_mem byte
  rcases encode_cases c with ⟨_, bytes⟩ | ⟨_, _, bytes⟩ | ⟨_, _, bytes⟩ | ⟨_, _, bytes⟩
  · rw [bytes, List.mem_singleton] at value
    rw [value, Char.ofNat_toNat]
    exact inside
  all_goals
    rw [bytes] at value
    simp only [List.mem_cons, List.not_mem_nil, or_false] at value
    omega

theorem encodeText_append (a b : List Char) : encodeText (a ++ b) = encodeText a ++ encodeText b :=
  List.flatMap_append

end Utf8
