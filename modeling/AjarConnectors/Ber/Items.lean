import AjarConnectors.ByteString.BigEndian

namespace Ber

/-- A tag of seven bits a byte, most significant first; every byte but the last has its high bit set. -/
structure Tag where
  more : List UInt8
  last : UInt8
  continued : ∀ b ∈ more, 128 ≤ b.toNat
  ended : last.toNat < 128

namespace Tag

def bytes (t : Tag) : List UInt8 := t.more ++ [t.last]

/-- The number that the low seven bits of the bytes spell. -/
def number (bytes : List UInt8) : Nat := bytes.foldl (fun value b => value * 128 + b.toNat % 128) 0

def value (t : Tag) : Nat := number t.bytes

/-- A tag of one byte. -/
def one (b : UInt8) (small : b.toNat < 128) : Tag := ⟨[], b, List.forall_mem_nil _, small⟩

@[simp] theorem one_bytes (b : UInt8) (small : b.toNat < 128) : (one b small).bytes = [b] := rfl

@[simp] theorem one_value (b : UInt8) (small : b.toNat < 128) : (one b small).value = b.toNat := by
  simp [value, number, Nat.mod_eq_of_lt small]

end Tag

/-- A length in one byte, or in one to four bytes behind a byte that counts them. -/
inductive Length where
  | short (n : UInt8) (fits : n.toNat < 128)
  | long (bytes : List UInt8) (filled : 1 ≤ bytes.length) (fits : bytes.length ≤ 4)

namespace Length

def bytes : Length → List UInt8
  | short n _ => [n]
  | long bytes _ _ => UInt8.ofNat (128 + bytes.length) :: bytes

def value : Length → Nat
  | short n _ => n.toNat
  | long bytes _ _ => ByteString.number bytes

theorem value_lt (l : Length) : l.value < 2^32 := by
  cases l with
  | short n fits =>
    rw [value]
    omega
  | long bytes filled fits =>
    have below := ByteString.number_lt bytes
    have most : 256^bytes.length ≤ 256^4 := Nat.pow_le_pow_right (by decide) fits
    rw [value]
    omega

theorem bytes_length (l : Length) : 1 ≤ l.bytes.length ∧ l.bytes.length ≤ 5 := by
  cases l with
  | short n fits =>
    show 1 ≤ 1 ∧ 1 ≤ 5
    decide
  | long bytes filled fits =>
    rw [Length.bytes, List.length_cons]
    omega

end Length

structure Item where
  tag : Tag
  length : Length
  value : List UInt8
  measured : length.value = value.length

namespace Item

def bytes (i : Item) : List UInt8 := i.tag.bytes ++ i.length.bytes ++ i.value

theorem bytes_length (i : Item) : i.bytes.length = i.tag.bytes.length + i.length.bytes.length + i.value.length := by
  rw [bytes, List.length_append, List.length_append]

theorem bytes_long (i : Item) : 2 ≤ i.bytes.length := by
  have tag : i.tag.bytes.length = i.tag.more.length + 1 := List.length_append
  have length := i.length.bytes_length
  rw [bytes_length]
  omega

end Item

/-- Items one behind the other. -/
def concat (items : List Item) : List UInt8 := items.flatMap Item.bytes

@[simp] theorem concat_nil : concat [] = [] := rfl

@[simp] theorem concat_cons (i : Item) (items : List Item) : concat (i :: items) = i.bytes ++ concat items := rfl

/-! What begins a byte string as a tag, a length or an item begins it as no other. -/

section Unique

variable {left right : List UInt8}

theorem Tag.unique {s t : Tag} (same : s.bytes ++ left = t.bytes ++ right) : s = t ∧ left = right := by
  obtain ⟨more, last, continued, ended⟩ := s
  obtain ⟨more', last', continued', ended'⟩ := t
  simp only [Tag.bytes, List.append_assoc, List.singleton_append] at same
  induction more generalizing more' with
  | nil =>
    cases more' with
    | nil =>
      rw [List.nil_append, List.nil_append, List.cons.injEq] at same
      obtain ⟨rfl, rest⟩ := same
      exact ⟨rfl, rest⟩
    | cons b more' =>
      rw [List.nil_append, List.cons_append, List.cons.injEq] at same
      have high := continued' b List.mem_cons_self
      rw [← same.1] at high
      omega
  | cons b more ih =>
    cases more' with
    | nil =>
      rw [List.nil_append, List.cons_append, List.cons.injEq] at same
      have high := continued b List.mem_cons_self
      rw [same.1] at high
      omega
    | cons b' more' =>
      rw [List.cons_append, List.cons_append, List.cons.injEq] at same
      obtain ⟨rfl, rest⟩ := same
      obtain ⟨tags, ends⟩ := ih (fun x member => continued x (List.mem_cons_of_mem _ member)) more'
        (fun x member => continued' x (List.mem_cons_of_mem _ member)) rest
      rw [Tag.mk.injEq] at tags
      obtain ⟨rfl, rfl⟩ := tags
      exact ⟨rfl, ends⟩

theorem Length.unique {l m : Length} (same : l.bytes ++ left = m.bytes ++ right) : l = m ∧ left = right := by
  cases l with
  | short n fits =>
    cases m with
    | short n' fits' =>
      rw [Length.bytes, Length.bytes, List.singleton_append, List.singleton_append, List.cons.injEq] at same
      obtain ⟨rfl, rest⟩ := same
      exact ⟨rfl, rest⟩
    | long bytes filled fits' =>
      rw [Length.bytes, Length.bytes, List.singleton_append, List.cons_append, List.cons.injEq] at same
      have number := congrArg UInt8.toNat same.1
      rw [UInt8.toNat_ofNat'] at number
      omega
  | long bytes filled fits =>
    cases m with
    | short n fits' =>
      rw [Length.bytes, Length.bytes, List.singleton_append, List.cons_append, List.cons.injEq] at same
      have number := congrArg UInt8.toNat same.1
      rw [UInt8.toNat_ofNat'] at number
      omega
    | long bytes' filled' fits' =>
      rw [Length.bytes, Length.bytes, List.cons_append, List.cons_append, List.cons.injEq] at same
      have number := congrArg UInt8.toNat same.1
      rw [UInt8.toNat_ofNat', UInt8.toNat_ofNat'] at number
      have sizes : bytes.length = bytes'.length := by omega
      obtain ⟨rfl, rest⟩ := List.append_inj same.2 sizes
      exact ⟨rfl, rest⟩

theorem Item.unique {i j : Item} (same : i.bytes ++ left = j.bytes ++ right) : i = j ∧ left = right := by
  obtain ⟨tag, length, value, measured⟩ := i
  obtain ⟨tag', length', value', measured'⟩ := j
  simp only [Item.bytes, List.append_assoc] at same
  obtain ⟨rfl, later⟩ := Tag.unique same
  obtain ⟨rfl, values⟩ := Length.unique later
  obtain ⟨rfl, rest⟩ := List.append_inj values (measured.symm.trans measured')
  exact ⟨rfl, rest⟩

/-- Bytes are those of one list of items at most. -/
theorem concat_injective : Function.Injective concat := by
  intro items others same
  induction items generalizing others with
  | nil =>
    cases others with
    | nil => rfl
    | cons j others =>
      have long := j.bytes_long
      have size := congrArg List.length same
      rw [concat_nil, concat_cons, List.length_append, List.length_nil] at size
      omega
  | cons i items ih =>
    cases others with
    | nil =>
      have long := i.bytes_long
      have size := congrArg List.length same
      rw [concat_nil, concat_cons, List.length_append, List.length_nil] at size
      omega
    | cons j others =>
      rw [concat_cons, concat_cons] at same
      obtain ⟨rfl, rest⟩ := Item.unique same
      rw [ih rest]

end Unique

end Ber
