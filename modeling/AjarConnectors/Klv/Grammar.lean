import AjarConnectors.Ber.Items
import AjarConnectors.Klv.Parser

namespace KlvProof

open KlvModel HttpModel
open Ber (Tag Length Item concat)

theorem each_byte {P : UInt8 → Prop} (each : ∀ n : Fin 256, P (UInt8.ofNat n)) (b : UInt8) : P b := by
  have same := each ⟨b.toNat, b.toNat_lt⟩
  rwa [UInt8.ofNat_toNat] at same

theorem high_bit : ∀ b : UInt8, b &&& 0x80 = 0 ↔ b.toNat < 128 := each_byte (by decide +kernel)

theorem low_bits : ∀ b : UInt8, (b &&& 0x7f).toNat = b.toNat % 128 := each_byte (by decide +kernel)

theorem drop_cons {buf later : Bytes} {pos : Nat} {b : UInt8} (here : buf.drop pos = b :: later) :
    buf[pos]? = some b ∧ buf.drop (pos + 1) = later := by
  constructor
  · rw [← List.head?_drop, here, List.head?_cons]
  · rw [← List.tail_drop, here, List.tail_cons]

/-- One turn of the tag's loop adds seven bits, and forgets what leaves the 32. -/
theorem tag_turn (n : Nat) (b : UInt8) :
    UInt32.ofNat n <<< 7 ||| (b &&& 0x7f).toUInt32 = UInt32.ofNat (n * 128 + b.toNat % 128) := by
  apply UInt32.toNat_inj.mp
  have small : b.toNat % 128 < 2^7 := Nat.mod_lt _ (by decide)
  have kept : (n % 2^32) <<< 7 % 2^32 = (n % 2^25) <<< 7 := by
    rw [Nat.shiftLeft_eq, Nat.shiftLeft_eq]
    omega
  rw [UInt32.toNat_or, UInt32.toNat_shiftLeft, UInt8.toNat_toUInt32, low_bits, UInt32.toNat_ofNat', UInt32.toNat_ofNat']
  show (n % 2^32) <<< 7 % 2^32 ||| b.toNat % 128 = _
  rw [kept, ← Nat.shiftLeft_add_eq_or_of_lt small, Nat.shiftLeft_eq]
  omega

/-- The number of a tag's bytes behind those that spell `n`. -/
def numberFrom (n : Nat) (bytes : Bytes) : Nat := bytes.foldl (fun value b => value * 128 + b.toNat % 128) n

theorem tagBytes_read (t : Tag) (n pos : Nat) (rest : Bytes) :
    tagBytes (UInt32.ofNat n) pos (t.bytes ++ rest) = .ok (UInt32.ofNat (numberFrom n t.bytes), pos + t.bytes.length) := by
  obtain ⟨more, last, continued, ended⟩ := t
  simp only [Tag.bytes]
  induction more generalizing n pos with
  | nil =>
    rw [List.nil_append, List.singleton_append, tagBytes, if_pos ((high_bit last).mpr ended), tag_turn]
    rfl
  | cons b more ih =>
    have high : ¬b.toNat < 128 := Nat.not_lt.mpr (continued b List.mem_cons_self)
    rw [List.cons_append, List.cons_append, tagBytes, if_neg fun zero => high ((high_bit b).mp zero), tag_turn,
      ih _ _ (fun x member => continued x (List.mem_cons_of_mem _ member))]
    rw [List.length_cons, Nat.add_assoc, Nat.add_comm 1]
    rfl

theorem tagBytes_ok {n pos next : Nat} {tag : UInt32} {bytes : Bytes}
    (read : tagBytes (UInt32.ofNat n) pos bytes = .ok (tag, next)) :
    ∃ (t : Tag) (rest : Bytes), bytes = t.bytes ++ rest ∧ next = pos + t.bytes.length ∧
      tag = UInt32.ofNat (numberFrom n t.bytes) := by
  induction bytes generalizing n pos with
  | nil => cases read
  | cons b later ih =>
    rw [tagBytes, tag_turn] at read
    by_cases low : b &&& 0x80 = 0
    · rw [if_pos low, Except.ok.injEq, Prod.mk.injEq] at read
      exact ⟨Tag.one b ((high_bit b).mp low), later, rfl, read.2.symm, read.1.symm⟩
    · rw [if_neg low] at read
      have high : 128 ≤ b.toNat := Nat.not_lt.mp fun small => low ((high_bit b).mpr small)
      obtain ⟨⟨more, last, continued, ended⟩, rest, shape, ends, number⟩ := ih read
      refine ⟨⟨b :: more, last, List.forall_mem_cons.mpr ⟨high, continued⟩, ended⟩, rest, ?_, ?_, number⟩
      · rw [shape]
        rfl
      · rw [ends]
        simp only [Tag.bytes, List.length_append, List.length_cons, List.length_nil]
        omega

/-- `read_ber_oid_tag` takes what the format calls a tag, modulo 2 to the 32. -/
theorem readBerOidTag_iff {buf : Bytes} {pos next : Nat} {tag : UInt32} :
    readBerOidTag buf pos = .ok (tag, next) ↔ ∃ (t : Tag) (rest : Bytes), buf.drop pos = t.bytes ++ rest ∧
      next = pos + t.bytes.length ∧ tag = UInt32.ofNat t.value := by
  constructor
  · exact tagBytes_ok (n := 0)
  · rintro ⟨t, rest, shape, rfl, rfl⟩
    rw [readBerOidTag, shape]
    exact tagBytes_read t 0 pos rest

theorem lenBytes_read {buf bytes rest : Bytes} {pos : Nat} (n : Nat) (here : buf.drop pos = bytes ++ rest) :
    lenBytes buf bytes.length n pos =
      .ok (bytes.foldl (fun value b => value * 256 + b.toNat) n, pos + bytes.length) := by
  induction bytes generalizing n pos with
  | nil => rfl
  | cons b bytes ih =>
    obtain ⟨found, later⟩ := drop_cons here
    have turn : n <<< 8 ||| b.toNat = n * 256 + b.toNat := by
      rw [← Nat.shiftLeft_add_eq_or_of_lt b.toNat_lt, Nat.shiftLeft_eq]
    rw [List.length_cons, lenBytes, found]
    dsimp only
    rw [turn, ih _ later, List.foldl_cons, Nat.add_assoc, Nat.add_comm 1]

theorem lenBytes_ok {buf : Bytes} {k n pos len next : Nat} (read : lenBytes buf k n pos = .ok (len, next)) :
    ∃ bytes rest : Bytes, bytes.length = k ∧ buf.drop pos = bytes ++ rest := by
  induction k generalizing n pos with
  | zero => exact ⟨[], buf.drop pos, rfl, rfl⟩
  | succ k ih =>
    rw [lenBytes] at read
    cases found : buf[pos]? with
    | none =>
      rw [found] at read
      cases read
    | some b =>
      rw [found] at read
      obtain ⟨bytes, rest, length, shape⟩ := ih read
      refine ⟨b :: bytes, rest, by rw [List.length_cons, length], ?_⟩
      obtain ⟨inside, rfl⟩ := List.getElem?_eq_some_iff.mp found
      rw [List.drop_eq_getElem_cons inside, shape, List.cons_append]

theorem readBerLen_read {buf rest : Bytes} {pos : Nat} (l : Length) (here : buf.drop pos = l.bytes ++ rest) :
    readBerLen buf pos = .ok (l.value, pos + l.bytes.length) := by
  cases l with
  | short n fits =>
    obtain ⟨found, -⟩ := drop_cons here
    rw [readBerLen, found]
    dsimp only
    rw [if_pos ((high_bit n).mpr fits)]
    rfl
  | long bytes filled fits =>
    have marker : (UInt8.ofNat (128 + bytes.length)).toNat = 128 + bytes.length := by
      rw [UInt8.toNat_ofNat']
      omega
    obtain ⟨found, later⟩ := drop_cons here
    have count : (UInt8.ofNat (128 + bytes.length) &&& 0x7f).toNat = bytes.length := by
      rw [low_bits, marker]
      omega
    rw [readBerLen, found]
    dsimp only
    rw [if_neg fun zero => by
      have low := (high_bit _).mp zero
      omega]
    rw [count, if_neg (by omega), lenBytes_read 0 later]
    rw [Length.bytes, List.length_cons, Nat.add_assoc, Nat.add_comm 1]
    rfl

/-- `read_ber_len` takes what the format calls a length. -/
theorem readBerLen_iff {buf : Bytes} {pos len next : Nat} :
    readBerLen buf pos = .ok (len, next) ↔ ∃ (l : Length) (rest : Bytes), buf.drop pos = l.bytes ++ rest ∧
      next = pos + l.bytes.length ∧ len = l.value := by
  constructor
  · intro read
    have shape : ∃ (l : Length) (rest : Bytes), buf.drop pos = l.bytes ++ rest := by
      rw [readBerLen] at read
      cases found : buf[pos]? with
      | none =>
        rw [found] at read
        cases read
      | some b =>
        obtain ⟨inside, rfl⟩ := List.getElem?_eq_some_iff.mp found
        rw [List.drop_eq_getElem_cons inside]
        rw [found] at read
        dsimp only at read
        by_cases low : buf[pos] &&& 0x80 = 0
        · exact ⟨.short _ ((high_bit _).mp low), _, rfl⟩
        · rw [if_neg low] at read
          have high : ¬buf[pos].toNat < 128 := fun small => low ((high_bit _).mpr small)
          by_cases width : (buf[pos] &&& 0x7f).toNat = 0 ∨ 4 < (buf[pos] &&& 0x7f).toNat
          · rw [if_pos width] at read
            cases read
          · rw [if_neg width] at read
            obtain ⟨bytes, rest, length, later⟩ := lenBytes_ok read
            rw [low_bits] at width length
            have byte := buf[pos].toNat_lt
            refine ⟨.long bytes (by omega) (by omega), rest, ?_⟩
            have marker : UInt8.ofNat (128 + bytes.length) = buf[pos] := by
              apply UInt8.toNat_inj.mp
              rw [UInt8.toNat_ofNat']
              omega
            rw [Length.bytes, marker, List.cons_append, later]
    obtain ⟨l, rest, here⟩ := shape
    rw [readBerLen_read l here, Except.ok.injEq, Prod.mk.injEq] at read
    exact ⟨l, rest, here, read.2.symm, read.1.symm⟩
  · rintro ⟨l, rest, here, rfl, rfl⟩
    exact readBerLen_read l here

/-- One turn of the item loop takes what the format calls an item, if it ends inside the set. -/
theorem readItem_iff {frame : Bytes} {total p next : Nat} {tag : UInt32} {val : Bytes} (inside : total ≤ frame.length)
    (small : total < usizeEnd) : readItem frame total p = .ok (tag, val, next) ↔
      ∃ (i : Item) (rest : Bytes), frame.drop p = i.bytes ++ rest ∧ next = p + i.bytes.length ∧ next ≤ total ∧
        tag = UInt32.ofNat i.tag.value ∧ val = i.value := by
  constructor
  · intro read
    rw [readItem] at read
    cases tagged : readBerOidTag frame p with
    | error e =>
      rw [tagged] at read
      cases read
    | ok told =>
      obtain ⟨t, rest, here, ends, number⟩ := readBerOidTag_iff.mp tagged
      rw [tagged] at read
      dsimp only at read
      cases measured : readBerLen frame told.2 with
      | error e =>
        rw [measured] at read
        cases read
      | ok size =>
        obtain ⟨l, later, there, stops, len⟩ := readBerLen_iff.mp measured
        rw [measured] at read
        dsimp only at read
        by_cases wraps : usizeEnd ≤ size.2 + size.1
        · rw [if_pos wraps] at read
          cases read
        · rw [if_neg wraps] at read
          by_cases past : total < size.2 + size.1
          · rw [if_pos past] at read
            cases read
          · rw [if_neg past, Except.ok.injEq, Prod.mk.injEq, Prod.mk.injEq] at read
            obtain ⟨rfl, rfl, rfl⟩ := read
            obtain ⟨value, remainder, cut, count⟩ : ∃ value remainder : Bytes,
                frame.drop size.2 = value ++ remainder ∧ value.length = size.1 := by
              refine ⟨(frame.drop size.2).take size.1, _, (List.take_append_drop _ _).symm, ?_⟩
              rw [List.length_take, List.length_drop]
              omega
            have second : frame.drop told.2 = rest := by rw [ends, ← List.drop_drop, here, List.drop_left]
            have third : frame.drop size.2 = later := by rw [stops, ← List.drop_drop, there, List.drop_left]
            have taken : (frame.drop size.2).take size.1 = value := by rw [cut, ← count, List.take_left]
            refine ⟨⟨t, l, value, by rw [← len, count]⟩, remainder, ?_, ?_, Nat.not_lt.mp past, number, taken⟩
            · simp only [Item.bytes, List.append_assoc]
              rw [here, ← second, there, ← third, cut]
            · rw [Item.bytes_length]
              dsimp only
              omega
  · rintro ⟨⟨t, l, val, measure⟩, rest, here, ends, within, rfl, rfl⟩
    subst ends
    simp only [Item.bytes, List.append_assoc] at here
    rw [Item.bytes_length] at within ⊢
    dsimp only at within measure ⊢
    have second : frame.drop (p + t.bytes.length) = l.bytes ++ (val ++ rest) := by
      rw [← List.drop_drop, here, List.drop_left]
    have third : frame.drop (p + t.bytes.length + l.bytes.length) = val ++ rest := by
      rw [← List.drop_drop, second, List.drop_left]
    rw [readItem, readBerOidTag_iff.mpr ⟨t, _, here, rfl, rfl⟩]
    dsimp only
    rw [readBerLen_read l second]
    dsimp only
    rw [measure, if_neg (by omega), if_neg (by omega), third, List.take_left]
    simp only [Nat.add_assoc]

section

variable (platform : Platform) {frame : Bytes} {total : Nat} (inside : total ≤ frame.length) (small : total < usizeEnd)
include inside small

/-- The fields of items, one after the other. -/
def takeAll (f : Fields) (items : List Item) : Fields :=
  items.foldl (fun f i => f.take platform (UInt32.ofNat i.tag.value) i.value) f

omit inside small in
theorem prefix_rest {i : Item} {p : Nat} (next : p + i.bytes.length ≤ total) :
    i.bytes <+: frame.drop p ↔
      (frame.take total).drop p = i.bytes ++ (frame.take total).drop (p + i.bytes.length) := by
  rw [← List.drop_drop, eq_comm, ← List.prefix_iff_eq_append, List.drop_take, List.prefix_take_iff]
  constructor
  · intro begins
    exact ⟨begins, by omega⟩
  · exact And.left

/-- The item loop comes to its end exactly when items fill what is left of the set. -/
theorem readItems_iff {turns p : Nat} {f g : Fields} (enough : total ≤ p + turns) (within : p ≤ total) :
    readItems platform frame total turns p f = .ok g ↔
      ∃ items : List Item, (frame.take total).drop p = concat items ∧ g = takeAll platform f items := by
  have done : ∀ {q : Nat} {f : Fields}, q = total → (f = g ↔
      ∃ items : List Item, (frame.take total).drop q = concat items ∧ g = takeAll platform f items) := by
    intro q f last
    have rest : (frame.take total).drop q = concat [] := by
      rw [Ber.concat_nil, List.drop_eq_nil_iff, List.length_take]
      omega
    rw [rest]
    constructor
    · rintro rfl
      exact ⟨[], rfl, rfl⟩
    · rintro ⟨items, none, rfl⟩
      rw [← Ber.concat_injective none]
      rfl
  induction turns generalizing p f with
  | zero =>
    rw [readItems, if_neg (by omega), Except.ok.injEq]
    exact done (by omega)
  | succ turns ih =>
    rw [readItems]
    by_cases more : p < total
    · rw [if_pos more]
      constructor
      · intro read
        cases item : readItem frame total p with
        | error e =>
          rw [item] at read
          cases read
        | ok told =>
          obtain ⟨i, rest, here, ends, next, tag, val⟩ := (readItem_iff inside small).mp item
          have long := i.bytes_long
          rw [item] at read
          obtain ⟨items, tail, made⟩ := (ih (by omega) next).mp read
          refine ⟨i :: items, ?_, ?_⟩
          · rw [(prefix_rest (by omega)).mp ⟨rest, here.symm⟩, ← ends, tail, Ber.concat_cons]
          · rw [made, tag, val]
            rfl
      · rintro ⟨items, tail, made⟩
        cases items with
        | nil =>
          rw [Ber.concat_nil, List.drop_eq_nil_iff, List.length_take] at tail
          omega
        | cons i items =>
          have size := congrArg List.length tail
          rw [Ber.concat_cons, List.length_append, List.length_drop, List.length_take] at size
          have long := i.bytes_long
          have begins : i.bytes <+: frame.drop p := by
            have whole : i.bytes <+: (frame.take total).drop p := ⟨concat items, tail.symm⟩
            rw [List.drop_take, List.prefix_take_iff] at whole
            exact whole.1
          have split := (prefix_rest (show p + i.bytes.length ≤ total by omega)).mp begins
          obtain ⟨rest, here⟩ := begins
          rw [(readItem_iff inside small).mpr ⟨i, rest, here.symm, rfl, by omega, rfl, rfl⟩]
          apply (ih (by omega) (by omega)).mpr
          refine ⟨items, ?_, made⟩
          rw [tail, Ber.concat_cons] at split
          exact (List.append_cancel_left split).symm
    · rw [if_neg more, Except.ok.injEq]
      exact done (by omega)

end

end KlvProof
