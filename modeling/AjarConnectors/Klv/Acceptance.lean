import AjarConnectors.Klv.Grammar

namespace KlvModel

open HttpModel
open Ber (Length Item concat)

/-- A UAS Local Set: the label, a length, and items that fill it. -/
structure LocalSet where
  length : Length
  items : List Item
  measured : length.value = (concat items).length
  filled : 2 ≤ (concat items).length

namespace LocalSet

def bytes (s : LocalSet) : Bytes := uasLsKey ++ (s.length.bytes ++ concat s.items)

/-- All but the last two bytes, which the sum is taken over. -/
def covered (s : LocalSet) : Bytes := s.bytes.take (s.bytes.length - 2)

/-- The last two bytes are the sum of those before. -/
def Summed (s : LocalSet) : Prop :=
  bcc16 s.covered = UInt16.ofNat (ByteString.number (s.bytes.drop (s.bytes.length - 2)))

instance (s : LocalSet) : Decidable s.Summed := decEq _ _

def LastIsChecksum (s : LocalSet) : Prop := ∃ item ∈ s.items.getLast?, item.tag.value = 1 ∧ item.value.length = 2

/-- The last item is the checksum, and its value is the sum of the bytes before. -/
def EndsInChecksum (s : LocalSet) : Prop :=
  ∃ item ∈ s.items.getLast?, item.tag.value = 1 ∧ item.value.length = 2 ∧
    bcc16 s.covered = UInt16.ofNat (ByteString.number item.value)

end LocalSet

end KlvModel

namespace KlvProof

open KlvModel HttpModel
open Ber (Tag Length Item concat)

theorem uasLsKey_length : uasLsKey.length = 16 := rfl

section

variable (platform : Platform)

/-- What is left of `parse_set` once the label and the length are read. -/
def parseBody (frame : Bytes) (total pos : Nat) : Except KlvError (Option UasMetadata) :=
  if bcc16 ((frame.take total).take (total - 2)) ≠ UInt16.ofNat (ByteString.number ((frame.take total).drop (total - 2))) then
    .error .badChecksum
  else
    match readItems platform frame total total pos {} with
    | .error e => .error e
    | .ok f => .ok (f.finish (frame.take total))

theorem number_last {pkt : Bytes} {total : Nat} (whole : pkt.length = total) (long : 2 ≤ total) :
    ByteString.number (pkt.drop (total - 2)) = (pkt.getD (total - 2) 0).toNat * 256 + (pkt.getD (total - 1) 0).toNat := by
  have first : total - 2 < pkt.length := by omega
  have second : total - 2 + 1 < pkt.length := by omega
  have last : total - 1 = total - 2 + 1 := by omega
  rw [List.drop_eq_getElem_cons first, List.drop_eq_getElem_cons second, List.drop_eq_nil_of_le (by omega),
    ByteString.number_pair, last]
  simp only [List.getD_eq_getElem?_getD, List.getElem?_eq_getElem first, List.getElem?_eq_getElem second, Option.getD_some]

/-- Behind the label and a length that fits the frame, `parse_set` goes on with the checksum and the items. -/
theorem parseSet_header {l : Length} {rest : Bytes} (fits : l.value ≤ rest.length) (long : 2 ≤ l.value) :
    parseSet platform (uasLsKey ++ (l.bytes ++ rest)) =
      parseBody platform (uasLsKey ++ (l.bytes ++ rest)) (16 + l.bytes.length + l.value) (16 + l.bytes.length) := by
  have size : (uasLsKey ++ (l.bytes ++ rest)).length = 16 + (l.bytes.length + rest.length) := by
    rw [List.length_append, List.length_append, uasLsKey_length]
  have key : (uasLsKey ++ (l.bytes ++ rest)).take 16 = uasLsKey := by
    rw [← uasLsKey_length, List.take_left]
  have after : (uasLsKey ++ (l.bytes ++ rest)).drop 16 = l.bytes ++ rest := by
    rw [← uasLsKey_length, List.drop_left]
  have width := l.bytes_length
  have below := l.value_lt
  have space : usizeEnd = 2^64 := rfl
  generalize frame : uasLsKey ++ (l.bytes ++ rest) = whole at size key after ⊢
  have whole' : (whole.take (16 + l.bytes.length + l.value)).length = 16 + l.bytes.length + l.value := by
    rw [List.length_take]
    omega
  rw [parseSet, if_neg (by simp only [key, ne_eq, not_true_eq_false, or_false]; omega), readBerLen_read l after]
  dsimp only
  rewrite [if_neg (by omega), if_neg (by omega), parseBody, number_last whole' (by omega)]
  rfl

theorem take_set (l : Length) (rest : Bytes) : (uasLsKey ++ (l.bytes ++ rest)).take (16 + l.bytes.length + l.value) =
    uasLsKey ++ (l.bytes ++ rest.take l.value) := by
  rw [← List.append_assoc, ← List.append_assoc, List.take_append, List.take_of_length_le (by simp [uasLsKey_length])]
  simp [uasLsKey_length]

theorem drop_body (l : Length) (body : Bytes) : (uasLsKey ++ (l.bytes ++ body)).drop (16 + l.bytes.length) = body := by
  rw [← List.append_assoc, ← uasLsKey_length, ← List.length_append, List.drop_left]

theorem parseBody_ok_iff {l : Length} {rest : Bytes} (fits : l.value ≤ rest.length) {r : Option UasMetadata} :
    parseBody platform (uasLsKey ++ (l.bytes ++ rest)) (16 + l.bytes.length + l.value) (16 + l.bytes.length) = .ok r ↔
      bcc16 ((uasLsKey ++ (l.bytes ++ rest.take l.value)).take (16 + l.bytes.length + l.value - 2)) =
          UInt16.ofNat (ByteString.number
            ((uasLsKey ++ (l.bytes ++ rest.take l.value)).drop (16 + l.bytes.length + l.value - 2))) ∧
        ∃ items : List Item, rest.take l.value = concat items ∧
          r = (takeAll platform {} items).finish (uasLsKey ++ (l.bytes ++ rest.take l.value)) := by
  have size : (uasLsKey ++ (l.bytes ++ rest)).length = 16 + (l.bytes.length + rest.length) := by
    rw [List.length_append, List.length_append, uasLsKey_length]
  have space : usizeEnd = 2^64 := rfl
  have width := l.bytes_length
  have below := l.value_lt
  have loop := @readItems_iff platform (uasLsKey ++ (l.bytes ++ rest)) (16 + l.bytes.length + l.value) (by omega) (by omega)
    (16 + l.bytes.length + l.value) (16 + l.bytes.length) {}
  rw [take_set, drop_body] at loop
  rw [parseBody, take_set]
  by_cases summed : bcc16 ((uasLsKey ++ (l.bytes ++ rest.take l.value)).take (16 + l.bytes.length + l.value - 2)) =
      UInt16.ofNat (ByteString.number
        ((uasLsKey ++ (l.bytes ++ rest.take l.value)).drop (16 + l.bytes.length + l.value - 2)))
  · rw [if_neg (by simp [summed]), and_iff_right summed]
    constructor
    · intro read
      cases items : readItems platform (uasLsKey ++ (l.bytes ++ rest)) (16 + l.bytes.length + l.value)
          (16 + l.bytes.length + l.value) (16 + l.bytes.length) {} with
      | error e =>
        rw [items] at read
        cases read
      | ok f =>
        rw [items] at read
        obtain ⟨items, shape, made⟩ := (loop (by omega) (by omega)).mp items
        refine ⟨items, shape, ?_⟩
        rw [← made]
        exact (Except.ok.inj read).symm
    · rintro ⟨items, shape, rfl⟩
      rw [(loop (by omega) (by omega)).mpr ⟨items, shape, rfl⟩]
  · rw [if_pos (by simpa using summed)]
    constructor
    · intro read
      cases read
    · rintro ⟨sum, -⟩
      exact absurd sum summed

/-- `parse_set` accepts the frames that a local set begins whose last two bytes are the sum, and takes its items in order. -/
theorem parseSet_ok_iff {frame : Bytes} {r : Option UasMetadata} : parseSet platform frame = .ok r ↔
    ∃ s : LocalSet, s.bytes <+: frame ∧ s.Summed ∧ r = (takeAll platform {} s.items).finish s.bytes := by
  constructor
  · intro read
    have header : ∃ (l : Length) (rest : Bytes), frame = uasLsKey ++ (l.bytes ++ rest) ∧ l.value ≤ rest.length ∧ 2 ≤ l.value := by
      have space : usizeEnd = 2^64 := rfl
      rw [parseSet] at read
      by_cases other : frame.length < 17 ∨ frame.take 16 ≠ uasLsKey
      · rw [if_pos other] at read
        cases read
      · rw [if_neg other] at read
        rw [not_or, not_not] at other
        cases measured : readBerLen frame 16 with
        | error e =>
          rw [measured] at read
          cases read
        | ok told =>
          obtain ⟨l, rest, here, ends, len⟩ := readBerLen_iff.mp measured
          have shape : frame = uasLsKey ++ (l.bytes ++ rest) := by
            rw [← here, ← other.2, List.take_append_drop]
          have size := congrArg List.length shape
          rw [List.length_append, List.length_append, uasLsKey_length] at size
          rw [measured] at read
          dsimp only at read
          by_cases wraps : usizeEnd ≤ told.2 + told.1
          · rw [if_pos wraps] at read
            cases read
          · rw [if_neg wraps] at read
            by_cases short : frame.length < told.2 + told.1 ∨ told.2 + told.1 < told.2 + 2
            · rw [if_pos short] at read
              cases read
            · exact ⟨l, rest, shape, by omega, by omega⟩
    obtain ⟨l, rest, rfl, fits, long⟩ := header
    rw [parseSet_header platform fits long, parseBody_ok_iff platform fits] at read
    obtain ⟨summed, items, shape, made⟩ := read
    have measured : l.value = (concat items).length := by
      rw [← shape, List.length_take]
      omega
    rw [shape] at summed made
    refine ⟨⟨l, items, measured, by omega⟩, ⟨rest.drop l.value, ?_⟩, ?_, made⟩
    · simp only [LocalSet.bytes, ← shape, List.append_assoc, List.take_append_drop]
    · have size : (uasLsKey ++ (l.bytes ++ concat items)).length = 16 + l.bytes.length + l.value := by
        rw [List.length_append, List.length_append, uasLsKey_length, measured, Nat.add_assoc]
      rw [← size] at summed
      exact summed
  · rintro ⟨⟨l, items, measured, filled⟩, ⟨trailing, rfl⟩, summed, rfl⟩
    have size : (uasLsKey ++ (l.bytes ++ concat items)).length = 16 + l.bytes.length + l.value := by
      rw [List.length_append, List.length_append, uasLsKey_length, measured, Nat.add_assoc]
    have body : (concat items ++ trailing).take l.value = concat items := by rw [measured, List.take_left]
    have fits : l.value ≤ (concat items ++ trailing).length := by
      rw [List.length_append]
      omega
    simp only [LocalSet.bytes, LocalSet.Summed, LocalSet.covered, List.append_assoc] at summed filled ⊢
    rw [parseSet_header platform fits (by omega), parseBody_ok_iff platform fits, body, ← size]
    exact ⟨summed, items, rfl, rfl⟩

end

/-- One local set at most begins a frame. -/
theorem LocalSet.unique {s t : LocalSet} {frame : Bytes} (first : s.bytes <+: frame) (second : t.bytes <+: frame) : s = t := by
  obtain ⟨left, shape⟩ := first
  obtain ⟨right, same⟩ := second
  obtain ⟨l, items, measured, filled⟩ := s
  obtain ⟨m, others, measured', filled'⟩ := t
  rw [← same] at shape
  simp only [LocalSet.bytes, List.append_assoc] at shape
  obtain ⟨rfl, rest⟩ := Length.unique (List.append_cancel_left shape)
  have bodies := (List.append_inj rest (measured.symm.trans measured')).1
  obtain rfl := Ber.concat_injective bodies
  rfl

/-- A last item of two bytes ends the set with them. -/
theorem last_value {s : LocalSet} {item : Item} (last : item ∈ s.items.getLast?) (two : item.value.length = 2) :
    s.bytes.drop (s.bytes.length - 2) = item.value := by
  obtain ⟨front, shape⟩ := List.getLast?_eq_some_iff.mp last
  have bytes : s.bytes = (uasLsKey ++ (s.length.bytes ++ (concat front ++ (item.tag.bytes ++ item.length.bytes)))) ++ item.value := by
    simp [LocalSet.bytes, shape, concat, Item.bytes, List.append_assoc]
  rw [bytes, List.length_append, two, Nat.add_sub_cancel, List.drop_left]

theorem endsInChecksum_iff (s : LocalSet) : s.EndsInChecksum ↔ s.Summed ∧ s.LastIsChecksum := by
  constructor
  · rintro ⟨item, last, tag, two, sum⟩
    refine ⟨?_, item, last, tag, two⟩
    rw [LocalSet.Summed, last_value last two]
    exact sum
  · rintro ⟨sum, item, last, tag, two⟩
    refine ⟨item, last, tag, two, ?_⟩
    rw [LocalSet.Summed, last_value last two] at sum
    exact sum

/-- What `parse_set` accepts ends in a checksum item unless the last two bytes are the sum and belong to another item. -/
theorem accepted_ends_in_checksum_iff (platform : Platform) (frame : Bytes) :
    (∀ r, parseSet platform frame = .ok r → ∃ s : LocalSet, s.bytes <+: frame ∧ s.EndsInChecksum) ↔
      ∀ s : LocalSet, s.bytes <+: frame → s.Summed → s.LastIsChecksum := by
  constructor
  · intro ends s begins summed
    obtain ⟨t, begins', ends'⟩ := ends _ ((parseSet_ok_iff platform).mpr ⟨s, begins, summed, rfl⟩)
    obtain rfl := LocalSet.unique begins begins'
    exact ((endsInChecksum_iff s).mp ends').2
  · intro last r accepted
    obtain ⟨s, begins, summed, -⟩ := (parseSet_ok_iff platform).mp accepted
    exact ⟨s, begins, (endsInChecksum_iff s).mpr ⟨summed, last s begins summed⟩⟩

theorem short_fits (value : Bytes) (short : value.length < 128) : (UInt8.ofNat value.length).toNat < 128 := by
  rw [UInt8.toNat_ofNat']
  omega

theorem short_measured (value : Bytes) (short : value.length < 128) :
    (Length.short (UInt8.ofNat value.length) (short_fits value short)).value = value.length := by
  rw [Length.value, UInt8.toNat_ofNat']
  omega

def shortItem (tag : UInt8) (small : tag.toNat < 128) (value : Bytes) (short : value.length < 128) : Item where
  tag := .one tag small
  length := .short (UInt8.ofNat value.length) (short_fits value short)
  value := value
  measured := short_measured value short

theorem latitude_small : (13 : UInt8).toNat < 128 := by decide

theorem longitude_small : (14 : UInt8).toNat < 128 := by decide

/-- A set of a latitude and a longitude, whose last two bytes are the sum of the bytes before. -/
def positionOnly : LocalSet where
  length := .short 12 (by decide)
  items := [shortItem 13 latitude_small [0x55, 0x95, 0xb6, 0x6d] (by decide),
    shortItem 14 longitude_small [0x5b, 0x53, 0xb0, 0xd1] (by decide)]
  measured := rfl
  filled := by decide

/-- Stands where a set's numbers do not matter. -/
def Platform.idle : Platform where
  toFloats := .idle
  rfc3339FromMicros _ := none

theorem position_without_checksum_is_accepted :
    (∃ m, parseSet Platform.idle positionOnly.bytes = .ok (some m)) ∧
      ¬∃ s : LocalSet, s.bytes <+: positionOnly.bytes ∧ s.EndsInChecksum := by
  constructor
  · exact ⟨{ raw := positionOnly.bytes }, by decide +kernel⟩
  · rintro ⟨s, begins, ends⟩
    obtain rfl := LocalSet.unique begins (List.prefix_refl _)
    obtain ⟨last, found, tag, -⟩ := ends
    rw [← Option.some.inj found] at tag
    exact absurd tag (by decide)

end KlvProof

namespace KlvModel

open HttpModel
open Ber (Tag)

/-- The tags that the item loop decodes. -/
def mappedTags : List Nat := [2, 3, 4, 5, 6, 7, 10, 13, 14, 15, 65]

/-- What is read as a tag is one of the format, with its exact number. -/
def ReadsExactly (buf : Bytes) (pos : Nat) : Prop :=
  ∀ tag next, readBerOidTag buf pos = .ok (tag, next) →
    ∃ t : Tag, t.bytes <+: buf.drop pos ∧ next = pos + t.bytes.length ∧ tag.toNat = t.value

/-- What is read as a mapped tag is one. -/
def ReadsMapped (buf : Bytes) (pos : Nat) : Prop :=
  ∀ tag next, readBerOidTag buf pos = .ok (tag, next) → tag.toNat ∈ mappedTags →
    ∃ t : Tag, t.bytes <+: buf.drop pos ∧ t.value ∈ mappedTags

end KlvModel

namespace KlvProof

open KlvModel HttpModel
open Ber (Tag Length Item concat)

theorem tag_prefix_unique {s t : Tag} {bytes : Bytes} (first : s.bytes <+: bytes) (second : t.bytes <+: bytes) : s = t := by
  obtain ⟨left, shape⟩ := first
  obtain ⟨right, same⟩ := second
  exact (Tag.unique (shape.trans same.symm)).1

/-- A tag the bytes begin with is read, modulo 2 to the 32. -/
theorem read_of_begins {buf : Bytes} {pos : Nat} {t : Tag} (begins : t.bytes <+: buf.drop pos) :
    readBerOidTag buf pos = .ok (UInt32.ofNat t.value, pos + t.bytes.length) := by
  obtain ⟨rest, here⟩ := begins
  exact readBerOidTag_iff.mpr ⟨t, rest, here.symm, rfl, rfl⟩

theorem mapped_small : ∀ n ∈ mappedTags, n < 2^32 := by decide

/-- Tags are read as what they are exactly below 2 to the 32, and larger ones are taken for a mapped one exactly if
    they are congruent to it. -/
theorem tags_read_exactly_iff (buf : Bytes) (pos : Nat) :
    (ReadsExactly buf pos ↔ ∀ t : Tag, t.bytes <+: buf.drop pos → t.value < 2^32) ∧
      (ReadsMapped buf pos ↔ ∀ t : Tag, t.bytes <+: buf.drop pos → t.value < 2^32 ∨ t.value % 2^32 ∉ mappedTags) := by
  constructor
  · constructor
    · intro exact t begins
      obtain ⟨s, begins', -, number⟩ := exact _ _ (read_of_begins begins)
      obtain rfl := tag_prefix_unique begins begins'
      rw [← number]
      exact UInt32.toNat_lt _
    · intro small tag next read
      obtain ⟨t, rest, here, ends, number⟩ := readBerOidTag_iff.mp read
      have begins : t.bytes <+: buf.drop pos := ⟨rest, here.symm⟩
      refine ⟨t, begins, ends, ?_⟩
      rw [number, UInt32.toNat_ofNat', Nat.mod_eq_of_lt (small t begins)]
  · constructor
    · intro mapped t begins
      by_cases small : t.value < 2^32
      · exact Or.inl small
      · right
        intro confused
        have read := read_of_begins begins
        obtain ⟨s, begins', listed⟩ := mapped _ _ read (by rwa [UInt32.toNat_ofNat'])
        obtain rfl := tag_prefix_unique begins begins'
        exact small (mapped_small _ listed)
    · intro apart tag next read listed
      obtain ⟨t, rest, here, ends, number⟩ := readBerOidTag_iff.mp read
      have begins : t.bytes <+: buf.drop pos := ⟨rest, here.symm⟩
      rw [number, UInt32.toNat_ofNat'] at listed
      refine ⟨t, begins, ?_⟩
      rcases apart t begins with small | other
      · rwa [Nat.mod_eq_of_lt small] at listed
      · exact absurd listed other

/-- 2 to the 32 and 13 more. -/
def wideTag : Tag where
  more := [0x90, 0x80, 0x80, 0x80]
  last := 13
  continued := by decide +kernel
  ended := latitude_small

/-- A set with no latitude: what stands in its place has another tag. -/
def withoutLatitude : LocalSet where
  length := .short 20 (by decide)
  items := [⟨wideTag, .short 4 (by decide), [0x55, 0x95, 0xb6, 0x6d], rfl⟩,
    shortItem 14 longitude_small [0x5b, 0x53, 0x60, 0x4f] (by decide), shortItem 1 (by decide) [0x0b, 0x42] (by decide)]
  measured := rfl
  filled := by decide

theorem wide_tag_is_taken_for_latitude :
    (withoutLatitude.items.map fun i => i.tag.value) = [4294967309, 14, 1] ∧ withoutLatitude.EndsInChecksum ∧
      (∃ m, parseSet Platform.idle withoutLatitude.bytes = .ok (some m)) ∧ ¬ReadsExactly withoutLatitude.bytes 17 := by
  have begins : wideTag.bytes <+: withoutLatitude.bytes.drop 17 := by decide +kernel
  refine ⟨by decide +kernel, (endsInChecksum_iff _).mpr ⟨by decide +kernel, ?_⟩, ?_, fun exact => ?_⟩
  · exact ⟨_, rfl, rfl, rfl⟩
  · exact ⟨{ raw := withoutLatitude.bytes }, by decide +kernel⟩
  · obtain ⟨t, begins', -, number⟩ := exact _ _ (read_of_begins begins)
    obtain rfl := tag_prefix_unique begins begins'
    exact absurd number (by decide +kernel)

end KlvProof
