import AjarConnectors.Asterix.Soundness

namespace AsterixModel

mutual

/-- Neither explicit nor opaque, with extents of at least one octet, and its subfields too. -/
def Measured : Field → Prop
  | .fixed _ | .repetitive _ | .spare => True
  | .extended unit => 1 ≤ unit
  | .compound subs => AllMeasured subs
  | .explicit | .opaqueField => False

def AllMeasured : List Field → Prop
  | [] => True
  | sub :: subs => Measured sub ∧ AllMeasured subs

end

/-- The places of the set bits, in bit order. -/
def setBits (bits : List Bool) : List Nat := (bits.zipIdx.filter Prod.fst).map Prod.snd

end AsterixModel

namespace AsterixProof

open AsterixModel

mutual

theorem unitsPositive_of_measured : (field : Field) → Measured field → UnitsPositive field
  | .fixed _, _ => trivial
  | .repetitive _, _ => trivial
  | .spare, _ => trivial
  | .extended _, positive => positive
  | .compound subs, table => allUnitsPositive_of_measured subs table
  | .explicit, _ => trivial
  | .opaqueField, _ => trivial

theorem allUnitsPositive_of_measured : (subs : List Field) → AllMeasured subs → AllUnitsPositive subs
  | [], _ => trivial
  | sub :: subs, table => ⟨unitsPositive_of_measured sub table.1, allUnitsPositive_of_measured subs table.2⟩

end

mutual

/-- Without explicit fields there is no length octet that could be 0. -/
theorem countsItself_of_measured : (field : Field) → Measured field → ∀ data off, CountsItself field data off
  | .fixed _, _, _, _ => trivial
  | .repetitive _, _, _, _ => trivial
  | .spare, _, _, _ => trivial
  | .extended _, _, _, _ => trivial
  | .explicit, table, _, _ => absurd table id
  | .opaqueField, _, _, _ => trivial
  | .compound subs, table, data, off => by
    rw [CountsItself]
    cases primaryBits data off with
    | none => exact trivial
    | some bits => exact subfieldsCount_of_measured subs table bits data _

theorem subfieldsCount_of_measured : (subs : List Field) → AllMeasured subs → ∀ bits data off,
    SubfieldsCount subs bits data off
  | [], _, [], _, _ => trivial
  | _ :: _, _, [], _, _ => trivial
  | [], _, _ :: _, _, _ => trivial
  | _ :: subs, table, false :: bits, data, off => subfieldsCount_of_measured subs table.2 bits data off
  | sub :: subs, table, true :: bits, data, off => by
    rw [SubfieldsCount]
    cases fieldLen sub data off with
    | none => exact trivial
    | some n => exact ⟨countsItself_of_measured sub table.1 data off, subfieldsCount_of_measured subs table.2 bits data _⟩

end

theorem partsFormed_places (bits : List Bool) {subs : List Field} {i : Nat} {parts : List (Nat × Bytes)}
    (formed : PartsFormed subs bits i parts) : parts.map Prod.fst = ((bits.zipIdx i).filter Prod.fst).map Prod.snd := by
  induction bits generalizing subs i parts with
  | nil =>
    have empty : parts = [] := by cases subs <;> exact formed
    rw [empty]
    rfl
  | cons bit bits ih =>
    cases subs with
    | nil =>
      obtain ⟨unset, rfl⟩ : (bit :: bits).any id = false ∧ parts = [] := formed
      obtain ⟨rfl, later⟩ : bit = false ∧ bits.any id = false := by simpa using unset
      have others : PartsFormed [] bits (i + 1) [] := by
        cases bits with
        | nil => rfl
        | cons _ _ => exact ⟨later, rfl⟩
      exact ih others
    | cons sub subs =>
      cases bit with
      | false => exact ih formed
      | true =>
        obtain ⟨bytes, later, rfl, _, others⟩ := formed
        exact congrArg (i :: ·) (ih others)

theorem partsFormed_fields (bits : List Bool) {subs : List Field} {i : Nat} {parts : List (Nat × Bytes)}
    (formed : PartsFormed subs bits i parts) : ∀ part ∈ parts, ∃ field, i ≤ part.1 ∧ subs[part.1 - i]? = some field ∧
      WellFormed field part.2 := by
  induction bits generalizing subs i parts with
  | nil =>
    have empty : parts = [] := by cases subs <;> exact formed
    rw [empty]
    exact List.forall_mem_nil _
  | cons bit bits ih =>
    cases subs with
    | nil =>
      obtain ⟨-, rfl⟩ : (bit :: bits).any id = false ∧ parts = [] := formed
      exact List.forall_mem_nil _
    | cons sub subs =>
      have behind {parts : List (Nat × Bytes)} (others : PartsFormed subs bits (i + 1) parts) :
          ∀ part ∈ parts, ∃ field, i ≤ part.1 ∧ (sub :: subs)[part.1 - i]? = some field ∧ WellFormed field part.2 := by
        intro part member
        obtain ⟨field, least, found, fits⟩ := ih others part member
        have next : part.1 - i = part.1 - (i + 1) + 1 := by omega
        refine ⟨field, by omega, ?_, fits⟩
        rw [next, List.getElem?_cons_succ]
        exact found
      cases bit with
      | false => exact behind formed
      | true =>
        obtain ⟨bytes, later, rfl, fits, others⟩ := formed
        intro part member
        rcases List.mem_cons.mp member with rfl | member
        · refine ⟨sub, Nat.le_refl i, ?_, fits⟩
          rw [Nat.sub_self]
          rfl
        · exact behind others part member

/-- What was measured as one compound item is taken apart into all its subfields, and nothing is left over. -/
theorem compound_walk_agrees {subs : List Field} (table : AllMeasured subs) {data : Bytes} {off n : Nat}
    (measured : fieldLen (.compound subs) data off = some n) (inside : off + n ≤ data.length) :
    ∃ bits, primaryBits data off = some bits ∧
      (walkCompound subs ((data.drop off).take n)).map Prod.fst = setBits bits ∧
      (∀ part ∈ walkCompound subs ((data.drop off).take n), ∃ field, subs[part.1]? = some field ∧ WellFormed field part.2) ∧
      (data.drop off).take (octetsOf bits) ++ (walkCompound subs ((data.drop off).take n)).flatMap Prod.snd =
        (data.drop off).take n := by
  have formed := (fieldLen_sound (.compound subs) (allUnitsPositive_of_measured subs table) data off n measured inside).mpr
    (countsItself_of_measured (.compound subs) table data off)
  obtain ⟨bitmap, parts, chained, fits, bytes⟩ := formed
  have walked : walkCompound subs ((data.drop off).take n) = parts := by
    rw [bytes]
    exact walkCompound_formed subs bitmap parts chained fits
  have begins : data.drop off = bitmap ++ (parts.flatMap Prod.snd ++ (data.drop off).drop n) := by
    rw [← List.append_assoc, ← bytes, List.take_append_drop]
  refine ⟨bitmap.flatMap presence, ?_, ?_, ?_, ?_⟩
  · rw [primaryBits, begins]
    exact chainedBits_chained chained _
  · rw [walked]
    exact partsFormed_places _ fits
  · rw [walked]
    intro part member
    obtain ⟨field, -, found, right⟩ := partsFormed_fields _ fits part member
    exact ⟨field, found, right⟩
  · have front : (data.drop off).take bitmap.length = bitmap := by rw [begins, List.take_left]
    rw [walked, octetsOf_presence, front, bytes]

/-- A repetitive subfield, and a nested compound with an extended one. -/
theorem nested_compound_is_walked :
    [0x60] ++ (walkCompound [.fixed 1, .repetitive 2, .compound [.spare, .extended 1]] [0x60, 1, 7, 8, 0x40, 3, 4]).flatMap
      Prod.snd = [0x60, 1, 7, 8, 0x40, 3, 4] := by
  have table : AllMeasured [.fixed 1, .repetitive 2, .compound [.spare, .extended 1]] :=
    ⟨trivial, trivial, ⟨trivial, Nat.le_refl 1, trivial⟩, trivial⟩
  have measured : fieldLen (.compound [.fixed 1, .repetitive 2, .compound [.spare, .extended 1]])
      [9, 0x60, 1, 7, 8, 0x40, 3, 4, 5] 1 = some 7 := by decide
  obtain ⟨bits, read, -, -, bytes⟩ := compound_walk_agrees table measured (by decide)
  cases read
  exact bytes

end AsterixProof
