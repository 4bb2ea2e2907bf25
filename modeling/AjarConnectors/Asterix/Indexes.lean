import AjarConnectors.Asterix.Decoders

namespace AsterixModel

open EventModel

/-- Each item that a decoder reads has the octets it needs, by the UAP alone. -/
def Covered (uap : Uap) (needs : Nat → Nat) : Prop := ∀ entry ∈ uap, needs entry.1.number ≤ shortest entry.2

def SubsCovered (subs : List Field) (needs : Nat → Nat) : Prop := ∀ entry ∈ subs.zipIdx, needs entry.2 ≤ shortest entry.1

namespace Cat010

/-- The octets `decode` indexes of an item: one more than its last fixed index. -/
def needs : Nat → Nat
  | 0 | 20 | 300 | 270 => 1
  | 10 | 161 | 60 | 90 | 91 | 500 => 2
  | 140 | 220 => 3
  | 40 | 42 | 200 | 202 => 4
  | 41 => 8
  | _ => 0

end Cat010

namespace Cat021

def needs : Nat → Nat
  | 20 => 1
  | 10 | 161 | 140 | 70 | 145 => 2
  | 80 => 3
  | 160 => 4
  | 130 => 6
  | 131 => 8
  | _ => 0

end Cat021

namespace Cat034

def needs : Nat → Nat
  | 0 | 20 => 1
  | 10 | 41 => 2
  | 30 => 3
  | 100 | 120 => 8
  | _ => 0

def needs050 : Nat → Nat
  | 0 | 3 | 4 | 5 => 1
  | _ => 0

end Cat034

namespace Cat048

def needs : Nat → Nat
  | 20 => 1
  | 10 | 70 | 90 | 161 => 2
  | 140 | 220 => 3
  | 40 | 200 => 4
  | _ => 0

end Cat048

namespace Cat062

def needs : Nat → Nat
  | 10 | 60 | 40 | 136 | 220 => 2
  | 70 => 3
  | 185 => 4
  | 105 => 8
  | _ => 0

def needs380 : Nat → Nat
  | 0 => 3
  | _ => 0

def needs500 : Nat → Nat
  | 4 => 1
  | 5 => 2
  | 0 => 4
  | _ => 0

end Cat062

/-- The fixed indexes of the five decoders lie within the items that the walks hand them. -/
structure IndexesInside (floats : Sphere) : Prop where
  walked : ∀ cat uap data off next items, walkRecord cat uap data off = .ok (items, next) → Guaranteed uap items
  parts : ∀ subs item, SubsGuaranteed subs (walkCompound subs item)
  cat010 : ∀ items sensor, Guaranteed Cat010.uap items → ∃ t, Cat010.decode floats items sensor = some t
  cat021 : ∀ items, Guaranteed Cat021.uap items → ∃ t, Cat021.decode floats items = some t
  cat034 : ∀ items, Guaranteed Cat034.uap items → ∃ r, Cat034.decodeChecked floats.toFloats items = some r
  cat048 : ∀ items sensor, Guaranteed Cat048.uap items → ∃ t, Cat048.decode floats items sensor = some t
  cat062 : ∀ items, Guaranteed Cat062.uap items → ∃ t, Cat062.decode floats items = some t

end AsterixModel

namespace AsterixProof

open EventModel AsterixModel

instance (uap : Uap) (needs : Nat → Nat) : Decidable (Covered uap needs) :=
  inferInstanceAs (Decidable (∀ entry ∈ uap, needs entry.1.number ≤ shortest entry.2))

instance (subs : List Field) (needs : Nat → Nat) : Decidable (SubsCovered subs needs) :=
  inferInstanceAs (Decidable (∀ entry ∈ subs.zipIdx, needs entry.2 ≤ shortest entry.1))

theorem cat010_covered : Covered Cat010.uap Cat010.needs := by decide

theorem cat021_covered : Covered Cat021.uap Cat021.needs := by decide

theorem cat034_covered : Covered Cat034.uap Cat034.needs := by decide

theorem sub050_covered : SubsCovered Cat034.sub050 Cat034.needs050 := by decide

theorem cat048_covered : Covered Cat048.uap Cat048.needs := by decide

theorem cat062_covered : Covered Cat062.uap Cat062.needs := by decide

theorem sub380_covered : SubsCovered Cat062.sub380 Cat062.needs380 := by decide

theorem sub500_covered : SubsCovered Cat062.sub500 Cat062.needs500 := by decide

theorem covered_items {uap : Uap} {needs : Nat → Nat} {items : Items} (covered : Covered uap needs)
    (guaranteed : Guaranteed uap items) : ∀ entry ∈ items, needs entry.1.number ≤ entry.2.length := by
  intro entry member
  obtain ⟨field, listed, long⟩ := guaranteed entry member
  exact Nat.le_trans (covered _ listed) long

theorem covered_subs {subs : List Field} {needs : Nat → Nat} (covered : SubsCovered subs needs) (data : Bytes) :
    ∀ part ∈ walkCompound subs data, needs part.1 ≤ part.2.length := by
  intro part member
  obtain ⟨sub, listed, long⟩ := walkCompound_guaranteed subs data part member
  have place : (sub, part.1) ∈ subs.zipIdx := List.mk_mem_zipIdx_iff_getElem?.mpr listed
  exact Nat.le_trans (covered _ place) long

section

variable (floats : Sphere) (t : TrackReport) {entry : Item × Bytes}

theorem cat010_reads (long : Cat010.needs entry.1.number ≤ entry.2.length) :
    ∃ t', Cat010.decodeItem floats t entry = some t' := by
  obtain ⟨⟨number⟩, item⟩ := entry
  dsimp only at long
  unfold Cat010.decodeItem
  dsimp only
  split
  · exact readSource_returns long
  · change 1 ≤ item.length at long
    rw [List.getElem?_eq_getElem (by omega)]
    exact ⟨_, rfl⟩
  · change 1 ≤ item.length at long
    rw [List.getElem?_eq_getElem (by omega)]
    exact ⟨_, rfl⟩
  · rw [timeOfDaySChecked_inside floats.toFloats long]
    exact ⟨_, rfl⟩
  · exact readPos_returns long
  · change 4 ≤ item.length at long
    rw [u16Checked_inside (by omega), u16Checked_inside (by omega)]
    exact ⟨_, rfl⟩
  · change 4 ≤ item.length at long
    rw [signedChecked_inside floats.toFloats (by omega), signedChecked_inside floats.toFloats (by omega)]
    exact ⟨_, rfl⟩
  · exact readVector_returns long
  · change 4 ≤ item.length at long
    rw [signedChecked_inside floats.toFloats (by omega), signedChecked_inside floats.toFloats (by omega)]
    exact ⟨_, rfl⟩
  · rw [u16Checked_inside long]
    exact ⟨_, rfl⟩
  · exact readSquawk_returns long
  · exact readAddress_returns long
  · obtain ⟨id, read⟩ := idBehindStatus_returns item
    rw [read]
    exact ⟨_, rfl⟩
  · change 1 ≤ item.length at long
    rw [List.getElem?_eq_getElem (by omega)]
    exact ⟨_, rfl⟩
  · exact readLevel_returns long
  · rw [signedChecked_inside floats.toFloats long]
    exact ⟨_, rfl⟩
  · change 1 ≤ item.length at long
    rw [List.getElem?_eq_getElem (i := 0) (by omega)]
    exact ⟨_, rfl⟩
  · change 2 ≤ item.length at long
    rw [List.getElem?_eq_getElem (by omega), List.getElem?_eq_getElem (by omega)]
    exact ⟨_, rfl⟩
  · exact ⟨t, rfl⟩

theorem cat021_reads (long : Cat021.needs entry.1.number ≤ entry.2.length) :
    ∃ t', Cat021.decodeItem floats t entry = some t' := by
  obtain ⟨⟨number⟩, item⟩ := entry
  dsimp only at long
  unfold Cat021.decodeItem
  dsimp only
  split
  · exact readSource_returns long
  · rw [u16Checked_inside long]
    exact ⟨_, rfl⟩
  · exact readPos_returns long
  · exact readPos_returns long
  · exact readAddress_returns long
  · rw [i16Checked_inside long]
    exact ⟨_, rfl⟩
  · rw [u16Checked_inside long]
    exact ⟨_, rfl⟩
  · rw [i16Checked_inside long]
    exact ⟨_, rfl⟩
  · exact readVector_returns long
  · obtain ⟨id, read⟩ := aircraftIdChecked_returns item
    rw [read]
    exact ⟨_, rfl⟩
  · change 1 ≤ item.length at long
    rw [List.getElem?_eq_getElem (by omega)]
    exact ⟨_, rfl⟩
  · exact ⟨t, rfl⟩

theorem cat048_reads (long : Cat048.needs entry.1.number ≤ entry.2.length) :
    ∃ t', Cat048.decodeItem floats t entry = some t' := by
  obtain ⟨⟨number⟩, item⟩ := entry
  dsimp only at long
  unfold Cat048.decodeItem
  dsimp only
  split
  · exact readSource_returns long
  · rw [timeOfDaySChecked_inside floats.toFloats long]
    exact ⟨_, rfl⟩
  · change 1 ≤ item.length at long
    rw [List.getElem?_eq_getElem (i := 0) (by omega)]
    exact ⟨_, rfl⟩
  · change 4 ≤ item.length at long
    rw [u16Checked_inside (by omega), u16Checked_inside (by omega)]
    exact ⟨_, rfl⟩
  · exact readSquawk_returns long
  · exact readLevel_returns long
  · exact readAddress_returns long
  · obtain ⟨id, read⟩ := aircraftIdChecked_returns item
    rw [read]
    exact ⟨_, rfl⟩
  · rw [u16Checked_inside long]
    exact ⟨_, rfl⟩
  · exact readVector_returns long
  · exact ⟨t, rfl⟩

theorem derived_reads {part : Nat × Bytes} (long : Cat062.needs380 part.1 ≤ part.2.length) :
    ∃ t', Cat062.decodeDerived t part = some t' := by
  obtain ⟨sub, bytes⟩ := part
  dsimp only at long
  unfold Cat062.decodeDerived
  dsimp only
  split
  · exact readAddress_returns long
  · obtain ⟨id, read⟩ := aircraftIdChecked_returns bytes
    rw [read]
    exact ⟨_, rfl⟩
  · exact ⟨t, rfl⟩

theorem accuracy_reads {part : Nat × Bytes} (long : Cat062.needs500 part.1 ≤ part.2.length) :
    ∃ t', Cat062.decodeAccuracy floats t part = some t' := by
  obtain ⟨sub, bytes⟩ := part
  dsimp only at long
  unfold Cat062.decodeAccuracy
  dsimp only
  split
  · change 4 ≤ bytes.length at long
    rw [u16Checked_inside (by omega), u16Checked_inside (by omega)]
    exact ⟨_, rfl⟩
  · change 1 ≤ bytes.length at long
    rw [List.getElem?_eq_getElem (by omega)]
    exact ⟨_, rfl⟩
  · change 2 ≤ bytes.length at long
    rw [List.getElem?_eq_getElem (by omega), List.getElem?_eq_getElem (by omega)]
    exact ⟨_, rfl⟩
  · exact ⟨t, rfl⟩

theorem sub380_positive : AllUnitsPositive Cat062.sub380 := by simp [Cat062.sub380, AllUnitsPositive, UnitsPositive]

theorem sub500_positive : AllUnitsPositive Cat062.sub500 := by
  simp [Cat062.sub500, AllUnitsPositive, UnitsPositive, List.replicate]

theorem sub050_positive : AllUnitsPositive Cat034.sub050 := by simp [Cat034.sub050, AllUnitsPositive, UnitsPositive]

theorem cat062_reads (long : Cat062.needs entry.1.number ≤ entry.2.length) :
    ∃ t', Cat062.decodeItem floats t entry = some t' := by
  obtain ⟨⟨number⟩, item⟩ := entry
  dsimp only at long
  unfold Cat062.decodeItem
  dsimp only
  split
  · exact readSource_returns long
  · rw [timeOfDaySChecked_inside floats.toFloats long]
    exact ⟨_, rfl⟩
  · exact readPos_returns long
  · change 4 ≤ item.length at long
    rw [i16Checked_inside (by omega), i16Checked_inside (by omega)]
    exact ⟨_, rfl⟩
  · rw [u16Checked_inside long]
    exact ⟨_, rfl⟩
  · obtain ⟨id, read⟩ := idBehindStatus_returns item
    rw [read]
    exact ⟨_, rfl⟩
  · rw [walkCompoundChecked_eq sub380_positive, Option.bind_some]
    exact Partial.foldlM_returns (fun t part member => derived_reads t (covered_subs sub380_covered item part member)) t
  · rw [u16Checked_inside long]
    exact ⟨_, rfl⟩
  · rw [i16Checked_inside long]
    exact ⟨_, rfl⟩
  · rw [i16Checked_inside long]
    exact ⟨_, rfl⟩
  · rw [walkCompoundChecked_eq sub500_positive, Option.bind_some]
    exact Partial.foldlM_returns (fun t part member => accuracy_reads floats t (covered_subs sub500_covered item part member)) t
  · exact ⟨t, rfl⟩

end

theorem statusChecked_eq (s : RadarStatus) {sub : Nat × Bytes} (long : Cat034.needs050 sub.1 ≤ sub.2.length) :
    Cat034.decodeStatusChecked s sub = some (Cat034.decodeStatus s sub) := by
  obtain ⟨i, bytes⟩ := sub
  dsimp only at long
  rw [Cat034.decodeStatusChecked]
  dsimp only
  split
  · rename_i read
    have filled : 0 < bytes.length := by
      rcases read with rfl | rfl | rfl | rfl <;> exact long
    rw [Partial.index_inside 0 filled]
    rfl
  · rename_i other
    rw [Cat034.decodeStatus]
    dsimp only
    split <;> simp at other ⊢

theorem cat034_reads (floats : Floats) (r : ServiceReport) {entry : Item × Bytes}
    (long : Cat034.needs entry.1.number ≤ entry.2.length) :
    Cat034.decodeItemChecked floats r entry = some (Cat034.decodeItem floats r entry) := by
  obtain ⟨⟨number⟩, item⟩ := entry
  dsimp only at long
  unfold Cat034.decodeItemChecked Cat034.decodeItem
  dsimp only
  split
  · change 2 ≤ item.length at long
    rw [Partial.index_inside 0 (by omega), Partial.index_inside 0 (by omega)]
    rfl
  · change 1 ≤ item.length at long
    rw [Partial.index_inside 0 (by omega)]
    rfl
  · rw [timeOfDaySChecked_inside floats long]
    rfl
  · change 1 ≤ item.length at long
    rw [Partial.index_inside 0 (by omega)]
    rfl
  · rw [u16Checked_inside long]
    rfl
  · rw [walkCompoundChecked_eq sub050_positive]
    have statuses := Partial.foldlM_some
      (fun s part member => statusChecked_eq s (covered_subs sub050_covered item part member)) r.status
    simp only [Option.bind_eq_bind, Option.bind_some, statuses]
  · change 8 ≤ item.length at long
    rw [u16Checked_inside (by omega), u16Checked_inside (by omega), u16Checked_inside (by omega),
      u16Checked_inside (by omega)]
    rfl
  · change 8 ≤ item.length at long
    rw [signedChecked_inside floats (by omega), signedChecked_inside floats (by omega),
      signedChecked_inside floats (by omega)]
    rfl
  · simp [*]

theorem cat034_decode (floats : Floats) {items : Items} (guaranteed : Guaranteed Cat034.uap items) :
    Cat034.decodeChecked floats items = some (Cat034.decode floats items) :=
  Partial.foldlM_some (fun r entry member => cat034_reads floats r (covered_items cat034_covered guaranteed entry member)) {}

theorem indexes_inside (floats : Sphere) : IndexesInside floats where
  walked _ _ _ _ _ _ record := walkRecord_guaranteed record
  parts := walkCompound_guaranteed
  cat010 items sensor guaranteed := by
    obtain ⟨t, read⟩ := Partial.foldlM_returns (fun (t : TrackReport) entry member => cat010_reads floats t
      (covered_items cat010_covered guaranteed entry member)) { category := 10 }
    rw [Cat010.decode, read]
    exact ⟨_, rfl⟩
  cat021 items guaranteed :=
    Partial.foldlM_returns (fun t entry member => cat021_reads floats t (covered_items cat021_covered guaranteed entry member)) _
  cat034 items guaranteed := ⟨_, cat034_decode floats.toFloats guaranteed⟩
  cat048 items sensor guaranteed := by
    obtain ⟨t, read⟩ := Partial.foldlM_returns (fun (t : TrackReport) entry member => cat048_reads floats t
      (covered_items cat048_covered guaranteed entry member)) { category := 48 }
    rw [Cat048.decode, read]
    exact ⟨_, rfl⟩
  cat062 items guaranteed :=
    Partial.foldlM_returns (fun t entry member => cat062_reads floats t (covered_items cat062_covered guaranteed entry member)) _

end AsterixProof
