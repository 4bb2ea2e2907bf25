import AjarConnectors.Asterix.Parser
import AjarConnectors.Asterix.Soundness

namespace AsterixModel

/-- `&data[start..stop]`, which fails where the range is not inside the data. -/
def slice (data : Bytes) (start stop : Nat) : Option Bytes :=
  if start ≤ stop ∧ stop ≤ data.length then some ((data.take stop).drop start) else none

/-- The loop of `field_len` on an `Extended` field, which fails where it indexes past the end or does not end. -/
def extentsLenChecked (unit : Nat) (data : Bytes) (off : Nat) : Nat → Nat → Option (Option Nat)
  | 0, _ => none
  | fuel + 1, n =>
    if off + (n + unit) = 0 then some none
    else if data.length ≤ off + (n + unit) - 1 then some none
    else match data[off + (n + unit) - 1]? with
      | none => none
      | some last =>
        if last &&& 0x01 = 0 then some (some (n + unit)) else extentsLenChecked unit data off fuel (n + unit)

mutual

/-- `fieldLen`, with nothing at all where the code fails. -/
def fieldLenChecked : Field → Bytes → Nat → Option (Option Nat)
  | .fixed n, _, _ => some (some n)
  | .spare, _, _ => some (some 0)
  | .extended unit, data, off => extentsLenChecked unit data off (data.length + 1) 0
  | .repetitive item, data, off => some (data[off]?.map fun rep => 1 + rep.toNat * item)
  | .explicit, data, off => some (data[off]?.map UInt8.toNat)
  | .compound subs, data, off =>
    match primaryBits data off with
    | none => some none
    | some bits => subfieldsLenChecked subs bits data off (octetsOf bits)
  | .opaqueField, _, _ => some none

def subfieldsLenChecked : List Field → List Bool → Bytes → Nat → Nat → Option (Option Nat)
  | _, [], _, _, total => some (some total)
  | [], bits, _, _, total => some (if bits.any id then none else some total)
  | _ :: subs, false :: bits, data, off, total => subfieldsLenChecked subs bits data off total
  | sub :: subs, true :: bits, data, off, total =>
    match fieldLenChecked sub data (off + total) with
    | none => none
    | some none => some none
    | some (some n) => subfieldsLenChecked subs bits data off (total + n)

end

def walkSubfieldsChecked (data : Bytes) : List Field → List Bool → Nat → Nat → Option (List (Nat × Bytes))
  | _, [], _, _ => some []
  | subs, false :: bits, i, off => walkSubfieldsChecked data subs.tail bits (i + 1) off
  | [], true :: _, _, _ => some []
  | sub :: subs, true :: bits, i, off =>
    match fieldLenChecked sub data off with
    | none => none
    | some none => some []
    | some (some len) =>
      if data.length < off + len then some []
      else do
        let bytes ← slice data off (off + len)
        let later ← walkSubfieldsChecked data subs bits (i + 1) (off + len)
        some ((i, bytes) :: later)

def walkCompoundChecked (subs : List Field) (data : Bytes) : Option (List (Nat × Bytes)) :=
  match primaryBits data 0 with
  | none => some []
  | some bits => walkSubfieldsChecked data subs bits 0 (octetsOf bits)

/-- The item loop of `walk_record`; its `get`s do not fail. -/
def walkItemsChecked (cat : UInt8) (uap : Uap) (data : Bytes) :
    List Nat → Nat → Option (Except AsterixError (Items × Nat))
  | [], off => some (.ok ([], off))
  | frn :: present, off =>
    match uap[frn - 1]? with
    | none => some (.error (.unsupportedItem cat frn))
    | some (item, field) =>
      match fieldLenChecked field data off with
      | none => none
      | some none => some (.error (match field with
        | .opaqueField | .compound _ => .unsupportedItem cat frn
        | _ => .truncated))
      | some (some len) =>
        if data.length < off + len then some (.error .truncated)
        else match walkItemsChecked cat uap data present (off + len) with
          | none => none
          | some (.error e) => some (.error e)
          | some (.ok (items, next)) => some (.ok ((item, (data.drop off).take len) :: items, next))

def walkRecordChecked (cat : UInt8) (uap : Uap) (data : Bytes) (off : Nat) :
    Option (Except AsterixError (Items × Nat)) :=
  match readFspec (data.drop off) 1 with
  | .error e => some (.error e)
  | .ok (present, octets) => walkItemsChecked cat uap data present (off + octets)

/-- The octets a field holds at least, where it is measured. -/
def shortest : Field → Nat
  | .fixed n => n
  | .extended unit => unit
  | .repetitive _ => 1
  | _ => 0

/-- Each item stands in the UAP, and is as long as its field guarantees. -/
def Guaranteed (uap : Uap) (items : Items) : Prop :=
  ∀ entry ∈ items, ∃ field, (entry.1, field) ∈ uap ∧ shortest field ≤ entry.2.length

/-- The same of the subfields of a compound item, by their positions. -/
def SubsGuaranteed (subs : List Field) (found : List (Nat × Bytes)) : Prop :=
  ∀ part ∈ found, ∃ sub, subs[part.1]? = some sub ∧ shortest sub ≤ part.2.length

end AsterixModel

namespace AsterixProof

open AsterixModel

theorem slice_inside {data : Bytes} {start stop : Nat} (ordered : start ≤ stop) (inside : stop ≤ data.length) :
    slice data start stop = some ((data.take stop).drop start) :=
  if_pos ⟨ordered, inside⟩

/-- A unit of one octet or more uses up the fuel no faster than the data. -/
theorem extentsLenChecked_eq {unit : Nat} (positive : 1 ≤ unit) (data : Bytes) (off : Nat) {fuel n : Nat}
    (enough : data.length < n + fuel) (before : n ≤ data.length) :
    extentsLenChecked unit data off fuel n = some (extentsLen unit data off fuel n) := by
  induction fuel generalizing n with
  | zero => omega
  | succ fuel ih =>
    rw [extentsLenChecked, extentsLen]
    split
    · rfl
    · split
      · rename_i past
        rw [List.getElem?_eq_none past]
      · rename_i inside
        rw [List.getElem?_eq_getElem (Nat.lt_of_not_le inside)]
        dsimp only
        split
        · rfl
        · exact ih (by omega) (by omega)

mutual

theorem fieldLenChecked_eq (field : Field) (positive : UnitsPositive field) (data : Bytes) (off : Nat) :
    fieldLenChecked field data off = some (fieldLen field data off) := by
  cases field with
  | fixed n | spare | repetitive item | explicit | opaqueField => rfl
  | extended unit => exact extentsLenChecked_eq positive data off (by omega) (by omega)
  | compound subs =>
    rw [fieldLenChecked, fieldLen]
    cases primaryBits data off with
    | none => rfl
    | some bits => exact subfieldsLenChecked_eq subs positive bits data off (octetsOf bits)

theorem subfieldsLenChecked_eq (subs : List Field) (positive : AllUnitsPositive subs) (bits : List Bool) (data : Bytes)
    (off total : Nat) : subfieldsLenChecked subs bits data off total = some (subfieldsLen subs bits data off total) := by
  cases subs with
  | nil => cases bits <;> rfl
  | cons sub subs =>
    cases bits with
    | nil => rfl
    | cons bit bits =>
      cases bit with
      | false =>
        rw [subfieldsLenChecked, subfieldsLen]
        exact subfieldsLenChecked_eq subs positive.2 bits data off total
      | true =>
        rw [subfieldsLenChecked, subfieldsLen, fieldLenChecked_eq sub positive.1]
        cases fieldLen sub data (off + total) with
        | none => rfl
        | some n => exact subfieldsLenChecked_eq subs positive.2 bits data off (total + n)

end

theorem allUnitsPositive_tail {subs : List Field} (positive : AllUnitsPositive subs) : AllUnitsPositive subs.tail := by
  cases subs with
  | nil => exact positive
  | cons sub subs => exact positive.2

theorem walkSubfieldsChecked_eq {data : Bytes} {subs : List Field} (positive : AllUnitsPositive subs) (bits : List Bool)
    (i off : Nat) : walkSubfieldsChecked data subs bits i off = some (walkSubfields data subs bits i off) := by
  induction bits generalizing subs i off with
  | nil => cases subs <;> rfl
  | cons bit bits ih =>
    cases bit with
    | false =>
      rw [walkSubfieldsChecked, walkSubfields]
      exact ih (allUnitsPositive_tail positive) (i + 1) off
    | true =>
      cases subs with
      | nil => rfl
      | cons sub subs =>
        rw [walkSubfieldsChecked, walkSubfields, fieldLenChecked_eq sub positive.1]
        cases fieldLen sub data off with
        | none => rfl
        | some len =>
          dsimp only
          split
          · rfl
          · rename_i fits
            have same : (data.take (off + len)).drop off = (data.drop off).take len := by
              rw [List.drop_take, Nat.add_sub_cancel_left]
            rw [slice_inside (Nat.le_add_right off len) (Nat.not_lt.mp fits), ih positive.2, same]
            rfl

theorem walkCompoundChecked_eq {subs : List Field} (positive : AllUnitsPositive subs) (data : Bytes) :
    walkCompoundChecked subs data = some (walkCompound subs data) := by
  rw [walkCompoundChecked, walkCompound]
  cases primaryBits data 0 with
  | none => rfl
  | some bits => exact walkSubfieldsChecked_eq positive bits 0 (octetsOf bits)

section

variable {cat : UInt8} {uap : Uap} (positive : ∀ entry ∈ uap, UnitsPositive entry.2)

include positive

theorem walkItemsChecked_eq (data : Bytes) (present : List Nat) (off : Nat) :
    walkItemsChecked cat uap data present off = some (walkItems cat uap data present off) := by
  induction present generalizing off with
  | nil => rfl
  | cons frn present ih =>
    rw [walkItemsChecked, walkItems]
    cases listed : uap[frn - 1]? with
    | none => rfl
    | some entry =>
      dsimp only
      rw [fieldLenChecked_eq entry.2 (positive entry (List.mem_of_getElem? listed))]
      cases fieldLen entry.2 data off with
      | none => rfl
      | some len =>
        dsimp only
        split
        · rfl
        · rw [ih]
          rcases walkItems cat uap data present (off + len) with e | ⟨items, next⟩ <;> rfl

theorem walkRecordChecked_eq (data : Bytes) (off : Nat) :
    walkRecordChecked cat uap data off = some (walkRecord cat uap data off) := by
  rw [walkRecordChecked, walkRecord]
  rcases readFspec (data.drop off) 1 with e | ⟨present, octets⟩
  · rfl
  · exact walkItemsChecked_eq positive data present (off + octets)

end

theorem extentsLen_shortest {unit : Nat} (data : Bytes) (off : Nat) {fuel n m : Nat}
    (measured : extentsLen unit data off fuel n = some m) : n + unit ≤ m := by
  induction fuel generalizing n with
  | zero => cases measured
  | succ fuel ih =>
    rw [extentsLen] at measured
    split at measured
    · cases measured
    · split at measured
      · cases measured
      · split at measured
        · cases measured
          exact Nat.le_refl _
        · have further := ih measured
          omega

theorem fieldLen_shortest {field : Field} {data : Bytes} {off n : Nat} (measured : fieldLen field data off = some n) :
    shortest field ≤ n := by
  cases field with
  | fixed k =>
    cases measured
    exact Nat.le_refl n
  | extended unit =>
    have further := extentsLen_shortest data off measured
    rw [shortest]
    omega
  | repetitive item =>
    obtain ⟨rep, _, rfl⟩ := Option.map_eq_some_iff.mp measured
    exact Nat.le_add_right 1 _
  | explicit | compound | spare | opaqueField => exact Nat.zero_le n

theorem taken_shortest {field : Field} {data : Bytes} {off len : Nat} (measured : fieldLen field data off = some len)
    (fits : ¬ data.length < off + len) : shortest field ≤ ((data.drop off).take len).length := by
  have long := fieldLen_shortest measured
  rw [List.length_take, List.length_drop]
  omega

theorem walkItems_guaranteed {cat : UInt8} {uap : Uap} {data : Bytes} {present : List Nat} {off next : Nat} {items : Items}
    (walked : walkItems cat uap data present off = .ok (items, next)) : Guaranteed uap items := by
  induction present generalizing off items with
  | nil =>
    cases walked
    intro entry member
    cases member
  | cons frn present ih =>
    rw [walkItems] at walked
    cases listed : uap[frn - 1]? with
    | none =>
      rw [listed] at walked
      cases walked
    | some entry =>
      rw [listed] at walked
      dsimp only at walked
      cases measured : fieldLen entry.2 data off with
      | none =>
        rw [measured] at walked
        cases walked
      | some len =>
        rw [measured] at walked
        dsimp only at walked
        split at walked
        · cases walked
        · rename_i fits
          split at walked
          · cases walked
          · rename_i later next' rest
            cases walked
            exact List.forall_mem_cons.mpr
              ⟨⟨entry.2, List.mem_of_getElem? listed, taken_shortest measured fits⟩, ih rest⟩

theorem walkRecord_guaranteed {cat : UInt8} {uap : Uap} {data : Bytes} {off next : Nat} {items : Items}
    (walked : walkRecord cat uap data off = .ok (items, next)) : Guaranteed uap items := by
  unfold walkRecord at walked
  split at walked
  · cases walked
  · exact walkItems_guaranteed walked

theorem walkSubfields_guaranteed {data : Bytes} {subs rest : List Field} (bits : List Bool) {i : Nat} (off : Nat)
    (place : subs.drop i = rest) : SubsGuaranteed subs (walkSubfields data rest bits i off) := by
  induction bits generalizing rest i off with
  | nil =>
    intro part member
    cases rest <;> cases member
  | cons bit bits ih =>
    cases bit with
    | false =>
      rw [walkSubfields]
      apply ih off
      rw [← place, List.tail_drop]
    | true =>
      cases rest with
      | nil =>
        intro part member
        cases member
      | cons sub rest =>
        have here : subs[i]? = some sub := by
          have head := congrArg (fun l => l[0]?) place
          rw [List.getElem?_drop] at head
          exact head
        have next : subs.drop (i + 1) = rest := by rw [← List.tail_drop, place, List.tail_cons]
        rw [walkSubfields]
        cases measured : fieldLen sub data off with
        | none =>
          intro part member
          cases member
        | some len =>
          dsimp only
          split
          · intro part member
            cases member
          · rename_i fits
            exact List.forall_mem_cons.mpr ⟨⟨sub, here, taken_shortest measured fits⟩, ih (off + len) next⟩

theorem walkCompound_guaranteed (subs : List Field) (data : Bytes) : SubsGuaranteed subs (walkCompound subs data) := by
  rw [walkCompound]
  cases primaryBits data 0 with
  | none =>
    intro part member
    cases member
  | some bits => exact walkSubfields_guaranteed bits (octetsOf bits) rfl

end AsterixProof
