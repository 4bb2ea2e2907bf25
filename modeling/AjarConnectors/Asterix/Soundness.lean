import AjarConnectors.Asterix.Records

namespace AsterixModel

mutual

/-- Extents are at least one octet long, in the field and in its subfields. -/
def UnitsPositive : Field → Prop
  | .extended unit => 1 ≤ unit
  | .compound subs => AllUnitsPositive subs
  | _ => True

def AllUnitsPositive : List Field → Prop
  | [] => True
  | sub :: subs => UnitsPositive sub ∧ AllUnitsPositive subs

end

mutual

/-- No length octet of an explicit field, or of an explicit subfield that is present, is 0. -/
def CountsItself : Field → Bytes → Nat → Prop
  | .explicit, data, off => data[off]? ≠ some 0
  | .compound subs, data, off =>
    match primaryBits data off with
    | none => True
    | some bits => SubfieldsCount subs bits data (off + octetsOf bits)
  | _, _, _ => True

def SubfieldsCount : List Field → List Bool → Bytes → Nat → Prop
  | _, [], _, _ => True
  | [], _ :: _, _, _ => True
  | _ :: subs, false :: bits, data, off => SubfieldsCount subs bits data off
  | sub :: subs, true :: bits, data, off =>
    match fieldLen sub data off with
    | none => True
    | some n => CountsItself sub data off ∧ SubfieldsCount subs bits data (off + n)

end

/-- The same of the items that a record names. -/
def ItemsCount (uap : Uap) (data : Bytes) : List Nat → Nat → Prop
  | [], _ => True
  | frn :: present, off =>
    match uap[frn - 1]? with
    | none => True
    | some (_, field) =>
      match fieldLen field data off with
      | none => True
      | some n => CountsItself field data off ∧ ItemsCount uap data present (off + n)

def RecordCounts (uap : Uap) (data : Bytes) (off : Nat) : Prop :=
  match readFspec (data.drop off) 1 with
  | .error _ => True
  | .ok (present, octets) => ItemsCount uap data present (off + octets)

/-- What a record's items should be: bytes that their fields can have, one behind the other from the FSPEC to the
    next record. -/
structure WellWalked (uap : Uap) (data : Bytes) (off next : Nat) (items : Items) : Prop where
  contiguous : ∃ spec, Chained spec ∧ data = data.take off ++ (spec ++ items.flatMap Prod.snd) ++ data.drop next ∧
    List.Forall₂ (fun entry frn => ∃ field, uap[frn - 1]? = some (entry.1, field) ∧ WellFormed field entry.2) items
      (presentFrns (spec.flatMap presence) 1).1
  consumes : off < next
  inside : next ≤ data.length

end AsterixModel

namespace AsterixProof

open AsterixModel

theorem extents_sound {unit : Nat} (positive : 1 ≤ unit) (data : Bytes) (off : Nat) {fuel n m : Nat}
    (measured : extentsLen unit data off fuel n = some m) :
    n ≤ m ∧ Extents unit ((data.drop (off + n)).take (m - n)) := by
  induction fuel generalizing n with
  | zero => cases measured
  | succ fuel ih =>
    rw [extentsLen] at measured
    split at measured
    · cases measured
    · split at measured
      · cases measured
      · rename_i last found
        obtain ⟨inside, final⟩ := List.getElem?_eq_some_iff.mp found
        have place : off + (n + unit) - 1 = off + n + (unit - 1) := by omega
        have extent : (data.drop (off + n)).take unit = (data.drop (off + n)).take (unit - 1) ++ [last] := by
          have next : unit = (unit - 1) + 1 := by omega
          have there : (data.drop (off + n))[unit - 1]? = some last := by
            rw [List.getElem?_drop, ← place]
            exact found
          conv => lhs; rw [next]
          rw [List.take_add_one, there]
          rfl
        have size : ((data.drop (off + n)).take (unit - 1)).length + 1 = unit := by
          rw [List.length_take, List.length_drop]
          omega
        split at measured
        · rename_i stop
          cases measured
          refine ⟨Nat.le_add_right n unit, ?_⟩
          rw [Nat.add_sub_cancel_left, extent]
          exact Extents.last _ last size stop
        · rename_i go
          obtain ⟨further, rest⟩ := ih measured
          refine ⟨by omega, ?_⟩
          have parts : m - n = unit + (m - (n + unit)) := by omega
          rw [parts, List.take_add, extent, List.drop_drop, Nat.add_assoc, List.append_assoc, List.singleton_append]
          exact Extents.more _ last _ size go rest

theorem chainedBits_sound {data : Bytes} {bits : List Bool} (read : chainedBits data = some bits) :
    ∃ bitmap rest, data = bitmap ++ rest ∧ Chained bitmap ∧ bits = bitmap.flatMap presence := by
  induction data generalizing bits with
  | nil => cases read
  | cons octet data ih =>
    rw [chainedBits] at read
    split at read
    · rename_i stop
      cases read
      exact ⟨[octet], data, rfl, Chained.last octet stop, by simp⟩
    · rename_i go
      obtain ⟨later, found, rfl⟩ := Option.map_eq_some_iff.mp read
      obtain ⟨bitmap, rest, rfl, chained, rfl⟩ := ih found
      exact ⟨octet :: bitmap, rest, rfl, Chained.more octet bitmap go chained, by simp⟩

/-- A bitmap tells where it ends. -/
theorem chained_unique {a b r s : Bytes} (chained : Chained a) (chained' : Chained b) (same : a ++ r = b ++ s) :
    a = b ∧ r = s := by
  induction chained generalizing b with
  | last octet stop =>
    cases chained' with
    | last octet' stop' =>
      rw [List.singleton_append, List.singleton_append, List.cons_eq_cons] at same
      exact ⟨by rw [same.1], same.2⟩
    | more octet' rest go' later =>
      rw [List.singleton_append, List.cons_append, List.cons_eq_cons] at same
      rw [same.1] at stop
      exact absurd stop go'
  | more octet rest go later ih =>
    cases chained' with
    | last octet' stop' =>
      rw [List.singleton_append, List.cons_append, List.cons_eq_cons] at same
      rw [← same.1] at stop'
      exact absurd stop' go
    | more octet' rest' go' later' =>
      rw [List.cons_append, List.cons_append, List.cons_eq_cons] at same
      obtain ⟨equal, tail⟩ := ih later' same.2
      exact ⟨by rw [same.1, equal], tail⟩

theorem subfieldsLen_le (subs : List Field) {bits : List Bool} {data : Bytes} {off total n : Nat}
    (measured : subfieldsLen subs bits data off total = some n) : total ≤ n := by
  induction bits generalizing subs total with
  | nil =>
    have same : total = n := by cases subs <;> exact Option.some.inj measured
    exact Nat.le_of_eq same
  | cons bit bits ih =>
    cases subs with
    | nil =>
      rw [subfieldsLen] at measured
      · split at measured
        · cases measured
        · cases measured
          exact Nat.le_refl _
      · simp
    | cons sub subs =>
      cases bit with
      | false => exact ih subs measured
      | true =>
        rw [subfieldsLen] at measured
        split at measured
        · cases measured
        · exact Nat.le_trans (Nat.le_add_right _ _) (ih subs measured)

mutual

/-- Bytes that were measured are bytes the field can have, exactly if its explicit lengths count themselves. -/
theorem fieldLen_sound : (field : Field) → UnitsPositive field → ∀ data off n, fieldLen field data off = some n →
    off + n ≤ data.length → (WellFormed field ((data.drop off).take n) ↔ CountsItself field data off)
  | .fixed k, positive, data, off, n, measured, fits => by
    cases measured
    apply iff_of_true _ trivial
    change ((data.drop off).take k).length = k
    rw [List.length_take, List.length_drop]
    omega
  | .spare, positive, data, off, n, measured, fits => by
    cases measured
    exact iff_of_true List.take_zero trivial
  | .opaqueField, positive, data, off, n, measured, fits => by cases measured
  | .extended unit, positive, data, off, n, measured, fits => by
    rw [fieldLen] at measured
    exact iff_of_true (extents_sound positive data off measured).2 trivial
  | .repetitive item, positive, data, off, n, measured, fits => by
    obtain ⟨rep, found, rfl⟩ := Option.map_eq_some_iff.mp measured
    obtain ⟨inside, here⟩ := List.getElem?_eq_some_iff.mp found
    apply iff_of_true _ trivial
    refine ⟨rep, (data.drop (off + 1)).take (rep.toNat * item), ?_, ?_⟩
    · rw [List.drop_eq_getElem_cons inside, here, Nat.add_comm 1, List.take_succ_cons]
    · rw [List.length_take, List.length_drop]
      omega
  | .explicit, positive, data, off, n, measured, fits => by
    obtain ⟨len, found, rfl⟩ := Option.map_eq_some_iff.mp measured
    obtain ⟨inside, here⟩ := List.getElem?_eq_some_iff.mp found
    rw [WellFormed, CountsItself, found]
    by_cases zero : len = 0
    · subst zero
      apply iff_of_false
      · rintro ⟨len', rest, empty, _⟩
        cases empty
      · exact fun different => different rfl
    · have filled : len.toNat ≠ 0 := fun none => zero (UInt8.toNat_inj.mp none)
      apply iff_of_true
      · refine ⟨len, (data.drop (off + 1)).take (len.toNat - 1), ?_, ?_⟩
        · have next : len.toNat = len.toNat - 1 + 1 := by omega
          conv => lhs; rw [next]
          rw [List.drop_eq_getElem_cons inside, here, List.take_succ_cons]
        · rw [List.length_take, List.length_drop]
          omega
      · rintro same
        cases same
        exact zero rfl
  | .compound subs, positive, data, off, n, measured, fits => by
    rw [fieldLen] at measured
    rw [CountsItself]
    cases read : primaryBits data off with
    | none =>
      rw [read] at measured
      cases measured
    | some bits =>
      rw [read] at measured
      dsimp only at measured ⊢
      obtain ⟨bitmap, rest, parts, chained, rfl⟩ := chainedBits_sound read
      rw [octetsOf_presence] at measured ⊢
      have least := subfieldsLen_le subs measured
      rw [← subfieldsLen_sound subs positive _ 0 data off bitmap.length n measured fits]
      have tail : data.drop (off + bitmap.length) = rest := by
        rw [← List.drop_drop, parts, List.drop_left]
      have whole : (data.drop off).take n = bitmap ++ rest.take (n - bitmap.length) := by
        rw [parts, List.take_append, List.take_of_length_le least]
      rw [tail, whole]
      constructor
      · rintro ⟨bitmap', found, chained', formed, same⟩
        obtain ⟨rfl, bytes⟩ := chained_unique chained chained' same
        exact ⟨found, formed, bytes.symm⟩
      · rintro ⟨found, formed, bytes⟩
        exact ⟨bitmap, found, chained, formed, by rw [bytes]⟩

theorem subfieldsLen_sound : (subs : List Field) → AllUnitsPositive subs → ∀ bits i data off total n,
    subfieldsLen subs bits data off total = some n → off + n ≤ data.length →
    ((∃ parts, PartsFormed subs bits i parts ∧ parts.flatMap Prod.snd = (data.drop (off + total)).take (n - total)) ↔
      SubfieldsCount subs bits data (off + total))
  | subs, positive, [], i, data, off, total, n, measured, fits => by
    have same : total = n := by cases subs <;> exact Option.some.inj measured
    subst same
    apply iff_of_true
    · refine ⟨[], ?_, by simp⟩
      cases subs <;> rfl
    · cases subs <;> trivial
  | [], positive, bit :: bits, i, data, off, total, n, measured, fits => by
    rw [subfieldsLen] at measured
    · split at measured
      · cases measured
      · rename_i unset
        cases measured
        apply iff_of_true _ trivial
        exact ⟨[], ⟨Bool.eq_false_iff.mpr unset, rfl⟩, by simp⟩
    · simp
  | _ :: subs, positive, false :: bits, i, data, off, total, n, measured, fits =>
    subfieldsLen_sound subs positive.2 bits (i + 1) data off total n measured fits
  | sub :: subs, positive, true :: bits, i, data, off, total, n, measured, fits => by
    rw [subfieldsLen] at measured
    rw [SubfieldsCount]
    cases found : fieldLen sub data (off + total) with
    | none =>
      rw [found] at measured
      cases measured
    | some len =>
      rw [found] at measured
      dsimp only at measured ⊢
      have least := subfieldsLen_le subs measured
      have first := fieldLen_sound sub positive.1 data (off + total) len found (by omega)
      have rest := subfieldsLen_sound subs positive.2 bits (i + 1) data off (total + len) n measured fits
      have parts : (data.drop (off + total)).take (n - total) = (data.drop (off + total)).take len ++
          (data.drop (off + total + len)).take (n - (total + len)) := by
        have split : n - total = len + (n - (total + len)) := by omega
        rw [split, List.take_add, List.drop_drop]
      rw [Nat.add_assoc] at parts ⊢
      rw [← first, ← rest, parts]
      constructor
      · rintro ⟨entries, ⟨bytes, later, rfl, formed, others⟩, same⟩
        rw [List.flatMap_cons] at same
        -- the bytes of the subfield are measured at their own length
        have around : data = data.take (off + total) ++ bytes ++
            (later.flatMap Prod.snd ++ (data.drop (off + total)).drop (n - total)) := by
          have whole := List.take_append_drop (n - total) (data.drop (off + total))
          rw [parts, ← same] at whole
          rw [List.append_assoc, ← List.append_assoc bytes, whole, List.take_append_drop]
        have start : (data.take (off + total)).length = off + total := by
          rw [List.length_take]
          omega
        have again := fieldLen_formed sub bytes (data.take (off + total))
          (later.flatMap Prod.snd ++ (data.drop (off + total)).drop (n - total)) formed
        rw [← around, start, found, Option.some_inj] at again
        have size : bytes.length = ((data.drop (off + total)).take len).length := by
          rw [List.length_take, List.length_drop]
          omega
        obtain ⟨own, tail⟩ := List.append_inj same size
        rw [← own]
        exact ⟨formed, later, others, tail⟩
      · rintro ⟨formed, later, others, tail⟩
        exact ⟨_, ⟨_, later, rfl, formed, others⟩, by rw [List.flatMap_cons, tail]⟩

end

theorem readFspec_sound {data : Bytes} {frn : Nat} {present : List Nat} {octets : Nat}
    (read : readFspec data frn = .ok (present, octets)) :
    ∃ spec rest, data = spec ++ rest ∧ spec.length = octets ∧ Chained spec ∧
      present = (presentFrns (spec.flatMap presence) frn).1 := by
  induction data generalizing frn present octets with
  | nil => cases read
  | cons octet data ih =>
    rw [readFspec] at read
    split at read
    · rename_i stop
      cases read
      exact ⟨[octet], data, rfl, rfl, Chained.last octet stop, by simp⟩
    · rename_i go
      split at read
      · cases read
      · rename_i later octets' found
        cases read
        obtain ⟨spec, rest, rfl, size, chained, rfl⟩ := ih found
        refine ⟨octet :: spec, rest, rfl, by rw [List.length_cons, size], Chained.more octet spec go chained, ?_⟩
        rw [List.flatMap_cons, presentFrns_append]

/-- The items of a walk stand one behind the other, and are what their fields can have exactly if every length counts
    itself. -/
theorem walkItems_sound {cat : UInt8} {uap : Uap} (positive : ∀ entry ∈ uap, UnitsPositive entry.2) {data : Bytes}
    {present : List Nat} {off next : Nat} {items : Items} (walked : walkItems cat uap data present off = .ok (items, next))
    (start : off ≤ data.length) :
    next ≤ data.length ∧ data.drop off = items.flatMap Prod.snd ++ data.drop next ∧
    off + (items.flatMap Prod.snd).length = next ∧
    (List.Forall₂ (fun entry frn => ∃ field, uap[frn - 1]? = some (entry.1, field) ∧ WellFormed field entry.2)
      items present ↔ ItemsCount uap data present off) := by
  induction present generalizing off items with
  | nil =>
    cases walked
    exact ⟨start, rfl, rfl, iff_of_true List.Forall₂.nil trivial⟩
  | cons frn present ih =>
    rw [walkItems] at walked
    rw [ItemsCount]
    cases listed : uap[frn - 1]? with
    | none =>
      rw [listed] at walked
      cases walked
    | some entry =>
      obtain ⟨item, field⟩ := entry
      rw [listed] at walked
      dsimp only at walked ⊢
      cases measured : fieldLen field data off with
      | none =>
        rw [measured] at walked
        cases walked
      | some len =>
        rw [measured] at walked
        dsimp only at walked ⊢
        split at walked
        · cases walked
        · rename_i fits
          have inside := Nat.not_lt.mp fits
          split at walked
          · cases walked
          · rename_i later next' rest
            cases walked
            obtain ⟨bound, bytes, size, formed⟩ := ih rest inside
            have own := fieldLen_sound field (positive _ (List.mem_of_getElem? listed)) data off len measured inside
            have length : ((data.drop off).take len).length = len := by
              rw [List.length_take, List.length_drop]
              omega
            refine ⟨bound, ?_, ?_, ?_⟩
            · rw [List.flatMap_cons, List.append_assoc, ← bytes, ← List.drop_drop, List.take_append_drop]
            · rw [List.flatMap_cons, List.length_append, length, ← size, Nat.add_assoc]
            · rw [List.forall₂_cons, formed, ← own]
              apply and_congr_left
              intro _
              constructor
              · rintro ⟨field', listed', fine⟩
                rw [listed] at listed'
                cases listed'
                exact fine
              · exact fun fine => ⟨field, listed, fine⟩

theorem readFspec_octets {data : Bytes} {off : Nat} {present : List Nat} {octets : Nat}
    (read : readFspec (data.drop off) 1 = .ok (present, octets)) : 0 < octets ∧ off + octets ≤ data.length := by
  obtain ⟨spec, rest, parts, size, chained, _⟩ := readFspec_sound read
  have some_octet : 0 < spec.length := by cases chained <;> simp
  have whole := congrArg List.length parts
  rw [List.length_drop, List.length_append] at whole
  omega

/-- What a walk accepts is well formed exactly if no explicit length that the record names is 0. -/
theorem record_is_well_walked_iff (cat : UInt8) (uap : Uap) (positive : ∀ entry ∈ uap, UnitsPositive entry.2)
    (data : Bytes) (off next : Nat) (items : Items) (walked : walkRecord cat uap data off = .ok (items, next)) :
    WellWalked uap data off next items ↔ RecordCounts uap data off := by
  rw [walkRecord] at walked
  unfold RecordCounts
  cases read : readFspec (data.drop off) 1 with
  | error e =>
    rw [read] at walked
    cases walked
  | ok found =>
    obtain ⟨present, octets⟩ := found
    rw [read] at walked
    dsimp only at walked ⊢
    obtain ⟨some_octet, inside⟩ := readFspec_octets read
    obtain ⟨spec, rest, parts, rfl, chained, rfl⟩ := readFspec_sound read
    obtain ⟨bound, bytes, size, formed⟩ := walkItems_sound positive walked inside
    have tail : data.drop (off + spec.length) = rest := by rw [← List.drop_drop, parts, List.drop_left]
    rw [tail] at bytes
    rw [← formed]
    constructor
    · rintro ⟨⟨spec', chained', whole, fine⟩, _⟩
      have start : (data.take off).length = off := by
        rw [List.length_take]
        omega
      have behind := congrArg (List.drop off) whole
      rw [List.append_assoc, List.drop_append_of_le_length (Nat.le_of_eq start.symm),
        List.drop_of_length_le (Nat.le_of_eq start), List.nil_append, parts, List.append_assoc] at behind
      obtain ⟨rfl, _⟩ := chained_unique chained chained' behind
      exact fine
    · intro fine
      refine ⟨⟨spec, chained, ?_, fine⟩, by omega, bound⟩
      rw [List.append_assoc, List.append_assoc, ← bytes, ← parts, List.take_append_drop]

def explicitUap : Uap := [(Item.re, .explicit), (⟨140⟩, .fixed 3)]

/-- A record with an RE item of two octets and a time of day. -/
theorem counted_length_is_walked : WellWalked explicitUap [0xc0, 2, 9, 1, 2, 3] 0 6 [(Item.re, [2, 9]), (⟨140⟩, [1, 2, 3])] := by
  have positive : ∀ entry ∈ explicitUap, UnitsPositive entry.2 := by simp [explicitUap, UnitsPositive]
  apply (record_is_well_walked_iff 48 explicitUap positive [0xc0, 2, 9, 1, 2, 3] 0 6 _ rfl).mpr
  have counted : ([0xc0, 2, 9, 1, 2, 3] : Bytes)[1]? ≠ some 0 := by decide
  exact ⟨counted, trivial, trivial⟩

/-- An RE item whose length octet is 0 is accepted with no bytes, and its octet is read again as the next item's first. -/
theorem empty_explicit_is_accepted :
    ¬ ∀ (cat : UInt8) (uap : Uap) (data : Bytes) (off next : Nat) (items : Items),
      (∀ entry ∈ uap, UnitsPositive entry.2) → walkRecord cat uap data off = .ok (items, next) →
      WellWalked uap data off next items := by
  intro all
  have positive : ∀ entry ∈ explicitUap, UnitsPositive entry.2 := by simp [explicitUap, UnitsPositive]
  have sound := all 48 explicitUap [0xc0, 0, 1, 2] 0 4 [(Item.re, []), (⟨140⟩, [0, 1, 2])] positive rfl
  obtain ⟨spec, chained, whole, formed⟩ := sound.contiguous
  generalize (presentFrns (spec.flatMap presence) 1).1 = frns at formed
  cases formed with
  | cons first _ =>
    obtain ⟨field, listed, fine⟩ := first
    have member := List.mem_of_getElem? listed
    simp [explicitUap, Item.re] at member
    subst member
    obtain ⟨len, rest, none, _⟩ := fine
    cases none

end AsterixProof
