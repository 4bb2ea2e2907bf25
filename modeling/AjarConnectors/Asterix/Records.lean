import AjarConnectors.Asterix.Field
import Mathlib.Data.List.Forall2

namespace AsterixModel

/-- Extents of so many octets, the low bit of the last octet set in each but the last extent. -/
inductive Extents (unit : Nat) : Bytes → Prop where
  | last (octets : Bytes) (final : UInt8) :
      octets.length + 1 = unit → final &&& 0x01 = 0 → Extents unit (octets ++ [final])
  | more (octets : Bytes) (final : UInt8) (rest : Bytes) :
      octets.length + 1 = unit → final &&& 0x01 ≠ 0 → Extents unit rest → Extents unit (octets ++ final :: rest)

/-- Octets with the low bit set in each but the last. -/
inductive Chained : Bytes → Prop where
  | last (octet : UInt8) : octet &&& 0x01 = 0 → Chained [octet]
  | more (octet : UInt8) (rest : Bytes) : octet &&& 0x01 ≠ 0 → Chained rest → Chained (octet :: rest)

mutual

/-- The bytes a field can have on the wire. -/
def WellFormed : Field → Bytes → Prop
  | .fixed n, bytes => bytes.length = n
  | .extended unit, bytes => Extents unit bytes
  | .repetitive item, bytes => ∃ rep rest, bytes = rep :: rest ∧ rest.length = rep.toNat * item
  | .explicit, bytes => ∃ len rest, bytes = len :: rest ∧ len.toNat = bytes.length
  | .compound subs, bytes => ∃ bitmap parts, Chained bitmap ∧ PartsFormed subs (bitmap.flatMap presence) 0 parts ∧
      bytes = bitmap ++ parts.flatMap Prod.snd
  | .spare, bytes => bytes = []
  | .opaqueField, _ => False

/-- The subfields a bitmap announces, each with its position and bytes it can have. -/
def PartsFormed : List Field → List Bool → Nat → List (Nat × Bytes) → Prop
  | _, [], _, parts => parts = []
  | [], bits, _, parts => bits.any id = false ∧ parts = []
  | _ :: subs, false :: bits, i, parts => PartsFormed subs bits (i + 1) parts
  | sub :: subs, true :: bits, i, parts =>
    ∃ bytes later, parts = (i, bytes) :: later ∧ WellFormed sub bytes ∧ PartsFormed subs bits (i + 1) later

end

def placesOf (uap : Uap) (entries : Items) : List Nat := entries.filterMap fun entry => position uap entry.1

/-- A choice of the items of a UAP, in UAP order, each with bytes its field can have. -/
structure Record (uap : Uap) where
  entries : Items
  formed : ∀ entry ∈ entries, ∃ place field,
    position uap entry.1 = some place ∧ uap[place]? = some (entry.1, field) ∧ WellFormed field entry.2
  ordered : (placesOf uap entries).Pairwise (· < ·)

namespace Record

variable {uap : Uap}

/-- The FSPEC that names the record's items, and their bytes. -/
def fspec (record : Record uap) : Bytes := (AsterixModel.fspec uap (record.entries.map Prod.fst)).getD []

def bytes (record : Record uap) : Bytes := record.entries.flatMap Prod.snd

def encode (record : Record uap) : Bytes := record.fspec ++ record.bytes

end Record

end AsterixModel

namespace AsterixProof

open AsterixModel

theorem extentsLen_extents {unit : Nat} {bytes : Bytes} (extents : Extents unit bytes) (before after : Bytes)
    (off n fuel : Nat) (place : off + n = before.length) (enough : bytes.length ≤ fuel) :
    extentsLen unit (before ++ bytes ++ after) off fuel n = some (n + bytes.length) := by
  induction extents generalizing before n fuel with
  | last octets final size stop =>
    obtain ⟨fuel, rfl⟩ : ∃ k, fuel = k + 1 := ⟨fuel - 1, by simp at enough; omega⟩
    have some_octet : ¬ off + (n + unit) = 0 := by omega
    have found : (before ++ (octets ++ [final]) ++ after)[off + (n + unit) - 1]? = some final := by
      rw [show off + (n + unit) - 1 = (before ++ octets).length by rw [List.length_append]; omega]
      simp
    rw [extentsLen, if_neg some_octet, found]
    simp [stop, ← size]
  | more octets final rest size go _ ih =>
    obtain ⟨fuel, rfl⟩ : ∃ k, fuel = k + 1 := ⟨fuel - 1, by simp at enough; omega⟩
    have some_octet : ¬ off + (n + unit) = 0 := by omega
    have found : (before ++ (octets ++ final :: rest) ++ after)[off + (n + unit) - 1]? = some final := by
      rw [show off + (n + unit) - 1 = (before ++ octets).length by rw [List.length_append]; omega]
      simp
    have later := ih (before ++ (octets ++ [final])) (n + unit) fuel (by simp; omega) (by simp at enough; omega)
    have split : before ++ (octets ++ final :: rest) ++ after = before ++ (octets ++ [final]) ++ rest ++ after := by simp
    rw [extentsLen, if_neg some_octet, found]
    dsimp only
    rw [if_neg go, split, later]
    simp only [List.length_append, List.length_cons, Option.some.injEq]
    omega

theorem chainedBits_chained {bitmap : Bytes} (chained : Chained bitmap) (rest : Bytes) :
    chainedBits (bitmap ++ rest) = some (bitmap.flatMap presence) := by
  induction chained with
  | last octet stop => simp [chainedBits, stop]
  | more octet later go _ ih => simp [chainedBits, go, ih]

theorem primaryBits_chained {bitmap : Bytes} (chained : Chained bitmap) (before rest : Bytes) :
    primaryBits (before ++ bitmap ++ rest) before.length = some (bitmap.flatMap presence) := by
  rw [primaryBits, List.append_assoc, List.drop_left, chainedBits_chained chained]

theorem octetsOf_presence (bitmap : Bytes) : octetsOf (bitmap.flatMap presence) = bitmap.length := by
  have seven : (bitmap.flatMap presence).length = 7 * bitmap.length := by
    induction bitmap with
    | nil => rfl
    | cons octet later ih =>
      rw [List.flatMap_cons, List.length_append, ih, List.length_cons]
      simp only [presence, List.length_cons, List.length_nil]
      omega
  rw [octetsOf, seven]
  omega

mutual

/-- A field is measured at the length of the bytes it was given. -/
theorem fieldLen_formed : (field : Field) → ∀ bytes before after, WellFormed field bytes →
    fieldLen field (before ++ bytes ++ after) before.length = some bytes.length
  | .fixed n, bytes, before, after, formed => by rw [fieldLen, show bytes.length = n from formed]
  | .spare, bytes, before, after, formed => by rw [fieldLen, show bytes = [] from formed]; rfl
  | .opaqueField, bytes, before, after, formed => absurd formed id
  | .extended unit, bytes, before, after, formed => by
    have measured := extentsLen_extents (show Extents unit bytes from formed) before after before.length 0
      ((before ++ bytes ++ after).length + 1) (Nat.add_zero _) (by simp only [List.length_append]; omega)
    rw [fieldLen, measured, Nat.zero_add]
  | .repetitive item, bytes, before, after, formed => by
    obtain ⟨rep, rest, rfl, size⟩ := formed
    simp only [fieldLen, List.append_assoc, List.cons_append, List.getElem?_append_right (Nat.le_refl _), Nat.sub_self,
      List.getElem?_cons_zero, Option.map_some, List.length_cons, size, Nat.add_comm]
  | .explicit, bytes, before, after, formed => by
    obtain ⟨len, rest, rfl, size⟩ := formed
    simp only [fieldLen, List.append_assoc, List.cons_append, List.getElem?_append_right (Nat.le_refl _), Nat.sub_self,
      List.getElem?_cons_zero, Option.map_some, size]
  | .compound subs, bytes, before, after, formed => by
    obtain ⟨bitmap, parts, chained, fits, rfl⟩ := formed
    have bits := primaryBits_chained chained before (parts.flatMap Prod.snd ++ after)
    have rest := subfieldsLen_formed subs (bitmap.flatMap presence) 0 parts before bitmap after fits
    rw [fieldLen]
    simp only [List.append_assoc] at bits rest ⊢
    rw [bits]
    dsimp only
    rw [octetsOf_presence, rest, List.length_append]

theorem subfieldsLen_formed : (subs : List Field) → ∀ bits i parts before done after, PartsFormed subs bits i parts →
    subfieldsLen subs bits (before ++ done ++ parts.flatMap Prod.snd ++ after) before.length done.length =
      some (done.length + (parts.flatMap Prod.snd).length)
  | subs, [], i, parts, before, done, after, formed => by
    have empty : parts = [] := by cases subs <;> exact formed
    subst empty
    cases subs <;> rfl
  | [], bit :: bits, i, parts, before, done, after, formed => by
    obtain ⟨unset, empty⟩ : (bit :: bits).any id = false ∧ parts = [] := formed
    subst empty
    rw [subfieldsLen, unset]
    · rfl
    · simp
  | _ :: subs, false :: bits, i, parts, before, done, after, formed =>
    subfieldsLen_formed subs bits (i + 1) parts before done after formed
  | sub :: subs, true :: bits, i, parts, before, done, after, formed => by
    obtain ⟨bytes, later, rfl, fits, others⟩ := formed
    have first := fieldLen_formed sub bytes (before ++ done) (later.flatMap Prod.snd ++ after) fits
    have rest := subfieldsLen_formed subs bits (i + 1) later before (done ++ bytes) after others
    rw [List.length_append] at first
    simp only [List.flatMap_cons, List.append_assoc, List.length_append] at first rest ⊢
    rw [subfieldsLen, first]
    dsimp only
    rw [rest]
    simp only [Option.some.injEq]
    omega

end

theorem walkSubfields_formed (bits : List Bool) (subs : List Field) (i : Nat) (parts : List (Nat × Bytes))
    (before after : Bytes) (formed : PartsFormed subs bits i parts) :
    walkSubfields (before ++ parts.flatMap Prod.snd ++ after) subs bits i before.length = parts := by
  induction bits generalizing subs i parts before with
  | nil =>
    have empty : parts = [] := by cases subs <;> exact formed
    rw [walkSubfields, empty]
  | cons bit bits ih =>
    cases subs with
    | nil =>
      obtain ⟨unset, rfl⟩ : (bit :: bits).any id = false ∧ parts = [] := formed
      obtain ⟨rfl, later⟩ : bit = false ∧ bits.any id = false := by simpa using unset
      rw [walkSubfields]
      apply ih
      cases bits with
      | nil => rfl
      | cons _ _ => exact ⟨later, rfl⟩
    | cons sub subs =>
      cases bit with
      | false => exact ih subs (i + 1) parts before formed
      | true =>
        obtain ⟨bytes, later, rfl, fits, others⟩ := formed
        have first := fieldLen_formed sub bytes before (later.flatMap Prod.snd ++ after) fits
        have rest := ih subs (i + 1) later (before ++ bytes) others
        simp only [List.flatMap_cons, List.append_assoc, List.length_append] at first rest ⊢
        rw [walkSubfields, first]
        dsimp only
        rw [if_neg (by simp only [List.length_append]; omega), rest, List.drop_left, List.take_left]

/-- A compound item is taken apart into the subfields it was put together from. -/
theorem walkCompound_formed (subs : List Field) (bitmap : Bytes) (parts : List (Nat × Bytes)) (chained : Chained bitmap)
    (formed : PartsFormed subs (bitmap.flatMap presence) 0 parts) :
    walkCompound subs (bitmap ++ parts.flatMap Prod.snd) = parts := by
  have bits := primaryBits_chained chained [] (parts.flatMap Prod.snd)
  have walked := walkSubfields_formed _ subs 0 parts bitmap [] formed
  rw [List.nil_append, List.length_nil] at bits
  rw [List.append_nil] at walked
  rw [walkCompound, bits]
  dsimp only
  rw [octetsOf_presence, walked]

theorem and_or (octet mask k : UInt8) : (octet ||| mask) &&& k = octet &&& k ||| mask &&& k := by
  apply UInt8.toNat_inj.mp
  rw [UInt8.toNat_or, UInt8.toNat_and, UInt8.toNat_and, UInt8.toNat_and, UInt8.toNat_or, Nat.and_or_distrib_right]

theorem presence_or_mask (octet mask : UInt8) :
    presence (octet ||| mask) = List.zipWith (· || ·) (presence octet) (presence mask) := by
  have bit (k : UInt8) : ((octet ||| mask) &&& k != 0) = (octet &&& k != 0 || mask &&& k != 0) := by
    rw [and_or, Bool.eq_iff_iff]
    simp only [bne_iff_ne, ne_eq, UInt8.or_eq_zero_iff, Bool.or_eq_true]
    tauto
  simp only [presence, bit, List.zipWith_cons_cons, List.zipWith_nil_left]

theorem zipWith_or_set (bits : List Bool) (r : Nat) :
    List.zipWith (· || ·) bits ((List.replicate bits.length false).set r true) = bits.set r true := by
  apply List.ext_getElem (by simp)
  intro i _ _
  rw [List.getElem_zipWith, List.getElem_set, List.getElem_set, List.getElem_replicate]
  split <;> simp

theorem presence_or (octet : UInt8) (r : Nat) (inside : r < 7) :
    presence (octet ||| (0x80 >>> UInt8.ofNat r)) = (presence octet).set r true ∧
      (octet ||| (0x80 >>> UInt8.ofNat r)) &&& 0x01 = octet &&& 0x01 := by
  have mask : ∀ r < 7, presence (0x80 >>> UInt8.ofNat r) = (List.replicate 7 false).set r true ∧
      (0x80 >>> UInt8.ofNat r : UInt8) &&& 0x01 = 0 := by decide
  rcases mask r inside with ⟨single, clear⟩
  constructor
  · rw [presence_or_mask, single]
    exact zipWith_or_set (presence octet) r
  · rw [and_or, clear, UInt8.or_zero]

theorem presence_or_fx (octet : UInt8) : presence (octet ||| 0x01) = presence octet ∧ (octet ||| 0x01) &&& 0x01 ≠ 0 := by
  constructor
  · have none : presence 0x01 = List.replicate 7 false := by decide
    rw [presence_or_mask, none]
    simp [presence]
  · rw [and_or]
    simp
/-- The seven FRNs of the octet at a place of the FSPEC. -/
def frnsAt (place : Nat) : List Nat := List.range' (7 * place + 1) 7

/-- Every octet has the bits of the FRNs it names. -/
def Names (p : Nat → Bool) (octets : Bytes) : Prop :=
  ∀ (i : Nat) (octet : UInt8), octets[i]? = some octet → presence octet = (frnsAt i).map p

theorem frnsAt_set (p : Nat → Bool) (place r : Nat) :
    ((frnsAt place).map p).set r true = (frnsAt place).map fun n => decide (n = 7 * place + 1 + r) || p n := by
  apply List.ext_getElem (by simp)
  intro i _ short
  simp only [frnsAt, List.length_map, List.length_range'] at short
  simp only [frnsAt, List.getElem_set, List.getElem_map, List.getElem_range', Nat.one_mul]
  by_cases same : r = i
  · simp [same]
  · have other : ¬ i = r := fun equal => same equal.symm
    simp [same, other]

theorem frnsAt_other (p : Nat → Bool) (i n : Nat) (pos : 0 < n) (other : i ≠ (n - 1) / 7) :
    (frnsAt i).map p = (frnsAt i).map fun m => decide (m = n) || p m := by
  apply List.map_congr_left
  intro m member
  rw [frnsAt, List.mem_range'_1] at member
  have apart : ¬ m = n := by omega
  simp [apart]

theorem names_modify (p : Nat → Bool) (octets : Bytes) (n : Nat) (pos : 0 < n) (names : Names p octets) :
    Names (fun m => decide (m = n) || p m)
      (octets.modify ((n - 1) / 7) (· ||| (0x80 >>> UInt8.ofNat ((n - 1) % 7)))) := by
  intro i octet found
  rw [List.getElem?_modify] at found
  obtain ⟨old, kept, new⟩ := Option.map_eq_some_iff.mp found
  subst new
  by_cases here : (n - 1) / 7 = i
  · have digit : (n - 1) % 7 < 7 := Nat.mod_lt _ (by decide)
    have spot : 7 * i + 1 + (n - 1) % 7 = n := by omega
    rw [if_pos here, (presence_or old _ digit).1, names i old kept, frnsAt_set p i, spot]
  · rw [if_neg here, names i old kept]
    exact frnsAt_other p i n pos (Ne.symm here)

/-- No octet has its FX bit set. -/
def Unchained (octets : Bytes) : Prop := ∀ octet ∈ octets, octet &&& 0x01 = 0

theorem unchained_modify (octets : Bytes) (n : Nat) (plain : Unchained octets) :
    Unchained (octets.modify ((n - 1) / 7) (· ||| (0x80 >>> UInt8.ofNat ((n - 1) % 7)))) := by
  intro octet member
  obtain ⟨i, found⟩ := List.mem_iff_getElem?.mp member
  rw [List.getElem?_modify] at found
  obtain ⟨old, kept, new⟩ := Option.map_eq_some_iff.mp found
  have before := plain old (List.mem_of_getElem? kept)
  subst new
  split
  · rw [(presence_or old _ (Nat.mod_lt _ (by decide))).2, before]
  · exact before

theorem names_fold (frns : List Nat) (pos : ∀ n ∈ frns, 0 < n) (done : List Nat) (octets : Bytes)
    (names : Names (fun n => decide (n ∈ done)) octets) (plain : Unchained octets) :
    let named := frns.foldl (fun f n => f.modify ((n - 1) / 7) (· ||| (0x80 >>> UInt8.ofNat ((n - 1) % 7)))) octets
    Names (fun n => decide (n ∈ done ++ frns)) named ∧ Unchained named ∧ named.length = octets.length := by
  induction frns generalizing done octets with
  | nil => simpa using ⟨names, plain⟩
  | cons n frns ih =>
    have step := names_modify _ octets n (pos n List.mem_cons_self) names
    have same : (fun m => decide (m = n) || decide (m ∈ done)) = fun m => decide (m ∈ done ++ [n]) := by
      funext m
      simp [Bool.or_comm]
    rw [same] at step
    have later := ih (fun m member => pos m (List.mem_cons_of_mem n member)) (done ++ [n]) _ step
      (unchained_modify octets n plain)
    rw [List.append_assoc, List.length_modify] at later
    exact later

/-- FX is set on every octet but the last. -/
theorem chained_of_fx (octets : Bytes) (some_octet : octets ≠ [])
    (fx : ∀ (i : Nat) (octet : UInt8), octets[i]? = some octet → (octet &&& 0x01 = 0 ↔ i + 1 = octets.length)) :
    Chained octets := by
  induction octets with
  | nil => exact absurd rfl some_octet
  | cons octet later ih =>
    have first := fx 0 octet rfl
    cases later with
    | nil => exact Chained.last octet (first.mpr rfl)
    | cons next rest =>
      apply Chained.more octet
      · intro stop
        have short := first.mp stop
        simp at short
      · apply ih (List.cons_ne_nil _ _)
        intro i other found
        have shifted := fx (i + 1) other found
        rw [shifted, List.length_cons (a := octet), Nat.add_right_cancel_iff]

theorem presence_names (p : Nat → Bool) (octets : Bytes) (place : Nat)
    (names : ∀ (i : Nat) (octet : UInt8), octets[i]? = some octet → presence octet = (frnsAt (place + i)).map p) :
    octets.flatMap presence = (List.range' (7 * place + 1) (7 * octets.length)).map p := by
  induction octets generalizing place with
  | nil => rfl
  | cons octet later ih =>
    have first := names 0 octet rfl
    have rest := ih (place + 1) (fun i other found => by
      rw [names (i + 1) other found, show place + (i + 1) = place + 1 + i by omega])
    have split : List.range' (7 * place + 1) (7 * (octet :: later).length) =
        frnsAt place ++ List.range' (7 * (place + 1) + 1) (7 * later.length) := by
      rw [frnsAt, List.length_cons, show 7 * (later.length + 1) = 7 + 7 * later.length by omega,
        ← List.range'_append_1, show 7 * place + 1 + 7 = 7 * (place + 1) + 1 by omega]
    rw [List.flatMap_cons, first, rest, split, List.map_append]
    rfl

theorem names_zeros (octets : Nat) : Names (fun n => decide (n ∈ [])) (List.replicate octets 0) := by
  intro i octet found
  have zero : octet = 0 := List.eq_of_mem_replicate (List.mem_of_getElem? found)
  subst zero
  rw [show (fun n : Nat => decide (n ∈ [])) = fun _ => false by funext n; simp, List.map_const']
  rfl

/-- What an FSPEC tells its reader. -/
theorem namingOctets_names (octets : Nat) (frns : List Nat) (some_octet : 0 < octets) (pos : ∀ n ∈ frns, 0 < n) :
    Chained (namingOctets octets frns) ∧ (namingOctets octets frns).length = octets ∧
      (namingOctets octets frns).flatMap presence = (List.range' 1 (7 * octets)).map fun n => decide (n ∈ frns) := by
  have named := names_fold frns pos [] (List.replicate octets 0) (names_zeros octets)
    (fun octet member => by rw [List.eq_of_mem_replicate member]; decide)
  dsimp only at named
  rw [List.nil_append, List.length_replicate] at named
  rcases named with ⟨names, plain, size⟩
  have size' : (namingOctets octets frns).length = octets := by rw [namingOctets, List.length_mapIdx, size]
  have each : ∀ (i : Nat) (octet : UInt8), (namingOctets octets frns)[i]? = some octet →
      presence octet = (frnsAt i).map (fun n => decide (n ∈ frns)) ∧ (octet &&& 0x01 = 0 ↔ i + 1 = octets) := by
    intro i octet found
    rw [namingOctets, List.getElem?_mapIdx] at found
    obtain ⟨old, kept, new⟩ := Option.map_eq_some_iff.mp found
    obtain ⟨inside, _⟩ := List.getElem?_eq_some_iff.mp kept
    rw [size] at inside
    subst new
    split
    · refine ⟨(presence_or_fx old).1.trans (names i old kept), ?_⟩
      constructor
      · intro stop
        exact absurd stop (presence_or_fx old).2
      · omega
    · refine ⟨names i old kept, ?_⟩
      constructor
      · omega
      · intro _
        exact plain old (List.mem_of_getElem? kept)
  refine ⟨chained_of_fx _ ?_ ?_, size', ?_⟩
  · intro empty
    rw [empty] at size'
    exact absurd size' (by simp; omega)
  · intro i octet found
    rw [size']
    exact (each i octet found).2
  · have bits := presence_names (fun n => decide (n ∈ frns)) (namingOctets octets frns) 0 (fun i octet found => by
      rw [Nat.zero_add]
      exact (each i octet found).1)
    rwa [size', Nat.mul_zero, Nat.zero_add] at bits

theorem presentFrns_append (bits more : List Bool) (frn : Nat) :
    presentFrns (bits ++ more) frn =
      ((presentFrns bits frn).1 ++ (presentFrns more (presentFrns bits frn).2).1,
        (presentFrns more (presentFrns bits frn).2).2) := by
  induction bits generalizing frn with
  | nil => rfl
  | cons bit bits ih =>
    rw [List.cons_append, presentFrns, ih]
    cases bit <;> rfl

theorem readFspec_chained {spec : Bytes} (chained : Chained spec) (rest : Bytes) (frn : Nat) :
    readFspec (spec ++ rest) frn = .ok ((presentFrns (spec.flatMap presence) frn).1, spec.length) := by
  induction chained generalizing frn with
  | last octet stop =>
    rw [List.singleton_append, readFspec, if_pos stop, List.flatMap_singleton]
    rfl
  | more octet later go _ ih =>
    rw [List.cons_append, readFspec, if_neg go, ih, List.flatMap_cons, presentFrns_append]
    rfl

/-- The FRN counter is a u8 that stays at 255, so only FRNs up to 255 are told apart. -/
theorem presentFrns_range (p : Nat → Bool) (count frn : Nat) (small : ∀ n, p n = true → n ≤ 255) :
    (presentFrns ((List.range' frn count).map p) (min frn 255)).1 = (List.range' frn count).filter p := by
  induction count generalizing frn with
  | zero => rfl
  | succ count ih =>
    have next : saturatingSucc (min frn 255) = min (frn + 1) 255 := by
      rw [saturatingSucc]
      omega
    rw [List.range'_succ, List.map_cons, presentFrns, next]
    dsimp only
    rw [ih]
    cases present : p frn with
    | false => rw [List.filter_cons_of_neg (by simp [present])]; rfl
    | true =>
      have low := small frn present
      rw [List.filter_cons_of_pos present, Nat.min_eq_left low]
      rfl

/-- A strictly ascending list is what remains of a range that covers it. -/
theorem filter_ascending (frns : List Nat) (count : Nat) (ascending : frns.Pairwise (· < ·))
    (covered : ∀ n ∈ frns, 0 < n ∧ n ≤ count) (named : List Nat) (same : ∀ n, n ∈ named ↔ n ∈ frns) :
    (List.range' 1 count).filter (fun n => decide (n ∈ named)) = frns := by
  have sorted : ((List.range' 1 count).filter fun n => decide (n ∈ named)).Pairwise (· < ·) :=
    List.Pairwise.filter _ List.pairwise_lt_range'
  apply List.Perm.eq_of_pairwise (fun _ _ _ _ lower upper => absurd lower (Nat.lt_asymm upper)) sorted ascending
  rw [List.perm_ext_iff_of_nodup (sorted.imp Nat.ne_of_lt) (ascending.imp Nat.ne_of_lt)]
  intro n
  rw [List.mem_filter, List.mem_range'_1, decide_eq_true_eq, same]
  constructor
  · exact And.right
  · intro member
    have inside := covered n member
    exact ⟨by omega, member⟩

theorem walkItems_formed (cat : UInt8) (uap : Uap) (entries : Items) (places : List Nat) (before after : Bytes)
    (formed : List.Forall₂ (fun entry place => ∃ field, uap[place]? = some (entry.1, field) ∧ WellFormed field entry.2)
      entries places) :
    walkItems cat uap (before ++ entries.flatMap Prod.snd ++ after) (places.map (1 + ·)) before.length =
      .ok (entries, before.length + (entries.flatMap Prod.snd).length) := by
  induction formed generalizing before with
  | nil => rfl
  | @cons entry place entries places first _ ih =>
    obtain ⟨field, listed, fits⟩ := first
    have measured := fieldLen_formed field entry.2 before (entries.flatMap Prod.snd ++ after) fits
    have later := ih (before ++ entry.2)
    simp only [List.flatMap_cons, List.append_assoc, List.length_append, List.map_cons] at measured later ⊢
    rw [walkItems, Nat.add_sub_cancel_left, listed]
    dsimp only
    rw [measured]
    dsimp only
    rw [if_neg (by simp only [List.length_append]; omega), later, List.drop_left, List.take_left]
    simp only [Except.ok.injEq, Prod.mk.injEq, true_and]
    omega

theorem mapM_position (uap : Uap) (items : List Item) (listed : ∀ item ∈ items, (position uap item).isSome) :
    items.mapM (position uap) = some (items.filterMap (position uap)) := by
  induction items with
  | nil => rfl
  | cons item items ih =>
    obtain ⟨place, found⟩ := Option.isSome_iff_exists.mp (listed item List.mem_cons_self)
    have later := ih fun other member => listed other (List.mem_cons_of_mem item member)
    rw [List.mapM_cons, found, later, List.filterMap_cons_some found]
    rfl

theorem items_listed {uap : Uap} (record : Record uap) :
    ∀ item ∈ record.entries.map Prod.fst, (position uap item).isSome := by
  intro item member
  obtain ⟨entry, chosen, rfl⟩ := List.mem_map.mp member
  obtain ⟨place, _, found, _⟩ := record.formed entry chosen
  rw [found]
  rfl

theorem frns_pos (places : List Nat) : ∀ n ∈ places.map (1 + ·), 0 < n := by
  intro n member
  obtain ⟨place, _, rfl⟩ := List.mem_map.mp member
  omega

theorem forall₂_places (uap : Uap) (entries : Items) (formed : ∀ entry ∈ entries, ∃ place field,
      position uap entry.1 = some place ∧ uap[place]? = some (entry.1, field) ∧ WellFormed field entry.2) :
    List.Forall₂ (fun entry place => ∃ field, uap[place]? = some (entry.1, field) ∧ WellFormed field entry.2)
      entries (placesOf uap entries) := by
  induction entries with
  | nil => exact List.Forall₂.nil
  | cons entry entries ih =>
    obtain ⟨place, field, found, listed, fits⟩ := formed entry List.mem_cons_self
    rw [placesOf, List.filterMap_cons, found]
    apply List.Forall₂.cons
    · exact ⟨field, listed, fits⟩
    · exact ih fun other member => formed other (List.mem_cons_of_mem entry member)

theorem position_lt {uap : Uap} {item : Item} {place : Nat} (found : position uap item = some place) :
    place < uap.length := (List.findIdx?_eq_some_iff_getElem.mp found).1

theorem fspec_named (uap : Uap) (named : List Item) (listed : ∀ item ∈ named, (position uap item).isSome) :
    ∃ octets, 0 < octets ∧ (∀ place ∈ named.filterMap (position uap), 1 + place ≤ 7 * octets) ∧
      fspec uap named = some (namingOctets octets ((named.filterMap (position uap)).map (1 + ·))) := by
  refine ⟨_, ?_, ?_, by rw [fspec, mapM_position uap named listed]; rfl⟩
  · exact Nat.lt_of_lt_of_le Nat.zero_lt_one (Nat.le_max_right _ _)
  · intro place member
    have shifted : 1 + place ∈ (named.filterMap (position uap)).map (1 + ·) := List.mem_map_of_mem member
    generalize (named.filterMap (position uap)).map (1 + ·) = frns at shifted ⊢
    cases most : frns.max? with
    | none =>
      rw [List.max?_eq_none_iff.mp most] at shifted
      cases shifted
    | some top =>
      have under := (List.max?_eq_some_iff.mp most).2 _ shifted
      simp only [Option.getD_some]
      omega

/-- The synthetic feed, told the FRNs of a record's items, writes the same FSPEC. -/
theorem feedFspec_record {uap : Uap} (record : Record uap) (some_item : record.entries ≠ []) :
    feedFspec ((placesOf uap record.entries).map (1 + ·)) = fspec uap (record.entries.map Prod.fst) := by
  have same : (record.entries.map Prod.fst).filterMap (position uap) = placesOf uap record.entries := by
    rw [List.filterMap_map]
    rfl
  rw [fspec, mapM_position uap _ (items_listed record), same, feedFspec]
  have some_frn : (placesOf uap record.entries).map (1 + ·) ≠ [] := by
    obtain ⟨entry, others, chosen⟩ := List.exists_cons_of_ne_nil some_item
    obtain ⟨place, _, found, _⟩ := record.formed entry (by rw [chosen]; exact List.mem_cons_self)
    rw [chosen, placesOf, List.filterMap_cons, found]
    exact List.cons_ne_nil _ _
  cases most : ((placesOf uap record.entries).map (1 + ·)).max? with
  | none => exact absurd (List.max?_eq_none_iff.mp most) some_frn
  | some top =>
    obtain ⟨place, _, rfl⟩ := List.mem_map.mp (List.max?_eq_some_iff.mp most).1
    have one : max ((1 + place + 6) / 7) 1 = (1 + place + 6) / 7 := by omega
    simp only [Option.map_some, Option.getD_some, most, one]

section

variable {uap : Uap} (cat : UInt8) (few : uap.length ≤ 255) (record : Record uap)
include few

/-- A record is walked back to its items, whatever stands around it and in whatever order its FSPEC was
    told the items. -/
theorem walkRecord_named (named : List Item) (same : ∀ item, item ∈ named ↔ item ∈ record.entries.map Prod.fst) :
    ∃ spec, fspec uap named = some spec ∧ ∀ before after,
      walkRecord cat uap (before ++ (spec ++ record.bytes) ++ after) before.length =
        .ok (record.entries, before.length + (spec ++ record.bytes).length) := by
  have listed : ∀ item ∈ named, (position uap item).isSome :=
    fun item member => items_listed record item ((same item).mp member)
  obtain ⟨octets, some_octet, cover, written⟩ := fspec_named uap named listed
  have sameFrns : ∀ n, n ∈ (named.filterMap (position uap)).map (1 + ·) ↔
      n ∈ (placesOf uap record.entries).map (1 + ·) := by
    intro n
    simp only [placesOf, List.mem_map, List.mem_filterMap, same, Prod.exists, exists_and_right, exists_eq_right]
  have ascending : ((placesOf uap record.entries).map (1 + ·)).Pairwise (· < ·) := by
    rw [List.pairwise_map]
    exact record.ordered.imp fun lower => Nat.add_lt_add_left lower 1
  have covered : ∀ n ∈ (placesOf uap record.entries).map (1 + ·), 0 < n ∧ n ≤ 7 * octets := by
    intro n member
    obtain ⟨place, inside, rfl⟩ := List.mem_map.mp ((sameFrns n).mpr member)
    exact ⟨by omega, cover place inside⟩
  have small : ∀ n, decide (n ∈ (named.filterMap (position uap)).map (1 + ·)) = true → n ≤ 255 := by
    intro n member
    obtain ⟨place, inside, rfl⟩ := List.mem_map.mp (of_decide_eq_true member)
    obtain ⟨_, _, found⟩ := List.mem_filterMap.mp inside
    have bound := position_lt found
    omega
  obtain ⟨chained, size, bits⟩ := namingOctets_names octets _ some_octet (frns_pos _)
  refine ⟨_, written, fun before after => ?_⟩
  have read := readFspec_chained chained (record.bytes ++ after) 1
  have present := presentFrns_range _ (7 * octets) 1 small
  rw [filter_ascending _ _ ascending covered _ sameFrns, Nat.min_eq_left (by decide)] at present
  rw [bits, present] at read
  have walked := walkItems_formed cat uap record.entries (placesOf uap record.entries)
    (before ++ namingOctets octets ((named.filterMap (position uap)).map (1 + ·))) after
    (forall₂_places uap record.entries record.formed)
  rw [walkRecord, List.append_assoc, List.drop_left, List.append_assoc, read]
  dsimp only
  rw [List.length_append, ← Record.bytes] at walked
  simp only [List.append_assoc] at walked
  rw [walked, List.length_append, Nat.add_assoc]

theorem walkRecord_encode (before after : Bytes) :
    walkRecord cat uap (before ++ record.encode ++ after) before.length =
      .ok (record.entries, before.length + record.encode.length) := by
  obtain ⟨spec, written, walked⟩ := walkRecord_named cat few record (record.entries.map Prod.fst) fun _ => Iff.rfl
  have same : record.encode = spec ++ record.bytes := by rw [Record.encode, Record.fspec, written]; rfl
  rw [same]
  exact walked before after

end

end AsterixProof
