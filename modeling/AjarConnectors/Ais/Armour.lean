import AjarConnectors.Ais.Bits
import AjarConnectors.Http.Requests

namespace AisModel

open HttpModel (Text Bytes)

/-- `0` to `W`, and the backquote to `w`. -/
def isArmour (c : UInt8) : Bool := (48 ≤ c.toNat && c.toNat ≤ 87) || (96 ≤ c.toNat && c.toNat ≤ 119)

/-- The bytes between the two parts of the alphabet. -/
def inGap (c : UInt8) : Bool := 88 ≤ c.toNat && c.toNat ≤ 95

/-- The payload that the synthetic feed writes for six-bit values. -/
def rearmour (sixes : List Nat) : Bytes := sixes.map fun six => UInt8.ofNat (FeedModel.armour six)

/-- Exactly the armour characters are accepted, and what is read is written back as it was. -/
structure StrictlyDecoded (payload : Text) (fill : Nat) : Prop where
  accepts : (∃ bits, Bits.fromPayload payload fill = .ok bits) ↔ ∀ c ∈ Utf8.encodeText payload, isArmour c = true
  rearmours : ∀ bits, Bits.fromPayload payload fill = .ok bits → rearmour bits.six = Utf8.encodeText payload

/-- No byte lies in the gap, unless another is refused anyway. -/
def ClearOfGap (payload : Text) : Prop :=
  (∀ c ∈ Utf8.encodeText payload, 48 ≤ c.toNat ∧ c.toNat ≤ 119) → ∀ c ∈ Utf8.encodeText payload, inGap c = false

end AisModel

namespace AisProof

open AisModel
open HttpModel (Text Bytes)

theorem dearmour_accepts (c : UInt8) : (Bits.dearmour c).toOption.isSome = true ↔ 48 ≤ c.toNat ∧ c.toNat ≤ 119 := by
  revert c
  apply HttpProof.all_bytes
  decide +kernel

theorem dearmour_back (c : UInt8) : ∀ six ∈ (Bits.dearmour c).toOption,
    (UInt8.ofNat (FeedModel.armour six) = c ↔ inGap c = false) := by
  revert c
  apply HttpProof.all_bytes
  decide +kernel

theorem isArmour_iff (c : UInt8) : isArmour c = true ↔ (48 ≤ c.toNat ∧ c.toNat ≤ 119) ∧ inGap c = false := by
  simp only [isArmour, inGap, Bool.or_eq_true, Bool.and_eq_true, decide_eq_true_eq, Bool.and_eq_false_iff,
    decide_eq_false_iff_not]
  omega

theorem dearmour_ok_iff (c : UInt8) : (∃ six, Bits.dearmour c = .ok six) ↔ 48 ≤ c.toNat ∧ c.toNat ≤ 119 := by
  rw [← dearmour_accepts]
  cases Bits.dearmour c with
  | error e => simp [Except.toOption]
  | ok six => simp [Except.toOption]

theorem rearmour_byte {c : UInt8} {six : Nat} (read : Bits.dearmour c = .ok six) :
    UInt8.ofNat (FeedModel.armour six) = c ↔ inGap c = false := by
  apply dearmour_back
  rw [read]
  exact rfl

theorem mapM_ok_iff {α β ε : Type} {f : α → Except ε β} {l : List α} :
    (∃ values, l.mapM f = .ok values) ↔ ∀ a ∈ l, ∃ b, f a = .ok b := by
  induction l with
  | nil => exact iff_of_true ⟨[], rfl⟩ (by simp)
  | cons a l ih =>
    rw [List.forall_mem_cons, ← ih, List.mapM_cons]
    cases found : f a with
    | error e => exact iff_of_false (fun ⟨_, read⟩ => nomatch read) (fun ⟨⟨_, read⟩, _⟩ => nomatch read)
    | ok b =>
      cases rest : l.mapM f with
      | error e => exact iff_of_false (fun ⟨_, read⟩ => nomatch read) (fun ⟨_, _, read⟩ => nomatch read)
      | ok values => exact iff_of_true ⟨b :: values, rfl⟩ ⟨⟨b, rfl⟩, values, rfl⟩

theorem rearmour_iff {bytes : Bytes} {sixes : List Nat} (read : bytes.mapM Bits.dearmour = .ok sixes) :
    rearmour sixes = bytes ↔ ∀ c ∈ bytes, inGap c = false := by
  induction bytes generalizing sixes with
  | nil =>
    cases read
    exact iff_of_true rfl (by simp)
  | cons c bytes ih =>
    rw [List.mapM_cons] at read
    cases first : Bits.dearmour c with
    | error e =>
      rw [first] at read
      cases read
    | ok six =>
      rw [first] at read
      cases rest : bytes.mapM Bits.dearmour with
      | error e =>
        rw [rest] at read
        cases read
      | ok later =>
        rw [rest] at read
        cases read
        rw [List.forall_mem_cons, ← ih rest, ← rearmour_byte first]
        exact List.cons_eq_cons

theorem fromPayload_read {payload : Text} {fill : Nat} {bits : Bits} (read : Bits.fromPayload payload fill = .ok bits) :
    (Utf8.encodeText payload).mapM Bits.dearmour = .ok bits.six := by
  unfold Bits.fromPayload at read
  cases found : (Utf8.encodeText payload).mapM Bits.dearmour with
  | error e =>
    rw [found] at read
    cases read
  | ok sixes =>
    rw [found] at read
    cases read
    rfl

theorem fromPayload_ok_iff (payload : Text) (fill : Nat) :
    (∃ bits, Bits.fromPayload payload fill = .ok bits) ↔ ∀ c ∈ Utf8.encodeText payload, 48 ≤ c.toNat ∧ c.toNat ≤ 119 := by
  have bytes : (∃ sixes, (Utf8.encodeText payload).mapM Bits.dearmour = .ok sixes) ↔
      ∀ c ∈ Utf8.encodeText payload, 48 ≤ c.toNat ∧ c.toNat ≤ 119 := by
    rw [mapM_ok_iff]
    simp only [dearmour_ok_iff]
  rw [← bytes]
  constructor
  · rintro ⟨bits, read⟩
    exact ⟨bits.six, fromPayload_read read⟩
  · rintro ⟨sixes, read⟩
    refine ⟨⟨sixes, sixes.length * 6 - fill⟩, ?_⟩
    rw [Bits.fromPayload, read]
    rfl

theorem strictlyDecoded_iff (payload : Text) (fill : Nat) : StrictlyDecoded payload fill ↔ ClearOfGap payload := by
  constructor
  · intro strict inside
    obtain ⟨bits, read⟩ := (fromPayload_ok_iff payload fill).mpr inside
    exact (rearmour_iff (fromPayload_read read)).mp (strict.rearmours bits read)
  · intro clear
    constructor
    · rw [fromPayload_ok_iff]
      constructor
      · intro inside c member
        exact (isArmour_iff c).mpr ⟨inside c member, clear inside c member⟩
      · intro armour c member
        exact ((isArmour_iff c).mp (armour c member)).1
    · intro bits read
      have inside := (fromPayload_ok_iff payload fill).mp ⟨bits, read⟩
      exact (rearmour_iff (fromPayload_read read)).mpr (clear inside)

theorem encodeText_injective {a b : Text} (same : Utf8.encodeText a = Utf8.encodeText b) : a = b := by
  have decoded := congrArg Utf8.decode same
  rw [Utf8.decode_encodeText, Utf8.decode_encodeText] at decoded
  exact Option.some.inj decoded

/-- A payload is decoded strictly exactly if it is clear of the gap, and no two such payloads have the same bits. -/
theorem armour_is_strict_iff (payload : Text) (fill : Nat) :
    (StrictlyDecoded payload fill ↔ ClearOfGap payload) ∧
    ∀ (other : Text) (otherFill : Nat) (bits otherBits : Bits), ClearOfGap payload → ClearOfGap other →
      Bits.fromPayload payload fill = .ok bits → Bits.fromPayload other otherFill = .ok otherBits →
      bits.six = otherBits.six → payload = other := by
  refine ⟨strictlyDecoded_iff payload fill, ?_⟩
  intro other otherFill bits otherBits clear otherClear read otherRead same
  have back := ((strictlyDecoded_iff payload fill).mpr clear).rearmours bits read
  have otherBack := ((strictlyDecoded_iff other otherFill).mpr otherClear).rearmours otherBits otherRead
  apply encodeText_injective
  rw [← back, ← otherBack, same]

/-- `X` is read as the six bits of the backquote. -/
theorem gap_is_accepted : ¬ ∀ (payload : Text) (fill : Nat), StrictlyDecoded payload fill := by
  intro all
  have accepted : ∃ bits, Bits.fromPayload ['X'] 0 = .ok bits := ⟨⟨[40], 6⟩, rfl⟩
  have armour := (all ['X'] 0).accepts.mp accepted 88 (by decide)
  exact absurd armour (by decide)

end AisProof
