import Mathlib.Data.List.Basic

namespace SealModel

abbrev Bytes := List UInt8

def sealSignatureLen : Nat := 64

inductive SealError where
  | truncated (len : Nat)
  | malformedSignature
  | unverified
  deriving DecidableEq

/-- What the crate's signature scheme offers: `Signature::from_slice` as a test on the prefix, and
    `Verifier::verify` on the canonical bytes and the signature. -/
structure Scheme (SK VK : Type) where
  verifyingKey : SK → VK
  sign : SK → Bytes → Bytes
  fromSlice : Bytes → Bool
  verify : VK → Bytes → Bytes → Bool

structure Scheme.Correct {SK VK : Type} (scheme : Scheme SK VK) : Prop where
  length : ∀ key canonical, (scheme.sign key canonical).length = sealSignatureLen
  fromSlice : ∀ key canonical, scheme.fromSlice (scheme.sign key canonical) = true
  verify : ∀ key canonical,
    scheme.verify (scheme.verifyingKey key) canonical (scheme.sign key canonical) = true

variable {SK VK : Type} (scheme : Scheme SK VK)

def sealCanonical (canonical : Bytes) (key : SK) : Bytes := scheme.sign key canonical ++ canonical

def verify (sealed : Bytes) (key : VK) : Except SealError Bytes :=
  if sealed.length < sealSignatureLen then .error (.truncated sealed.length) else
  let signature := sealed.take sealSignatureLen
  let canonical := sealed.drop sealSignatureLen
  if !scheme.fromSlice signature then .error .malformedSignature else
  if !scheme.verify key canonical signature then .error .unverified else .ok canonical

/-- The bytes an envelope carries behind its signature, as `accept` slices them. -/
def canonicalPart (sealed : Bytes) : Bytes := sealed.drop (min sealSignatureLen sealed.length)

end SealModel

namespace SealProof

open SealModel

variable {SK VK : Type} {scheme : Scheme SK VK}

theorem verify_sealCanonical (correct : scheme.Correct) (canonical : Bytes) (key : SK) :
    verify scheme (sealCanonical scheme canonical key) (scheme.verifyingKey key) = .ok canonical := by
  have length := correct.length key canonical
  have signature : (sealCanonical scheme canonical key).take sealSignatureLen = scheme.sign key canonical :=
    List.take_left' length
  have rest : (sealCanonical scheme canonical key).drop sealSignatureLen = canonical := List.drop_left' length
  have whole : ¬ (sealCanonical scheme canonical key).length < sealSignatureLen := by
    rw [sealCanonical, List.length_append]
    omega
  simp only [verify, if_neg whole, signature, rest, correct.fromSlice, correct.verify, Bool.not_true,
    Bool.false_eq_true, ↓reduceIte]

theorem verify_canonicalPart {sealed canonical : Bytes} {key : VK} (verified : verify scheme sealed key = .ok canonical) :
    canonicalPart sealed = canonical := by
  unfold verify at verified
  split at verified
  · cases verified
  · rename_i whole
    have cut : min sealSignatureLen sealed.length = sealSignatureLen := Nat.min_eq_left (Nat.not_lt.mp whole)
    dsimp only at verified
    split at verified
    · cases verified
    · split at verified
      · cases verified
      · cases verified
        rw [canonicalPart, cut]

end SealProof

namespace SealModel

/-- The canonical bytes of an event that has only an id and the source `x`. -/
def idOnlyEvent (id : UInt8) : Bytes := [18, 1, id, 26, 1, 120]

/-- The signatures of the connector's published test seed over two such events. -/
def testSignatures : List (Bytes × Bytes) :=
  [(idOnlyEvent 97,
    [25, 85, 230, 3, 184, 113, 132, 27, 101, 45, 147, 192, 239, 18, 172, 91, 184, 172, 219, 3, 218, 27, 46, 227,
     88, 82, 79, 19, 189, 227, 141, 244, 47, 81, 71, 35, 26, 76, 44, 82, 246, 104, 77, 126, 223, 185, 11, 195,
     193, 248, 31, 169, 135, 77, 76, 184, 116, 47, 69, 227, 42, 10, 43, 4]),
   (idOnlyEvent 98,
    [1, 227, 243, 238, 0, 175, 60, 208, 195, 211, 59, 61, 217, 199, 7, 208, 85, 140, 186, 62, 255, 23, 234, 120,
     206, 89, 86, 101, 119, 192, 232, 5, 95, 135, 82, 223, 168, 129, 172, 16, 246, 192, 100, 181, 250, 123, 2, 217,
     112, 125, 119, 250, 245, 110, 75, 16, 73, 139, 119, 48, 86, 248, 37, 10])]

/-- The scheme with one key pair, the test seed's, as far as the signatures above tell. -/
def testScheme : Scheme Unit Unit where
  verifyingKey := id
  sign _ canonical := (testSignatures.lookup canonical).getD (List.replicate sealSignatureLen 0)
  fromSlice signature := signature.length == sealSignatureLen
  verify _ canonical signature := signature == (testSignatures.lookup canonical).getD (List.replicate sealSignatureLen 0)

end SealModel

namespace SealProof

open SealModel

theorem testSignatures_length : ∀ entry ∈ testSignatures, entry.2.length = sealSignatureLen := by decide

theorem testScheme_correct : testScheme.Correct := by
  have length : ∀ key canonical, (testScheme.sign key canonical).length = sealSignatureLen := by
    intro key canonical
    simp only [testScheme]
    cases found : testSignatures.lookup canonical with
    | none => simp
    | some signature =>
      obtain ⟨front, back, split, -⟩ := List.lookup_eq_some_iff.mp found
      exact testSignatures_length (canonical, signature) (by rw [split]; simp)
  exact ⟨length, fun key canonical => beq_iff_eq.mpr (length key canonical), fun _ _ => beq_self_eq_true _⟩

end SealProof
