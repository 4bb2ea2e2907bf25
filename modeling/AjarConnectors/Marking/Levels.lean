import AjarConnectors.Text.Strings
import AjarConnectors.Utf8.Order

namespace MarkingModel

open TextModel

/-- `LEVELS`, lowest first. -/
inductive Level where
  | unclassified
  | restricted
  | confidential
  | secret
  | topSecret
  deriving DecidableEq

namespace Level

def name : Level → String
  | .unclassified => "unclassified"
  | .restricted => "restricted"
  | .confidential => "confidential"
  | .secret => "secret"
  | .topSecret => "top-secret"

def rank : Level → Nat
  | .unclassified => 0
  | .restricted => 1
  | .confidential => 2
  | .secret => 3
  | .topSecret => 4

end Level

inductive MarkingError where
  | empty
  | unknownLevel (value : String)
  | badToken (field value : String)
  | tooMany (count : Nat)
  deriving DecidableEq

def spaced (text : String) : String := replaceAny ['_', '-'] ' ' text

def levelWord (lower : String) : Option Level :=
  if lower = "unclassified" ∨ lower = "unclass" ∨ lower = "u" then some .unclassified
  else if lower = "restricted" ∨ lower = "r" then some .restricted
  else if lower = "confidential" ∨ lower = "c" then some .confidential
  else if lower = "secret" ∨ lower = "s" then some .secret
  else if lower = "top secret" ∨ lower = "topsecret" ∨ lower = "ts" then some .topSecret
  else none

def classificationLevel (raw : String) : Option Level := levelWord (spaced (toAsciiLowercase (trim raw)))

def isTokenByte (b : Nat) : Bool :=
  (48 ≤ b && b ≤ 57) || (65 ≤ b && b ≤ 90) || (97 ≤ b && b ≤ 122) || b == 45 || b == 95

def token (field raw : String) : Except MarkingError String :=
  let t := toAsciiUppercase (trim raw)
  if t ≠ "" ∧ (Utf8.bytes t).length ≤ 32 ∧ (Utf8.bytes t).all isTokenByte = true then .ok t
  else .error (.badToken field raw)

/-- The level a label names, and the policy its wording names. -/
def namedLevel (upper : String) : Option Level × Option String :=
  if upper = "COSMIC TOP SECRET" then (some .topSecret, some "NATO")
  else match stripPrefix "NATO " upper with
    | some rest => (classificationLevel rest, some "NATO")
    | none => (classificationLevel upper, none)

def wireClassification (raw : String) (policyId : Option String) : List String :=
  let upper := spaced (toAsciiUppercase (trim raw))
  if upper = "" then []
  else
    let named := namedLevel upper
    let policy := (policyId.bind fun p => (token "policy" p).toOption).or named.2
    ("class:" ++ (named.1.getD .topSecret).name) :: (policy.map fun p => "policy:" ++ p).toList

/-- The level a `class:` tag states. -/
def tagLevel (tag : String) : Option Level := (stripPrefix "class:" tag).bind classificationLevel

/-- The level the tags of a label state. -/
def wireLevel (raw : String) (policyId : Option String) : Option Level :=
  (wireClassification raw policyId).findSome? tagLevel

end MarkingModel

namespace MarkingProof

open TextModel TextProof MarkingModel

theorem classificationLevel_name (level : Level) : classificationLevel level.name = some level := by
  cases level <;> decide

theorem tagLevel_class (level : Level) : tagLevel ("class:" ++ level.name) = some level := by
  have cut : stripPrefix "class:" ("class:" ++ level.name) = some level.name := stripPrefix_eq_some.mpr rfl
  rw [tagLevel, cut, Option.bind_some, classificationLevel_name]

theorem tagLevel_policy (policy : String) : tagLevel ("policy:" ++ policy) = none := by
  rw [tagLevel]
  cases found : stripPrefix "class:" ("policy:" ++ policy) with
  | none => rfl
  | some rest =>
    have same := congrArg String.toList (stripPrefix_eq_some.mp found)
    simp at same

theorem spaced_eq_empty_iff (text : String) : spaced text = "" ↔ text = "" := by
  rw [spaced, replaceAny, ← String.toList_inj, ← String.toList_inj, String.toList_ofList]
  simp

theorem upper_eq_empty_iff (text : String) : toAsciiUppercase text = "" ↔ text = "" := by
  rw [toAsciiUppercase, ← String.toList_inj, ← String.toList_inj, String.toList_ofList]
  simp

/-- A label that is not blank states exactly one level, whatever the policy. -/
theorem wireClassification_of_nonblank {raw : String} (nonblank : trim raw ≠ "") (policyId : Option String) :
    ∃ level policies, wireClassification raw policyId = ("class:" ++ Level.name level) :: policies ∧
      wireLevel raw none = some level ∧ ∀ tag ∈ policies, tagLevel tag = none := by
  have filled : spaced (toAsciiUppercase (trim raw)) ≠ "" := by
    rw [Ne, spaced_eq_empty_iff, upper_eq_empty_iff]
    exact nonblank
  let named := namedLevel (spaced (toAsciiUppercase (trim raw)))
  let policy := (policyId.bind fun p => (token "policy" p).toOption).or named.2
  refine ⟨named.1.getD .topSecret, (policy.map fun p => "policy:" ++ p).toList, ?_, ?_, ?_⟩
  · rw [wireClassification]
    exact if_neg filled
  · rw [wireLevel, wireClassification]
    dsimp only
    rw [if_neg filled, List.findSome?_cons, tagLevel_class]
  · intro tag member
    rw [Option.mem_toList, Option.map_eq_some_iff] at member
    rcases member with ⟨policy, _, rfl⟩
    exact tagLevel_policy policy

end MarkingProof
