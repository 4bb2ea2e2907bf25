import AjarConnectors.Event.Types

namespace EventModel

/-- The float operations the connectors leave to the platform: conversion, arithmetic, parsing and
    printing. -/
structure Floats where
  ofInt : Int → F64
  add : F64 → F64 → F64
  mul : F64 → F64 → F64
  div : F64 → F64 → F64
  parse : String → Option F64
  display : F64 → String
  fixed : Nat → F64 → String

/-- Stands where a run does no float work. -/
def Floats.idle : Floats where
  ofInt _ := .zero
  add _ _ := .zero
  mul _ _ := .zero
  div _ _ := .zero
  parse _ := none
  display _ := ""
  fixed _ _ := ""

/-- `(low..=high).contains(&x)`. -/
def F64.between (low high x : F64) : Bool := low.le x && x.le high

/-- The geometry that placing a target takes from the platform. -/
structure Sphere extends Floats where
  sqrt : F64 → F64
  remEuclid : F64 → F64 → F64
  toRadians : F64 → F64
  toDegrees : F64 → F64
  sin : F64 → F64
  cos : F64 → F64
  asin : F64 → F64
  atan2 : F64 → F64 → F64

/-- Stands where a run does no float work. -/
def Sphere.idle : Sphere where
  toFloats := .idle
  sqrt _ := .zero
  remEuclid _ _ := .zero
  toRadians _ := .zero
  toDegrees _ := .zero
  sin _ := .zero
  cos _ := .zero
  asin _ := .zero
  atan2 _ _ := .zero

namespace F64

/-- `-x`, which flips the sign bit. -/
def neg (x : F64) : F64 := ⟨x.bits ^^^ 0x8000000000000000⟩

/-- `x.abs()`, which clears it. -/
def abs (x : F64) : F64 := ⟨x.bits &&& 0x7fffffffffffffff⟩

end F64

/-- `x - y`. -/
def Floats.sub (floats : Floats) (x y : F64) : F64 := floats.add x y.neg

def earthRadiusM : F64 := ⟨0x41584dae00000000⟩

/-- The point `distanceM` from (`lat`, `lon`) along a true bearing, on a sphere. -/
def Sphere.destination (floats : Sphere) (lat lon bearingDeg distanceM : F64) : F64 × F64 :=
  let phi1 := floats.toRadians lat
  let lam1 := floats.toRadians lon
  let theta := floats.toRadians bearingDeg
  let delta := floats.div distanceM earthRadiusM
  let phi2 := floats.asin (floats.add (floats.mul (floats.sin phi1) (floats.cos delta))
    (floats.mul (floats.mul (floats.cos phi1) (floats.sin delta)) (floats.cos theta)))
  let lam2 := floats.add lam1 (floats.atan2
    (floats.mul (floats.mul (floats.sin theta) (floats.sin delta)) (floats.cos phi1))
    (floats.sub (floats.cos delta) (floats.mul (floats.sin phi1) (floats.sin phi2))))
  (floats.toDegrees phi2, floats.toDegrees lam2)

end EventModel

namespace EventProof

open EventModel

theorem rank_bounds {low high x : F64} (inside : F64.between low high x = true) :
    x.isNaN = false ∧ low.rank ≤ x.rank ∧ x.rank ≤ high.rank := by
  simp only [F64.between, F64.le, Bool.and_eq_true, Bool.not_eq_true', decide_eq_true_eq] at inside
  exact ⟨inside.1.1.2, inside.1.2, inside.2.2⟩

/-- A float between two whose magnitude is below that of infinity is finite. -/
theorem finite_of_between {low high x : F64} (inside : F64.between low high x = true)
    (below : -0x7ff0000000000000 < low.rank) (above : high.rank < 0x7ff0000000000000) : x.isFinite = true := by
  rcases rank_bounds inside with ⟨_, least, most⟩
  by_contra infinite
  have full : x.exponent = 2047 := by simpa [F64.isFinite] using infinite
  have large : 0x7ff0000000000000 ≤ x.magnitude := by
    rw [F64.exponent] at full
    rw [F64.magnitude]
    omega
  have side : x.rank = -(x.magnitude : Int) ∨ x.rank = x.magnitude := by
    rw [F64.rank]
    split
    · exact Or.inl rfl
    · exact Or.inr rfl
  omega

end EventProof
