import Mathlib.Algebra.Ring.Nat
import Mathlib.Data.List.Basic

namespace EventModel

/-- A 64-bit float by its bit pattern. -/
structure F64 where
  bits : UInt64
  deriving DecidableEq

namespace F64

def exponent (x : F64) : Nat := x.bits.toNat / 2^52 % 2^11

def mantissa (x : F64) : Nat := x.bits.toNat % 2^52

def isNaN (x : F64) : Bool := x.exponent == 2047 && x.mantissa != 0

def isFinite (x : F64) : Bool := x.exponent != 2047

def negative (x : F64) : Bool := decide (2^63 ≤ x.bits.toNat)

def magnitude (x : F64) : Nat := x.bits.toNat % 2^63

/-- Where a float other than a NaN stands on the number line; both zeros stand at 0. -/
def rank (x : F64) : Int := if x.negative then -(x.magnitude : Int) else x.magnitude

def lt (x y : F64) : Bool := !x.isNaN && !y.isNaN && decide (x.rank < y.rank)

def le (x y : F64) : Bool := !x.isNaN && !y.isNaN && decide (x.rank ≤ y.rank)

def zero : F64 := ⟨0⟩

def one : F64 := ⟨0x3ff0000000000000⟩

def negZero : F64 := ⟨0x8000000000000000⟩

end F64

structure GeoPoint where
  latitude : F64
  longitude : F64
  altitudeM : F64
  deriving DecidableEq

structure Attribute where
  key : String
  value : String
  deriving DecidableEq

structure Event where
  schemaVersion : String
  id : String
  sourceId : String
  entityType : String
  timestamp : String
  receivedAt : String
  location : Option GeoPoint
  payload : List UInt8
  policyTags : List String
  confidence : F64
  attributes : List Attribute
  metadata : List Attribute
  deriving DecidableEq

def Event.default : Event :=
  ⟨"", "", "", "", "", "", none, [], [], .zero, [], []⟩

end EventModel
