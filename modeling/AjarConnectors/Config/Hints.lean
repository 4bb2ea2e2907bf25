import AjarConnectors.Delimited.Splitting
import AjarConnectors.Edits.Distance
import AjarConnectors.Text.Strings
import AjarConnectors.Utf8.Slices

namespace HintModel

open TextModel

abbrev Text := List Char

/-- The quote that the parser's messages set names in. -/
def tick : Char := Char.ofNat 96

/-- What an error of the parser is about. -/
inductive What where
  | field
  | value
  deriving DecidableEq

def What.word : What → Text
  | .field => "field".toList
  | .value => "value".toList

def What.marker : What → Text
  | .field => "unknown field ".toList ++ [tick]
  | .value => "unknown variant ".toList ++ [tick]

/-- A name in the list of those expected. -/
def candidateOf (piece : Text) : Text :=
  (Delimited.trim (· == tick) (Delimited.trim isWhitespace piece)).takeWhile (· ≠ tick)

def candidates (list : Text) : List Text := ((list.splitOn ',').map candidateOf).filter (· ≠ [])

/-- The order of `(usize, &str)`. -/
def before (x y : Nat × Text) : Bool :=
  x.1 < y.1 || (x.1 == y.1 && decide (Utf8.bytes (String.ofList x.2) < Utf8.bytes (String.ofList y.2)))

/-- `Iterator::min`. -/
def least : List (Nat × Text) → Option (Nat × Text)
  | [] => none
  | first :: others => some (others.foldl (fun best x => if before x best then x else best) first)

/-- How many edits away a name may be. -/
def limit (typo : Text) : Nat := max 2 (Utf8.byteLen typo / 3)

def quoted (name : Text) : Text := tick :: name ++ [tick]

/-- The error that serde gives for a name that is none of three or more. -/
def unknown (what : What) (typo : Text) (names : List Text) : Text :=
  what.marker ++ typo ++ tick :: ", expected one of ".toList ++ ", ".toList.intercalate (names.map quoted)

/-- A message of the parser: such an error behind the place it is at, with blanks behind it. -/
structure Message where
  what : What
  place : Text
  typo : Text
  names : List Text
  blanks : Text
  place_clear : ¬what.marker <:+: place
  typo_clear : tick ∉ typo
  names_clear : ∀ name ∈ names, name ≠ [] ∧ tick ∉ name ∧ ',' ∉ name
  some_name : names ≠ []
  blanks_blank : Delimited.Blank isWhitespace blanks
  single : what = .value → ¬What.field.marker <:+: place ++ unknown what typo names ++ blanks

def Message.text (m : Message) : Text := m.place ++ unknown m.what m.typo m.names ++ m.blanks

end HintModel

namespace HintProof

open HintModel TextModel

/-- The row of the table for a front of `a`: its distances from the fronts of `b`. -/
noncomputable def row (front b : Text) : List Nat :=
  (List.range (b.length + 1)).map fun j => Edits.distance front (b.take j)

section Cutting

variable {d front : Text} {c : Char}

end Cutting

section Listing

variable {lead trail blanks name : Text}

end Listing

section Nearness

variable {x y z : Nat × Text}

end Nearness

end HintProof
