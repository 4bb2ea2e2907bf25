import Mathlib.Data.List.TakeWhile
import Mathlib.Data.String.Basic

namespace Toml

inductive Value where
  | string (text : String)
  | integer (value : Int)
  | boolean (value : Bool)
  /-- A float or a date. -/
  | other
  | array (items : List Value)
  | table (entries : List (String × Value))

abbrev Table := List (String × Value)

def Value.string? : Value → Option String
  | .string text => some text
  | _ => none

def Value.table? : Value → Option Table
  | .table entries => some entries
  | _ => none

/-- A character a comment may hold. -/
def visible (c : Char) : Bool := c == '\t' || (32 ≤ c.toNat && c.toNat != 127)

/-- A character that stands for itself between quotes. -/
def plainChar (c : Char) : Bool := c != '"' && c != '\\' && visible c

def bareChar (c : Char) : Bool := c.isAlphanum || c == '_' || c == '-'

def Plain (text : String) : Prop := ∀ c ∈ text.toList, plainChar c = true

def Bare (key : String) : Prop := key ≠ "" ∧ ∀ c ∈ key.toList, bareChar c = true

/-- One key with a quoted value on a line of its own. -/
def line (key text : String) : String := key ++ " = \"" ++ text ++ "\"\n"

def heading (name : String) : String := "[" ++ name ++ "]\n"

/-- What a reader of the format does with documents of such lines. -/
structure Documented (fromStr : String → Option Table) : Prop where
  /-- A first line defines its key and leaves the rest to be read alone. -/
  entry : ∀ {key text rest t}, Bare key → Plain text → fromStr (line key text ++ rest) = some t →
    ∃ more, fromStr rest = some more ∧ ∀ other, other ≠ key → t.lookup other = more.lookup other
  comment : ∀ {text rest t}, (∀ c ∈ text.toList, visible c = true) → fromStr ("#" ++ text ++ "\n" ++ rest) = some t →
    fromStr rest = some t
  blank : ∀ {rest t}, fromStr ("\n" ++ rest) = some t → fromStr rest = some t
  /-- A line break or another control character inside quotes is refused. -/
  control : ∀ {key text rest}, Bare key → (∀ c ∈ text.toList, c ≠ '"' ∧ c ≠ '\\') → ¬ Plain text →
    fromStr (line key text ++ rest) = none
  /-- A quote ends the value and a backslash escapes, so only plain text is read as it is written. -/
  quoted : ∀ {key text rest t}, Bare key → fromStr (line key text ++ ("# " ++ rest)) = some t →
    t.lookup key = some (.string text) → Plain text
  /-- What stands after a heading is not in the root table. -/
  heading : ∀ {name rest t}, Bare name → fromStr (heading name ++ rest) = some t →
    ∀ key text, t.lookup key ≠ some (.string text)
  /-- A heading at the end opens a table of its own with no values. -/
  last : ∀ {front name t}, Bare name → fromStr (front ++ "\n" ++ Toml.heading name) = some t →
    ∃ own, t.lookup name = some (.table own) ∧ ∀ key text, own.lookup key ≠ some (.string text)

/-! A reader of comments, headings and quoted values that refuses everything else. -/

def lines : List Char → List (List Char)
  | [] => [[]]
  | c :: rest =>
    if c = '\n' then [] :: lines rest
    else match lines rest with
      | [] => [[c]]
      | first :: more => (c :: first) :: more

inductive Item where
  | nothing
  | entry (key text : String)
  | heading (name : String)

def parseLine : List Char → Option Item
  | [] => some .nothing
  | '#' :: text => if text.all visible then some .nothing else none
  | '[' :: rest =>
    if rest.takeWhile bareChar ≠ [] ∧ rest.dropWhile bareChar = [']'] then
      some (.heading (String.ofList (rest.takeWhile bareChar)))
    else none
  | text =>
    match text.dropWhile bareChar with
    | ' ' :: '=' :: ' ' :: '"' :: value =>
      if text.takeWhile bareChar ≠ [] ∧ value.dropWhile plainChar = ['"'] then
        some (.entry (String.ofList (text.takeWhile bareChar)) (String.ofList (value.takeWhile plainChar)))
      else none
    | _ => none

/-- The values before the first heading, and the tables. -/
def gather : List Item → Option (Table × Table)
  | [] => some ([], [])
  | .nothing :: rest => gather rest
  | .entry key text :: rest =>
    match gather rest with
    | none => none
    | some (own, tables) => if key ∈ own.map Prod.fst then none else some ((key, .string text) :: own, tables)
  | .heading name :: rest =>
    match gather rest with
    | none => none
    | some (own, tables) => if name ∈ tables.map Prod.fst then none else some ([], (name, .table own) :: tables)

def close (parts : Table × Table) : Option Table :=
  if ∀ key ∈ parts.1.map Prod.fst, key ∉ parts.2.map Prod.fst then some (parts.1 ++ parts.2) else none

def simple (text : String) : Option Table :=
  (((lines text.toList).mapM parseLine).bind gather).bind close

end Toml
