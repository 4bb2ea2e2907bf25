import AjarConnectors.Delimited.Alignment
import AjarConnectors.Generic.Parser
import AjarConnectors.Utf8.RoundTrip

namespace GenericModel

open TextModel

/-- The fields written in one row. -/
def rowOf (delimiter : String) (fields : List String) : Bytes := Utf8.encodeText (delimiter.intercalate fields).toList

/-- Every column reads the field of its own position. -/
def ColumnsAligned {DateTime : Type} (platform : Platform DateTime) (m : Mapping) (fields : List String) : Prop :=
  ∃ rec, record platform m (rowOf m.delimiter fields) = .ok rec ∧
    ∀ (i : Nat) (column field : String), m.columns[i]? = some column → fields[i]? = some field →
      rec.lookup column = some (trim field)

/-- A delimiter of white space needs a filled first field, a filled field at or behind the last column asked for, and no
    field whose white space makes a further delimiter with its neighbours'; any other needs no field that makes an
    earlier one, and at the ends of the row no blank field next to white space of its own. -/
def InPlace (d : List Char) (columns : Nat) (fields : List (List Char)) : Prop :=
  if Delimited.Blank isWhitespace d then
    (∀ f ∈ fields, Delimited.Blank isWhitespace f) ∧ min columns fields.length ≤ 1 ∨
      Delimited.Filled isWhitespace fields 0 ∧ Delimited.Spaced isWhitespace d columns fields
  else Delimited.Inked isWhitespace d columns fields

end GenericModel

namespace GenericProof

open TextModel GenericModel

theorem trim_eq (text : String) : trim text = String.ofList (Delimited.trim isWhitespace text.toList) := rfl

section

variable {DateTime : Type} (platform : Platform DateTime) {m : Mapping} {fields : List String}

theorem record_csv (csv : m.format = .csv) (delimiter : m.delimiter ≠ "") (fields : List String) :
    record platform m (rowOf m.delimiter fields) = .ok (KeyMap.insertAll (m.columns.zip
      ((Delimited.pieces isWhitespace m.delimiter.toList
        (Delimited.trim isWhitespace (m.delimiter.toList.intercalate (fields.map String.toList)))).map String.ofList)) []) := by
  rw [record, rowOf, Utf8.decode_encodeText]
  simp only [csv, splitRow, if_neg delimiter, trim_eq, String.toList_ofList, String.toList_intercalate,
    Delimited.pieces, List.map_map]
  congr 4
  funext piece
  simp [trim_eq]

/-- The columns are aligned when the first trimmed fields are the first pieces. -/
theorem columnsAligned_iff (csv : m.format = .csv) (distinct : m.columns.Nodup) (delimiter : m.delimiter ≠ "") :
    ColumnsAligned platform m fields ↔
      Delimited.Aligned isWhitespace m.delimiter.toList m.columns.length (fields.map String.toList) := by
  rw [ColumnsAligned, record_csv platform csv delimiter, Delimited.Aligned, List.prefix_iff_getElem?]
  constructor
  · rintro ⟨rec, same, read⟩ i near
    cases same
    rw [List.length_take, Nat.lt_min, List.length_map, List.length_map] at near
    have here := read i m.columns[i] fields[i] (List.getElem?_eq_getElem near.1) (List.getElem?_eq_getElem near.2)
    rw [KeyMap.lookup_zip distinct (List.getElem?_eq_getElem near.1), List.getElem?_map, Option.map_eq_some_iff] at here
    obtain ⟨piece, found, same⟩ := here
    rw [trim_eq, String.ofList_inj] at same
    simp only [List.getElem_take, List.getElem_map]
    rw [found, same]
  · intro read
    refine ⟨_, rfl, ?_⟩
    intro i column field here given
    obtain ⟨columnInside, -⟩ := List.getElem?_eq_some_iff.mp here
    obtain ⟨fieldInside, value⟩ := List.getElem?_eq_some_iff.mp given
    have near : i < (((fields.map String.toList).map (Delimited.trim isWhitespace)).take m.columns.length).length := by
      rw [List.length_take, List.length_map, List.length_map]
      omega
    have piece := read i near
    simp only [List.getElem_take, List.getElem_map, value] at piece
    rw [KeyMap.lookup_zip distinct here, List.getElem?_map, piece, Option.map_some, trim_eq]

theorem not_contains {text pattern : String} (absent : contains text pattern = false) : ¬pattern.toList <:+: text.toList := by
  rw [contains, decide_eq_false_iff_not] at absent
  exact absent

theorem aligned_nil (white : Char → Bool) (d : List Char) (k : Nat) : Delimited.Aligned white d k [] := by
  rw [Delimited.Aligned, List.map_nil, List.take_nil]
  exact List.nil_prefix

theorem inPlace_nil (d : List Char) (k : Nat) : InPlace d k [] := by
  rw [InPlace]
  split
  · exact Or.inl ⟨fun _ member => absurd member List.not_mem_nil, by simp⟩
  · refine ⟨fun f g rest none => (List.cons_ne_nil f _ none.symm).elim, ?_, ?_⟩
    · intro front f g rest none
      exact (List.append_ne_nil_of_right_ne_nil front (List.cons_ne_nil f _) none.symm).elim
    · intro front f g none
      exact (List.append_ne_nil_of_right_ne_nil front (List.cons_ne_nil f _) none.symm).elim

/-- One character of ink, as a comma is, keeps the columns of every row. -/
theorem character_keeps_columns (csv : m.format = .csv) (named : m.columns ≠ []) (distinct : m.columns.Nodup) {c : Char}
    (dark : isWhitespace c = false) (delimiter : m.delimiter = String.singleton c)
    (free : ∀ f ∈ fields, contains f m.delimiter = false) : ColumnsAligned platform m fields := by
  have text : m.delimiter.toList = [c] := by
    rw [delimiter]
    exact String.toList_singleton c
  have some : m.delimiter ≠ "" := by
    intro none
    rw [none] at text
    cases text
  rw [columnsAligned_iff platform csv distinct some, text]
  have absent : ∀ f ∈ fields.map String.toList, ¬[c] <:+: f := by
    intro f member
    obtain ⟨field, inside, rfl⟩ := List.mem_map.mp member
    rw [← text]
    exact not_contains (free field inside)
  by_cases empty : fields.map String.toList = []
  · rw [empty]
    exact aligned_nil _ _ _
  · have ink : ¬Delimited.Blank isWhitespace [c] := by
      intro blank
      rw [blank c List.mem_cons_self] at dark
      cases dark
    rw [Delimited.aligned_iff_inked (List.cons_ne_nil c []) ink absent empty (List.length_pos_iff.mpr named)]
    exact Delimited.inked_single dark absent

end

/-- A row that is written with the delimiter keeps its columns exactly when its fields leave every delimiter in place. -/
theorem csv_columns_iff {DateTime : Type} (platform : Platform DateTime) (m : Mapping) (csv : m.format = .csv)
    (named : m.columns ≠ []) (distinct : m.columns.Nodup) (delimiter : m.delimiter ≠ "") (fields : List String)
    (free : ∀ f ∈ fields, contains f m.delimiter = false) :
    ColumnsAligned platform m fields ↔ InPlace m.delimiter.toList m.columns.length (fields.map String.toList) := by
  rw [columnsAligned_iff platform csv distinct delimiter]
  have nonempty : m.delimiter.toList ≠ [] := fun none => delimiter (String.toList_inj.mp none)
  have absent : ∀ f ∈ fields.map String.toList, ¬m.delimiter.toList <:+: f := by
    intro f member
    obtain ⟨field, inside, rfl⟩ := List.mem_map.mp member
    exact not_contains (free field inside)
  have columns := List.length_pos_iff.mpr named
  by_cases some : fields.map String.toList = []
  · rw [some]
    exact ⟨fun _ => inPlace_nil _ _, fun _ => aligned_nil _ _ _⟩
  · rw [InPlace]
    split
    · rename_i blank
      exact Delimited.aligned_iff_spaced nonempty blank absent some columns
    · rename_i ink
      exact Delimited.aligned_iff_inked nonempty ink absent some columns

/-- What the runs on rows below leave unused. -/
def rowPlatform : Platform Unit where
  floats := .idle
  time := ⟨fun _ => .error "", fun _ => .error "", fun _ => .error ""⟩
  fromJson _ := .error ""
  debug raw := raw

def threeColumns (delimiter : String) : Mapping where
  format := .csv
  delimiter := delimiter
  columns := ["id", "name", "speed"]
  entityType := "mim:vessel"

theorem padded_row_is_aligned :
    ColumnsAligned rowPlatform (threeColumns ";;") [" ", "b; ", " c "] ↔
      InPlace [';', ';'] 3 [[' '], ['b', ';', ' '], [' ', 'c', ' ']] :=
  csv_columns_iff rowPlatform (threeColumns ";;") rfl (by decide) (by decide) (by decide) [" ", "b; ", " c "] (by decide)

/-- A blank first field between tabs is trimmed off with its tab, and the second takes its column. -/
theorem blank_first_field_shifts :
    ¬∀ (m : Mapping) (fields : List String), m.format = .csv → m.columns ≠ [] → m.columns.Nodup → m.delimiter ≠ "" →
      (∀ f ∈ fields, contains f m.delimiter = false ∧ '\n' ∉ f.toList ∧ '\r' ∉ f.toList) →
      ColumnsAligned rowPlatform m fields := by
  intro law
  have aligned := law (threeColumns "\t") ["", "Alpha", "12"] rfl (by decide) (by decide) (by decide) (by decide)
  rw [columnsAligned_iff rowPlatform rfl (by decide) (by decide), Delimited.Aligned] at aligned
  revert aligned
  decide

end GenericProof
