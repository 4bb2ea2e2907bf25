import AjarConnectors.KeyMap.Sorted
import AjarConnectors.Toml.Document

namespace Toml

theorem lines_ne_nil (text : List Char) : lines text ≠ [] := by
  cases text with
  | nil => simp [lines]
  | cons c rest =>
    rw [lines]
    split
    · simp
    · split <;> simp

theorem lines_newline (front back : List Char) : lines (front ++ '\n' :: back) = lines front ++ lines back := by
  induction front with
  | nil => simp [lines]
  | cons c front ih =>
    rw [List.cons_append, lines, lines, ih]
    split
    · rfl
    · cases found : lines front with
      | nil => exact absurd found (lines_ne_nil front)
      | cons first more => rfl

theorem lines_single {text : List Char} (unbroken : '\n' ∉ text) : lines text = [text] := by
  induction text with
  | nil => rfl
  | cons c text ih =>
    rw [List.mem_cons, not_or] at unbroken
    rw [lines, if_neg (Ne.symm unbroken.1), ih unbroken.2]

/-- The first line begins with what has no break. -/
theorem lines_head {front back : List Char} (unbroken : '\n' ∉ front) :
    ∃ first more, lines back = first :: more ∧ lines (front ++ back) = (front ++ first) :: more := by
  induction front with
  | nil =>
    cases found : lines back with
    | nil => exact absurd found (lines_ne_nil back)
    | cons first more => exact ⟨first, more, rfl, found⟩
  | cons c front ih =>
    rw [List.mem_cons, not_or] at unbroken
    rcases ih unbroken.2 with ⟨first, more, split, joined⟩
    refine ⟨first, more, split, ?_⟩
    rw [List.cons_append, lines, if_neg (Ne.symm unbroken.1), joined]
    rfl

theorem lines_line {front back : List Char} (unbroken : '\n' ∉ front) :
    lines (front ++ '\n' :: back) = front :: lines back := by
  rw [lines_newline, lines_single unbroken]
  rfl

theorem bare_unbroken {c : Char} (bare : bareChar c = true) : c ≠ '\n' := by
  rintro rfl
  exact absurd bare (by decide)

theorem plain_unbroken {c : Char} (plain : plainChar c = true) : c ≠ '\n' := by
  rintro rfl
  exact absurd plain (by decide)

theorem visible_unbroken {c : Char} (seen : visible c = true) : c ≠ '\n' := by
  rintro rfl
  exact absurd seen (by decide)

/-- The line of a key, up to its value. -/
def opening (key : String) : List Char := key.toList ++ [' ', '=', ' ', '"']

theorem toList_line (key text : String) : (line key text).toList = opening key ++ text.toList ++ ['"', '\n'] := by
  have middle : " = \"".toList = [' ', '=', ' ', '"'] := by decide
  have ending : "\"\n".toList = ['"', '\n'] := by decide
  rw [line, opening, String.toList_append, String.toList_append, String.toList_append, middle, ending]

theorem toList_heading (name : String) : (heading name).toList = '[' :: name.toList ++ [']', '\n'] := by
  have front : "[".toList = ['['] := by decide
  have ending : "]\n".toList = [']', '\n'] := by decide
  rw [heading, String.toList_append, String.toList_append, front, ending]
  rfl

section Keys

variable {key : String}

theorem Bare.unbroken (bare : Bare key) : '\n' ∉ key.toList := fun member => bare_unbroken (bare.2 _ member) rfl

theorem opening_unbroken (bare : Bare key) : '\n' ∉ opening key := by
  rw [opening, List.mem_append, not_or]
  exact ⟨bare.unbroken, by decide⟩

theorem takeWhile_bare (bare : Bare key) {c : Char} (stop : bareChar c = false) (rest : List Char) :
    (key.toList ++ c :: rest).takeWhile bareChar = key.toList ∧ (key.toList ++ c :: rest).dropWhile bareChar = c :: rest := by
  rw [List.takeWhile_append_of_pos bare.2, List.dropWhile_append_of_pos bare.2, List.takeWhile_cons, List.dropWhile_cons, stop]
  simp

/-- A line that starts with a key is read as this key, if at all. -/
theorem parseLine_opening (bare : Bare key) (value : List Char) :
    parseLine (opening key ++ value) =
      if value.dropWhile plainChar = ['"'] then some (.entry key (String.ofList (value.takeWhile plainChar))) else none := by
  have filled : key.toList ≠ [] := fun empty => bare.1 (String.toList_inj.mp empty)
  have shape : opening key ++ value = key.toList ++ ' ' :: '=' :: ' ' :: '"' :: value := by simp [opening]
  have spans := takeWhile_bare bare (c := ' ') (by decide) ('=' :: ' ' :: '"' :: value)
  rw [shape]
  cases chars : key.toList with
  | nil => exact absurd chars filled
  | cons c more =>
    have letter : bareChar c = true := bare.2 c (by rw [chars]; exact List.mem_cons_self ..)
    have notComment : c ≠ '#' := by
      rintro rfl
      exact absurd letter (by decide)
    have notHeading : c ≠ '[' := by
      rintro rfl
      exact absurd letter (by decide)
    rw [chars] at spans filled
    rw [List.cons_append] at spans ⊢
    rw [parseLine]
    · rw [spans.2, spans.1]
      simp only [ne_eq, filled, not_false_eq_true, true_and]
      rw [← chars, String.ofList_toList]
    · exact fun same => List.cons_ne_nil _ _ same
    · intro text same
      exact notComment (List.cons.inj same).1
    · intro rest same
      exact notHeading (List.cons.inj same).1

end Keys

/-! What a first line adds to the rest of a document. -/

theorem simple_cons {text : String} {first : List Char} {more : List (List Char)} {t : Table}
    (split : lines text.toList = first :: more) (read : simple text = some t) :
    ∃ item items parts, parseLine first = some item ∧ more.mapM parseLine = some items ∧
      gather (item :: items) = some parts ∧ close parts = some t := by
  rw [simple, split, List.mapM_cons] at read
  cases parsed : parseLine first with
  | none => simp [parsed] at read
  | some item =>
    cases others : more.mapM parseLine with
    | none => simp [parsed, others] at read
    | some items =>
      simp only [parsed, others, Option.pure_def, Option.bind_eq_bind, Option.bind_some] at read
      rcases Option.bind_eq_some_iff.mp read with ⟨parts, gathered, closed⟩
      exact ⟨item, items, parts, rfl, rfl, gathered, closed⟩

theorem simple_of_items {rest : String} {items : List Item} {parts : Table × Table} {t : Table}
    (parsed : (lines rest.toList).mapM parseLine = some items) (gathered : gather items = some parts)
    (closed : close parts = some t) : simple rest = some t := by
  rw [simple, parsed, Option.bind_some, gathered, Option.bind_some, closed]

theorem close_eq {parts : Table × Table} {t : Table} (closed : close parts = some t) :
    (∀ key ∈ parts.1.map Prod.fst, key ∉ parts.2.map Prod.fst) ∧ t = parts.1 ++ parts.2 := by
  unfold close at closed
  split at closed
  · rename_i apart
    exact ⟨apart, (Option.some.inj closed).symm⟩
  · cases closed

/-- Everything the tables hold is a table. -/
theorem gather_tables {items : List Item} {parts : Table × Table} (gathered : gather items = some parts) :
    ∀ entry ∈ parts.2, ∃ entries, entry.2 = .table entries := by
  induction items generalizing parts with
  | nil =>
    cases gathered
    simp
  | cons item items ih =>
    cases item with
    | nothing => exact ih gathered
    | entry key text =>
      rw [gather] at gathered
      split at gathered
      · cases gathered
      · rename_i own' tables' rest
        split at gathered
        · cases gathered
        · cases gathered
          have inner := ih rest
          exact inner
    | heading name =>
      rw [gather] at gathered
      split at gathered
      · cases gathered
      · rename_i own' tables' rest
        split at gathered
        · cases gathered
        · cases gathered
          intro entry member
          rcases List.mem_cons.mp member with rfl | later
          · exact ⟨own', rfl⟩
          · exact ih rest entry later

theorem entry_split {key text : String} (rest : String) (bare : Bare key) (unbroken : '\n' ∉ text.toList) :
    lines (line key text ++ rest).toList = (opening key ++ (text.toList ++ ['"'])) :: lines rest.toList := by
  have shape : (line key text ++ rest).toList = (opening key ++ (text.toList ++ ['"'])) ++ '\n' :: rest.toList := by
    rw [String.toList_append, toList_line]
    simp
  rw [shape]
  apply lines_line
  rw [List.mem_append, List.mem_append]
  rintro (early | inside | quote)
  · exact opening_unbroken bare early
  · exact unbroken inside
  · exact absurd quote (by decide)

theorem simple_entry {key text rest : String} {t : Table} (bare : Bare key) (plain : Plain text)
    (read : simple (line key text ++ rest) = some t) :
    ∃ more, simple rest = some more ∧ ∀ other, other ≠ key → t.lookup other = more.lookup other := by
  have split := entry_split rest bare fun member => plain_unbroken (plain _ member) rfl
  rcases simple_cons split read with ⟨item, items, parts, parsed, others, gathered, closed⟩
  rw [parseLine_opening bare, List.dropWhile_append_of_pos plain, if_pos (by decide)] at parsed
  cases parsed
  rw [gather] at gathered
  split at gathered
  · cases gathered
  · rename_i own tables rest'
    split at gathered
    · cases gathered
    · cases gathered
      rcases close_eq closed with ⟨apart, rfl⟩
      have closes : close (own, tables) = some (own ++ tables) := if_pos fun k member => apart k (List.mem_cons_of_mem _ member)
      refine ⟨own ++ tables, simple_of_items others rest' closes, ?_⟩
      intro other different
      exact KeyMap.lookup_cons_of_ne different _ _

/-- The first line of a key whose value need not be plain. -/
theorem entry_head {key : String} (text rest : String) (bare : Bare key) :
    ∃ first more, lines (text.toList ++ '"' :: '\n' :: rest.toList) = first :: more ∧
      lines (line key text ++ rest).toList = (opening key ++ first) :: more := by
  have shape : (line key text ++ rest).toList = opening key ++ (text.toList ++ '"' :: '\n' :: rest.toList) := by
    rw [String.toList_append, toList_line]
    simp
  rw [shape]
  exact lines_head (opening_unbroken bare)

/-- What stands before the first character that is not plain is skipped. -/
theorem dropWhile_ne_quote {text rest : List Char} (unquoted : '"' ∉ text) (broken : ∃ c ∈ text, plainChar c = false) :
    (text ++ rest).dropWhile plainChar ≠ ['"'] := by
  rcases broken with ⟨c, member, odd⟩
  have left : text.dropWhile plainChar ≠ [] := by
    intro gone
    have all := List.dropWhile_eq_nil_iff.mp gone c member
    rw [odd] at all
    cases all
  rw [List.dropWhile_append, if_neg (by simpa using left)]
  intro same
  cases found : text.dropWhile plainChar with
  | nil => exact left found
  | cons head tail =>
    rw [found] at same
    have quote : head = '"' := (List.cons.inj same).1
    have inside : head ∈ text := (List.dropWhile_sublist plainChar).subset (by rw [found]; exact List.mem_cons_self ..)
    exact unquoted (quote ▸ inside)

theorem simple_control {key text rest : String} (bare : Bare key) (unquoted : ∀ c ∈ text.toList, c ≠ '"' ∧ c ≠ '\\')
    (broken : ¬ Plain text) : simple (line key text ++ rest) = none := by
  rcases entry_head text rest bare with ⟨first, more, value, split⟩
  have noQuote : '"' ∉ text.toList := fun member => (unquoted _ member).1 rfl
  have refused : first.dropWhile plainChar ≠ ['"'] := by
    by_cases split : '\n' ∈ text.toList
    · rcases List.eq_append_cons_of_mem split with ⟨front, back, parts, unbroken⟩
      have cut : text.toList ++ '"' :: '\n' :: rest.toList = front ++ '\n' :: (back ++ '"' :: '\n' :: rest.toList) := by
        rw [parts]
        simp
      rw [cut, lines_line unbroken] at value
      rw [← (List.cons.inj value).1]
      intro same
      have inside : '"' ∈ front := (List.dropWhile_sublist plainChar).subset (by rw [same]; exact List.mem_cons_self ..)
      exact noQuote (by rw [parts]; exact List.mem_append_left _ inside)
    · have unbroken : '\n' ∉ text.toList ++ ['"'] := by
        rw [List.mem_append, not_or]
        exact ⟨split, by decide⟩
      have cut : text.toList ++ '"' :: '\n' :: rest.toList = (text.toList ++ ['"']) ++ '\n' :: rest.toList := by simp
      rw [cut, lines_line unbroken] at value
      rw [← (List.cons.inj value).1]
      apply dropWhile_ne_quote noQuote
      unfold Plain at broken
      push Not at broken
      rcases broken with ⟨c, member, odd⟩
      exact ⟨c, member, by simpa using odd⟩
  cases read : simple (line key text ++ rest) with
  | none => rfl
  | some t =>
    rcases simple_cons split read with ⟨item, items, parts, parsed, _⟩
    rw [parseLine_opening bare, if_neg refused] at parsed
    cases parsed

theorem simple_quoted {key text rest : String} {t : Table} (bare : Bare key) (read : simple (line key text ++ rest) = some t)
    (same : t.lookup key = some (.string text)) : Plain text := by
  rcases entry_head text rest bare with ⟨first, more, value, split⟩
  rcases simple_cons split read with ⟨item, items, parts, parsed, _, gathered, closed⟩
  rw [parseLine_opening bare] at parsed
  split at parsed
  · cases parsed
    rw [gather] at gathered
    split at gathered
    · cases gathered
    · split at gathered
      · cases gathered
      · cases gathered
        rw [(close_eq closed).2, List.cons_append, List.lookup_cons_self, Option.some.injEq, Value.string.injEq] at same
        intro c member
        rw [← same, String.toList_ofList] at member
        exact List.mem_takeWhile_imp member
  · cases parsed

theorem simple_nothing {text rest : String} {first : List Char} {t : Table} (split : lines text.toList = first :: lines rest.toList)
    (silent : parseLine first = some .nothing) (read : simple text = some t) : simple rest = some t := by
  rcases simple_cons split read with ⟨item, items, parts, parsed, others, gathered, closed⟩
  rw [silent] at parsed
  cases parsed
  exact simple_of_items others gathered closed

theorem simple_comment {text rest : String} {t : Table} (seen : ∀ c ∈ text.toList, visible c = true)
    (read : simple ("#" ++ text ++ "\n" ++ rest) = some t) : simple rest = some t := by
  have hash : "#".toList = ['#'] := by decide
  have newline : "\n".toList = ['\n'] := by decide
  have unbroken : '\n' ∉ '#' :: text.toList := by
    rw [List.mem_cons, not_or]
    exact ⟨by decide, fun member => visible_unbroken (seen _ member) rfl⟩
  have split : lines ("#" ++ text ++ "\n" ++ rest).toList = ('#' :: text.toList) :: lines rest.toList := by
    rw [← lines_line unbroken, String.toList_append, String.toList_append, String.toList_append, hash, newline]
    simp
  apply simple_nothing split _ read
  rw [parseLine, if_pos (List.all_eq_true.mpr seen)]

theorem simple_blank {rest : String} {t : Table} (read : simple ("\n" ++ rest) = some t) : simple rest = some t := by
  have newline : "\n".toList = ['\n'] := by decide
  have split : lines ("\n" ++ rest).toList = [] :: lines rest.toList := by
    rw [String.toList_append, newline]
    exact (lines_line List.not_mem_nil : lines ([] ++ '\n' :: rest.toList) = _)
  exact simple_nothing split rfl read

theorem parseLine_heading {name : String} (bare : Bare name) :
    parseLine ('[' :: (name.toList ++ [']'])) = some (.heading name) := by
  have filled : name.toList ≠ [] := fun empty => bare.1 (String.toList_inj.mp empty)
  have spans := takeWhile_bare bare (c := ']') (by decide) []
  rw [parseLine, spans.1, spans.2, if_pos ⟨filled, rfl⟩, String.ofList_toList]

theorem heading_unbroken {name : String} (bare : Bare name) : '\n' ∉ '[' :: (name.toList ++ [']']) := by
  rw [List.mem_cons, List.mem_append]
  rintro (bracket | inside | bracket)
  · exact absurd bracket (by decide)
  · exact bare.unbroken inside
  · exact absurd bracket (by decide)

theorem lookup_table_ne {entries : Table} (tables : ∀ entry ∈ entries, ∃ own, entry.2 = .table own) (key text : String) :
    entries.lookup key ≠ some (.string text) := by
  intro found
  rcases tables _ (KeyMap.mem_of_lookup found) with ⟨own, same⟩
  cases same

theorem simple_heading {name rest : String} {t : Table} (bare : Bare name) (read : simple (heading name ++ rest) = some t)
    (key text : String) : t.lookup key ≠ some (.string text) := by
  have split : lines (heading name ++ rest).toList = ('[' :: (name.toList ++ [']'])) :: lines rest.toList := by
    rw [← lines_line (heading_unbroken bare), String.toList_append, toList_heading]
    simp
  rcases simple_cons split read with ⟨item, items, parts, parsed, _, gathered, closed⟩
  rw [parseLine_heading bare] at parsed
  cases parsed
  have tables := gather_tables gathered
  rw [gather] at gathered
  split at gathered
  · cases gathered
  · split at gathered
    · cases gathered
    · cases gathered
      rw [(close_eq closed).2]
      exact lookup_table_ne tables key text

/-- A last heading stays the only one of its name, and empty. -/
theorem gather_last {items : List Item} {name : String} {parts : Table × Table}
    (gathered : gather (items ++ [.heading name, .nothing]) = some parts) :
    parts.2.lookup name = some (.table []) := by
  induction items generalizing parts with
  | nil =>
    cases gathered
    exact List.lookup_cons_self
  | cons item items ih =>
    rw [List.cons_append] at gathered
    cases item with
    | nothing => exact ih gathered
    | entry key text =>
      rw [gather] at gathered
      split at gathered
      · cases gathered
      · rename_i own' tables' rest
        split at gathered
        · cases gathered
        · cases gathered
          have inner := ih rest
          exact inner
    | heading other =>
      rw [gather] at gathered
      split at gathered
      · cases gathered
      · rename_i own' tables' rest
        split at gathered
        · cases gathered
        · rename_i fresh
          cases gathered
          have found := ih rest
          have different : name ≠ other := by
            rintro rfl
            exact fresh (List.mem_map.mpr ⟨_, KeyMap.mem_of_lookup found, rfl⟩)
          rw [KeyMap.lookup_cons_of_ne different]
          exact found

theorem simple_last {front name : String} {t : Table} (bare : Bare name)
    (read : simple (front ++ "\n" ++ heading name) = some t) :
    ∃ own, t.lookup name = some (.table own) ∧ ∀ key text, own.lookup key ≠ some (.string text) := by
  have newline : "\n".toList = ['\n'] := by decide
  have split : lines (front ++ "\n" ++ heading name).toList = lines front.toList ++ ['[' :: (name.toList ++ [']']), []] := by
    have tail : lines (('[' :: (name.toList ++ [']'])) ++ ['\n']) = ['[' :: (name.toList ++ [']']), []] :=
      lines_line (heading_unbroken bare)
    rw [← tail, ← lines_newline, String.toList_append, String.toList_append, newline, toList_heading]
    simp
  rw [simple, split, List.mapM_append] at read
  cases fronts : (lines front.toList).mapM parseLine with
  | none => simp [fronts] at read
  | some items =>
    have ends : ['[' :: (name.toList ++ [']']), []].mapM parseLine = some [.heading name, .nothing] := by
      rw [List.mapM_cons, parseLine_heading bare]
      rfl
    simp only [fronts, ends, Option.pure_def, Option.bind_eq_bind, Option.bind_some] at read
    rcases Option.bind_eq_some_iff.mp read with ⟨parts, gathered, closed⟩
    have found := gather_last gathered
    refine ⟨[], ?_, by simp⟩
    rcases close_eq closed with ⟨apart, rfl⟩
    rw [List.lookup_append]
    have absent : parts.1.lookup name = none := by
      cases inside : parts.1.lookup name with
      | none => rfl
      | some value =>
        have listed := apart name (List.mem_map.mpr ⟨_, KeyMap.mem_of_lookup inside, rfl⟩)
        exact absurd (List.mem_map.mpr ⟨_, KeyMap.mem_of_lookup found, rfl⟩) listed
    rw [absent, found]
    rfl

theorem simple_documented : Documented simple where
  entry := simple_entry
  comment := simple_comment
  blank := simple_blank
  control := simple_control
  quoted := simple_quoted
  heading := simple_heading
  last := simple_last

end Toml
