import Mathlib.Data.List.DropRight
import Mathlib.Data.List.Infix

namespace Delimited

section

variable {α : Type*} [DecidableEq α]

/-- What stands before the first occurrence of the delimiter, and what stands behind it. -/
def cut (d : List α) : List α → Option (List α × List α)
  | [] => none
  | c :: text =>
    if d <+: c :: text then some ([], (c :: text).drop d.length)
    else (cut d text).map fun parts => (c :: parts.1, parts.2)

def splitWithin (d : List α) : Nat → List α → List (List α)
  | 0, text => [text]
  | fuel + 1, text => match cut d text with
    | none => [text]
    | some (front, rest) => front :: splitWithin d fuel rest

/-- The pieces between the occurrences of the delimiter, found from the left and without overlap. -/
def split (d text : List α) : List (List α) := splitWithin d text.length text

/-- How often the delimiter is found. -/
def count (d text : List α) : Nat := (split d text).length - 1

/-- No occurrence of the delimiter begins in the front. -/
def Clear (d front text : List α) : Prop := ∀ g h, front = g ++ h → d <+: h ++ text → h = []

variable {d text front rest : List α}

theorem cut_eq (found : cut d text = some (front, rest)) : text = front ++ (d ++ rest) := by
  induction text generalizing front with
  | nil => cases found
  | cons c text ih =>
    rw [cut] at found
    split at found
    · rename_i here
      obtain ⟨more, same⟩ := here
      rw [← same, List.drop_left, Option.some.injEq, Prod.mk.injEq] at found
      rw [← found.1, ← found.2, ← same, List.nil_append]
    · obtain ⟨parts, later, same⟩ := Option.map_eq_some_iff.mp found
      rw [Prod.mk.injEq] at same
      obtain ⟨rfl, rfl⟩ := same
      rw [ih later, List.cons_append]

theorem cut_delimiter (nonempty : d ≠ []) (text : List α) : cut d (d ++ text) = some ([], text) := by
  obtain ⟨c, d, rfl⟩ := List.exists_cons_of_ne_nil nonempty
  have here : c :: d <+: c :: (d ++ text) := List.prefix_append (c :: d) text
  rw [List.cons_append, cut]
  refine (if_pos here).trans ?_
  exact congrArg (fun rest => some ([], rest)) List.drop_left

theorem cut_clear (clear : Clear d front text) : cut d (front ++ text) = (cut d text).map fun parts => (front ++ parts.1, parts.2) := by
  induction front with
  | nil => simp
  | cons c front ih =>
    have later : Clear d front text := fun g h split found => clear (c :: g) h (by rw [split, List.cons_append]) found
    have not : ¬d <+: c :: (front ++ text) := by
      intro found
      cases clear [] (c :: front) rfl found
    rw [List.cons_append, cut, if_neg not, ih later, Option.map_map]
    rfl

theorem cut_leftmost (nonempty : d ≠ []) (front rest : List α) :
    ∃ first last, cut d (front ++ (d ++ rest)) = some (first, last) ∧ first.length ≤ front.length := by
  induction front with
  | nil => exact ⟨[], rest, cut_delimiter nonempty rest, le_refl 0⟩
  | cons c front ih =>
    obtain ⟨first, last, found, short⟩ := ih
    rw [List.cons_append, cut]
    split
    · exact ⟨[], _, rfl, Nat.zero_le _⟩
    · rw [found]
      exact ⟨c :: first, last, rfl, Nat.succ_le_succ short⟩

theorem cut_none_iff (nonempty : d ≠ []) : cut d text = none ↔ ¬d <:+: text := by
  constructor
  · rintro none ⟨front, rest, rfl⟩
    obtain ⟨first, last, found, -⟩ := cut_leftmost nonempty front rest
    rw [List.append_assoc, found] at none
    cases none
  · intro absent
    cases found : cut d text with
    | none => rfl
    | some parts => exact absurd ⟨parts.1, parts.2, (List.append_assoc _ _ _).trans (cut_eq found).symm⟩ absent

theorem cut_extend (found : cut d text = some (front, rest)) (more : List α) :
    cut d (text ++ more) = some (front, rest ++ more) := by
  induction text generalizing front with
  | nil => cases found
  | cons c text ih =>
    rw [cut] at found
    rw [List.cons_append, cut]
    split at found
    · rename_i here
      rw [Option.some.injEq, Prod.mk.injEq] at found
      have still : d <+: c :: (text ++ more) := here.trans (List.prefix_append (c :: text) more)
      rw [if_pos still, ← List.cons_append, List.drop_append_of_le_length here.length_le, found.1, found.2]
    · rename_i past
      obtain ⟨parts, later, same⟩ := Option.map_eq_some_iff.mp found
      rw [Prod.mk.injEq] at same
      obtain ⟨rfl, rfl⟩ := same
      have not : ¬d <+: c :: (text ++ more) := by
        intro here
        have long := congrArg List.length (cut_eq later)
        rw [List.length_append, List.length_append] at long
        apply past
        apply List.prefix_of_prefix_length_le here (List.prefix_append (c :: text) more)
        rw [List.length_cons]
        omega
      rw [if_neg not, ih later]
      rfl

section

variable (nonempty : d ≠ [])

include nonempty

theorem rest_shorter (found : cut d text = some (front, rest)) : rest.length < text.length := by
  have long := congrArg List.length (cut_eq found)
  have filled := List.length_pos_iff.mpr nonempty
  rw [List.length_append, List.length_append] at long
  omega

theorem splitWithin_fuel {fuel other : Nat} (enough : text.length ≤ fuel) (also : text.length ≤ other) :
    splitWithin d fuel text = splitWithin d other text := by
  induction fuel generalizing text other with
  | zero =>
    have empty := List.eq_nil_of_length_eq_zero (Nat.le_zero.mp enough)
    rw [empty]
    cases other <;> rfl
  | succ fuel ih =>
    cases other with
    | zero =>
      have empty := List.eq_nil_of_length_eq_zero (Nat.le_zero.mp also)
      rw [empty]
      rfl
    | succ other =>
      rw [splitWithin, splitWithin]
      cases found : cut d text with
      | none => rfl
      | some parts =>
        have short := rest_shorter nonempty found
        exact congrArg (parts.1 :: ·) (ih (by omega) (by omega))

theorem split_absent (absent : ¬d <:+: text) : split d text = [text] := by
  rw [split]
  cases text with
  | nil => rfl
  | cons c text => rw [List.length_cons, splitWithin, (cut_none_iff nonempty).mpr absent]

theorem split_found (found : cut d text = some (front, rest)) : split d text = front :: split d rest := by
  have short := rest_shorter nonempty found
  rw [split, splitWithin_fuel nonempty (le_refl _) (Nat.le_succ text.length), splitWithin, found, split]
  exact congrArg (front :: ·) (splitWithin_fuel nonempty (Nat.le_of_lt short) (le_refl _))

theorem split_ne_nil (text : List α) : split d text ≠ [] := by
  cases found : cut d text with
  | none =>
    rw [split_absent nonempty ((cut_none_iff nonempty).mp found)]
    exact List.cons_ne_nil _ _
  | some parts =>
    rw [split_found nonempty found]
    exact List.cons_ne_nil _ _

theorem split_clear (clear : Clear d front text) :
    ∃ piece pieces, split d text = piece :: pieces ∧ split d (front ++ text) = (front ++ piece) :: pieces := by
  have whole := cut_clear clear
  cases found : cut d text with
  | none =>
    rw [found, Option.map_none] at whole
    exact ⟨text, [], split_absent nonempty ((cut_none_iff nonempty).mp found), split_absent nonempty ((cut_none_iff nonempty).mp whole)⟩
  | some parts =>
    rw [found, Option.map_some] at whole
    exact ⟨parts.1, split d parts.2, split_found nonempty found, split_found nonempty whole⟩

theorem count_absent (absent : ¬d <:+: text) : count d text = 0 := by
  rw [count, split_absent nonempty absent]
  rfl

theorem count_found (found : cut d text = some (front, rest)) : count d text = count d rest + 1 := by
  have filled := List.length_pos_iff.mpr (split_ne_nil nonempty rest)
  rw [count, split_found nonempty found, List.length_cons, count]
  omega

theorem split_length (text : List α) : (split d text).length = count d text + 1 := by
  have filled := List.length_pos_iff.mpr (split_ne_nil nonempty text)
  rw [count]
  omega

/-- More text on the left never hides an occurrence. -/
theorem count_suffix (text : List α) : ∀ {back : List α}, back <:+ text → count d back ≤ count d text := by
  induction size : text.length using Nat.strong_induction_on generalizing text with
  | _ size ih =>
    intro back suffix
    cases inBack : cut d back with
    | none =>
      rw [count_absent nonempty ((cut_none_iff nonempty).mp inBack)]
      exact Nat.zero_le _
    | some parts =>
      obtain ⟨more, whole⟩ := suffix
      have same := cut_eq inBack
      obtain ⟨first, last, found, short⟩ := cut_leftmost nonempty (more ++ parts.1) parts.2
      have again : more ++ parts.1 ++ (d ++ parts.2) = text := by rw [← whole, same, List.append_assoc]
      rw [again] at found
      have split := cut_eq found
      rw [count_found nonempty inBack, count_found nonempty found]
      apply Nat.succ_le_succ
      apply ih last.length (size ▸ rest_shorter nonempty found) last rfl
      have near : parts.2 <:+ text := ⟨more ++ parts.1 ++ d, by rw [← again, List.append_assoc]⟩
      have far : last <:+ text := ⟨first ++ d, by rw [split, List.append_assoc]⟩
      apply List.suffix_of_suffix_length_le near far
      have long := congrArg List.length (again.trans split)
      simp only [List.length_append] at long short
      omega

theorem count_between (front rest : List α) : count d rest + 1 ≤ count d (front ++ (d ++ rest)) := by
  obtain ⟨first, last, found, short⟩ := cut_leftmost nonempty front rest
  have split := cut_eq found
  rw [count_found nonempty found]
  apply Nat.succ_le_succ
  apply count_suffix nonempty
  have near : rest <:+ front ++ (d ++ rest) := ⟨front ++ d, List.append_assoc _ _ _⟩
  have far : last <:+ front ++ (d ++ rest) := ⟨first ++ d, by rw [split, List.append_assoc]⟩
  apply List.suffix_of_suffix_length_le near far
  have long := congrArg List.length split
  simp only [List.length_append] at long
  omega

end

end

variable {α : Type*} (white : α → Bool)

def trim (text : List α) : List α := (text.dropWhile white).rdropWhile white

def Blank (text : List α) : Prop := ∀ c ∈ text, white c = true

instance (text : List α) : Decidable (Blank white text) := inferInstanceAs (Decidable (∀ _ ∈ _, _))

def startsWhite (text : List α) : Bool := text.head?.any white

def endsWhite (text : List α) : Bool := text.getLast?.any white

variable {white} {front text back : List α}

theorem Blank.append (before : Blank white front) (after : Blank white back) : Blank white (front ++ back) := by
  intro c member
  rcases List.mem_append.mp member with member | member
  · exact before c member
  · exact after c member

theorem Blank.left (blank : Blank white (front ++ back)) : Blank white front :=
  fun c member => blank c (List.mem_append_left _ member)

theorem Blank.right (blank : Blank white (front ++ back)) : Blank white back :=
  fun c member => blank c (List.mem_append_right _ member)

theorem dropWhile_blank (blank : Blank white text) : text.dropWhile white = [] := List.dropWhile_eq_nil_iff.mpr blank

theorem dropWhile_blank_append (blank : Blank white front) (text : List α) :
    (front ++ text).dropWhile white = text.dropWhile white := List.dropWhile_append_of_pos blank

theorem dropWhile_append_of_not (ink : ¬Blank white front) (text : List α) :
    (front ++ text).dropWhile white = front.dropWhile white ++ text := by
  rw [List.dropWhile_append, if_neg]
  rw [List.isEmpty_iff, List.dropWhile_eq_nil_iff]
  exact ink

theorem rdropWhile_append_blank (text : List α) (blank : Blank white back) :
    (text ++ back).rdropWhile white = text.rdropWhile white := by
  rw [List.rdropWhile, List.reverse_append, List.rdropWhile]
  rw [List.dropWhile_append_of_pos fun c member => blank c (List.mem_reverse.mp member)]

theorem rdropWhile_append_of_not (text : List α) (ink : ¬Blank white back) :
    (text ++ back).rdropWhile white = text ++ back.rdropWhile white := by
  rw [List.rdropWhile, List.reverse_append, List.rdropWhile]
  have left : ¬Blank white back.reverse := fun blank => ink fun c member => blank c (List.mem_reverse.mpr member)
  rw [dropWhile_append_of_not left, List.reverse_append, List.reverse_reverse]

theorem trim_eq_nil_iff : trim white text = [] ↔ Blank white text := by
  rw [trim, List.rdropWhile_eq_nil_iff]
  constructor
  · intro blank
    have all : Blank white (text.takeWhile white ++ text.dropWhile white) :=
      Blank.append (fun c member => List.mem_takeWhile_imp member) blank
    rwa [List.takeWhile_append_dropWhile] at all
  · intro blank
    rw [dropWhile_blank blank]
    exact fun _ member => absurd member List.not_mem_nil

theorem trim_blank_append (blank : Blank white front) (text : List α) : trim white (front ++ text) = trim white text := by
  rw [trim, dropWhile_blank_append blank, trim]

theorem trim_append_blank (text : List α) (blank : Blank white back) : trim white (text ++ back) = trim white text := by
  by_cases empty : Blank white text
  · rw [trim_eq_nil_iff.mpr empty, trim_eq_nil_iff]
    exact Blank.append empty blank
  · rw [trim, dropWhile_append_of_not empty, rdropWhile_append_blank _ blank, trim]

theorem trim_dropWhile (text : List α) : trim white (text.dropWhile white) = trim white text := by
  rw [trim, List.dropWhile_idempotent, trim]

theorem trim_rdropWhile (text : List α) : trim white (text.rdropWhile white) = trim white text := by
  have whole : trim white (text.rdropWhile white ++ text.rtakeWhile white) = trim white (text.rdropWhile white) :=
    trim_append_blank (text.rdropWhile white) fun c member => List.mem_rtakeWhile_imp member
  rwa [List.rdropWhile_append_rtakeWhile, eq_comm] at whole

/-- Cutting ink off the end shows, however much white space is trimmed afterwards. -/
theorem trim_ne_of_ink (front : List α) (ink : ¬Blank white back) : trim white front ≠ trim white (front ++ back) := by
  intro same
  by_cases empty : Blank white front
  · rw [trim_blank_append empty, trim_eq_nil_iff.mpr empty, eq_comm, trim_eq_nil_iff] at same
    exact ink same
  · have short := congrArg List.length same
    have some : back.rdropWhile white ≠ [] := fun none => ink (List.rdropWhile_eq_nil_iff.mp none)
    have most := (List.rdropWhile_prefix white (front.dropWhile white)).length_le
    have least := List.length_pos_iff.mpr some
    rw [trim, trim, dropWhile_append_of_not empty, rdropWhile_append_of_not _ ink, List.length_append] at short
    omega

theorem head_dropWhile (ink : ¬Blank white text) : ∃ c rest, text.dropWhile white = c :: rest ∧ white c = false := by
  cases left : text.dropWhile white with
  | nil => exact absurd (List.dropWhile_eq_nil_iff.mp left) ink
  | cons c rest =>
    have filled : text.dropWhile white ≠ [] := by
      rw [left]
      exact List.cons_ne_nil c rest
    have first := List.head_dropWhile_not white filled
    simp only [left, List.head_cons] at first
    exact ⟨c, rest, rfl, first⟩

theorem not_blank_cons {c : α} (dark : white c = false) (text : List α) : ¬Blank white (c :: text) := by
  intro blank
  exact absurd ((blank c List.mem_cons_self).symm.trans dark) (by decide)

theorem rdropWhile_cons {c : α} (dark : white c = false) (text : List α) :
    ∃ later, (c :: text).rdropWhile white = c :: later := by
  rcases List.prefix_cons_iff.mp (List.rdropWhile_prefix white (c :: text)) with gone | ⟨later, here, -⟩
  · exact absurd (List.rdropWhile_eq_nil_iff.mp gone) (not_blank_cons dark text)
  · exact ⟨later, here⟩

theorem head_trim (ink : ¬Blank white text) : ∃ c rest, trim white text = c :: rest ∧ white c = false := by
  obtain ⟨c, rest, left, dark⟩ := head_dropWhile ink
  obtain ⟨later, here⟩ := rdropWhile_cons dark rest
  exact ⟨c, later, by rw [trim, left, here], dark⟩

/-- It does not matter which end is trimmed first. -/
theorem trim_eq_dropWhile (text : List α) : trim white text = (text.rdropWhile white).dropWhile white := by
  by_cases blank : Blank white text
  · rw [trim_eq_nil_iff.mpr blank, List.rdropWhile_eq_nil_iff.mpr blank, List.dropWhile_nil]
  · obtain ⟨c, rest, left, dark⟩ := head_dropWhile blank
    obtain ⟨later, here⟩ := rdropWhile_cons dark rest
    have lead : ∀ c ∈ text.takeWhile white, white c = true := fun _ member => List.mem_takeWhile_imp member
    have whole : text.rdropWhile white = text.takeWhile white ++ (c :: rest).rdropWhile white := by
      rw [← rdropWhile_append_of_not _ (not_blank_cons dark rest), ← left, List.takeWhile_append_dropWhile]
    rw [trim, left, whole, List.dropWhile_append_of_pos lead, here, List.dropWhile_cons_of_neg (by rw [dark]; decide)]

/-- White space in front of a delimiter with ink in it moves the ink. -/
theorem shift_nil {d h : List α} (ink : ¬Blank white d) (blank : Blank white h) (found : d <+: h ++ d) : h = [] := by
  obtain ⟨more, same⟩ := found
  have kept : (d.takeWhile white).length < d.length := by
    apply Nat.lt_of_le_of_ne (List.takeWhile_prefix white).length_le
    intro all
    have whole := (List.takeWhile_prefix white).eq_of_length all
    apply ink
    intro c member
    rw [← whole] at member
    exact List.mem_takeWhile_imp member
  have left : (d ++ more).takeWhile white = d.takeWhile white := by
    rw [List.takeWhile_append, if_neg (Nat.ne_of_lt kept)]
  have right : (h ++ d).takeWhile white = h ++ d.takeWhile white := List.takeWhile_append_of_pos blank
  rw [same, right] at left
  have size := congrArg List.length left
  rw [List.length_append] at size
  exact List.eq_nil_of_length_eq_zero (by omega)

end Delimited
