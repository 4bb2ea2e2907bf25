import AjarConnectors.Delimited.Splitting

namespace Delimited

section

variable {α : Type*} (white : α → Bool)

/-- No occurrence begins in a field ahead of the one written behind it. -/
def Sharp (d field : List α) : Prop := Clear d field d

/-- For a delimiter that is not all white space: nothing is found ahead of its place in a row whose first field has no
    white space in front, and the end of the row does not eat into the delimiter before it. -/
structure Kept (d : List α) (k : Nat) (fields : List (List α)) : Prop where
  sharp : ∀ front f g rest, fields = front ++ f :: g :: rest → front.length < k → Sharp d f
  last : ∀ front f g, fields = front ++ [f, g] → front.length < k → Blank white g → endsWhite white d = false

/-- Nor does the beginning of the row eat into the delimiter behind it. -/
structure Inked (d : List α) (k : Nat) (fields : List (List α)) : Prop where
  first : ∀ f g rest, fields = f :: g :: rest → Blank white f → startsWhite white d = false
  kept : Kept white d k (fields.modifyHead fun f => f.dropWhile white)

variable {white} {d f g : List α} {k : Nat}

theorem sharp_clear (sharp : Sharp d f) (rest : List α) : Clear d f (d ++ rest) := by
  intro g h split found
  apply sharp g h split
  rw [← List.append_assoc] at found
  apply List.prefix_of_prefix_length_le found (List.prefix_append (h ++ d) rest)
  rw [List.length_append]
  omega

/-- An early first piece is not the field, trimmed or not. -/
theorem early_piece {front back : List α} (ink : ¬Blank white d) (some : back ≠ []) (found : d <+: back ++ d) :
    trim white front ≠ trim white (front ++ back) :=
  trim_ne_of_ink front fun blank => some (shift_nil ink blank found)

theorem row_cons (d f g : List α) (rest : List (List α)) :
    d.intercalate (f :: g :: rest) = f ++ (d ++ d.intercalate (g :: rest)) := by
  rw [List.intercalate_cons_cons, List.append_assoc]

theorem blank_row (ink : ¬Blank white d) {rest : List (List α)} (blank : Blank white (d.intercalate (g :: rest))) :
    rest = [] ∧ Blank white g := by
  cases rest with
  | nil =>
    rw [List.intercalate_singleton] at blank
    exact ⟨rfl, blank⟩
  | cons h rest =>
    rw [row_cons] at blank
    exact absurd blank.right.left ink

theorem kept_single (d f : List α) (k : Nat) : Kept white d k [f] := by
  constructor
  · intro front g h rest same
    have size := congrArg List.length same
    simp only [List.length_append, List.length_cons, List.length_nil] at size
    omega
  · intro front g h same
    have size := congrArg List.length same
    simp only [List.length_append, List.length_cons, List.length_nil] at size
    omega

theorem kept_cons {rest : List (List α)} : Kept white d (k + 1) (f :: g :: rest) ↔
    Sharp d f ∧ (rest = [] → Blank white g → endsWhite white d = false) ∧ Kept white d k (g :: rest) := by
  constructor
  · intro kept
    refine ⟨kept.sharp [] f g rest rfl (Nat.succ_pos k), ?_, ?_, ?_⟩
    · rintro rfl blank
      exact kept.last [] f g rfl (Nat.succ_pos k) blank
    · intro front h i later same near
      exact kept.sharp (f :: front) h i later (by rw [same, List.cons_append]) (Nat.succ_lt_succ near)
    · intro front h i same near
      exact kept.last (f :: front) h i (by rw [same, List.cons_append]) (Nat.succ_lt_succ near)
  · rintro ⟨sharp, last, kept⟩
    constructor
    · intro front h i later same near
      cases front with
      | nil =>
        rw [List.nil_append, List.cons.injEq] at same
        rwa [← same.1]
      | cons x front =>
        rw [List.cons_append, List.cons.injEq] at same
        exact kept.sharp front h i later same.2 (Nat.lt_of_succ_lt_succ near)
    · intro front h i same near
      cases front with
      | nil =>
        rw [List.nil_append, List.cons.injEq, List.cons.injEq] at same
        rw [← same.2.1]
        exact last same.2.2
      | cons x front =>
        rw [List.cons_append, List.cons.injEq] at same
        exact kept.last front h i same.2 (Nat.lt_of_succ_lt_succ near)

/-- The end of the row is trimmed behind the delimiter. -/
theorem tail_row (ink : ¬Blank white d) {rest : List (List α)}
    (whole : rest = [] → Blank white g → endsWhite white d = false) :
    (d.intercalate (f :: g :: rest)).rdropWhile white =
      f ++ (d ++ (d.intercalate (g :: rest)).rdropWhile white) := by
  have some : ¬Blank white (d ++ d.intercalate (g :: rest)) := fun blank => ink blank.left
  rw [row_cons, rdropWhile_append_of_not f some]
  by_cases blank : Blank white (d.intercalate (g :: rest))
  · obtain ⟨only, last⟩ := blank_row ink blank
    have stays : d.rdropWhile white = d := by
      rw [List.rdropWhile_eq_self_iff]
      intro filled white
      have ends := whole only last
      rw [endsWhite, List.getLast?_eq_some_getLast filled, Option.any_some, white] at ends
      cases ends
    rw [rdropWhile_append_blank d blank, stays, List.rdropWhile_eq_nil_iff.mpr blank, List.append_nil]
  · rw [rdropWhile_append_of_not d blank]

theorem trim_row (nonempty : d ≠ []) (f : List α) (rest : List (List α))
    (kept : rest = [] ∨ ¬Blank white f ∨ startsWhite white d = false) :
    trim white (d.intercalate (f :: rest)) = (d.intercalate (f.dropWhile white :: rest)).rdropWhile white := by
  rw [trim]
  cases rest with
  | nil => rw [List.intercalate_singleton, List.intercalate_singleton]
  | cons g rest =>
    rw [row_cons, row_cons]
    by_cases blank : Blank white f
    · have first : startsWhite white d = false := by simpa [blank] using kept
      obtain ⟨c, more, rfl⟩ := List.exists_cons_of_ne_nil nonempty
      rw [startsWhite, List.head?_cons, Option.any_some] at first
      rw [dropWhile_blank_append blank, dropWhile_blank blank, List.nil_append, List.cons_append,
        List.dropWhile_cons_of_neg (by rw [first]; decide)]
    · rw [dropWhile_append_of_not blank]

end

variable {α : Type*} [DecidableEq α] (white : α → Bool)

/-- The trimmed pieces of a text. -/
def pieces (d text : List α) : List (List α) := (split d text).map (trim white)

/-- The first `k` trimmed fields are the first pieces of the trimmed row. -/
def Aligned (d : List α) (k : Nat) (fields : List (List α)) : Prop :=
  (fields.map (trim white)).take k <+: pieces white d (trim white (d.intercalate fields))

variable {white} {d f g text rest : List α} {k : Nat} {fields : List (List α)}

theorem split_sharp (nonempty : d ≠ []) (sharp : Sharp d f) (rest : List α) :
    split d (f ++ (d ++ rest)) = f :: split d rest := by
  have whole := cut_clear (sharp_clear sharp rest)
  rw [cut_delimiter nonempty, Option.map_some, List.append_nil] at whole
  exact split_found nonempty whole

/-- The first piece of a field followed by a part of what a delimiter begins with. -/
theorem first_piece {t : List α} (nonempty : d ≠ []) (ink : ¬Blank white d)
    (early : ∃ first last, cut d (f ++ t) = some (first, last) ∧ first.length < f.length)
    (begins : ∀ back, back ≠ [] → d <+: back ++ t → d <+: back ++ d) :
    ∃ piece rest, split d (f ++ t) = piece :: rest ∧ trim white f ≠ trim white piece := by
  obtain ⟨first, last, found, short⟩ := early
  have whole := cut_eq found
  have inside : first <+: f := by
    apply List.prefix_of_prefix_length_le ⟨d ++ last, whole.symm⟩ (List.prefix_append f t)
    exact Nat.le_of_lt short
  obtain ⟨back, rfl⟩ := inside
  have some : back ≠ [] := by
    rintro rfl
    rw [List.append_nil] at short
    exact Nat.lt_irrefl _ short
  rw [List.append_assoc] at whole
  have here : d <+: back ++ t := ⟨last, (List.append_cancel_left whole).symm⟩
  exact ⟨first, split d last, split_found nonempty found, (early_piece ink some (begins back some here)).symm⟩

theorem blunt_piece (nonempty : d ≠ []) (ink : ¬Blank white d) (blunt : ¬Sharp d f) (rest : List α) :
    ∃ piece later, split d (f ++ (d ++ rest)) = piece :: later ∧ trim white f ≠ trim white piece := by
  simp only [Sharp, Clear, not_forall] at blunt
  obtain ⟨g, h, rfl, found, some⟩ := blunt
  apply first_piece nonempty ink
  · obtain ⟨more, same⟩ := found
    obtain ⟨first, last, cut, short⟩ := cut_leftmost nonempty g (more ++ rest)
    refine ⟨first, last, ?_, ?_⟩
    · rw [← cut, ← List.append_assoc d, same]
      simp
    · have filled := List.length_pos_iff.mpr some
      rw [List.length_append]
      omega
  · intro back _ here
    apply List.prefix_of_prefix_length_le here
    · rw [← List.append_assoc]
      exact List.prefix_append (back ++ d) rest
    · rw [List.length_append]
      omega

/-- A delimiter that lost its end is not found, and what is left of it spoils the field in front. -/
theorem torn_piece (nonempty : d ≠ []) (ink : ¬Blank white d) (ends : endsWhite white d = true) :
    ∃ piece later, split d (f ++ d.rdropWhile white) = piece :: later ∧ trim white f ≠ trim white piece := by
  have shorter : (d.rdropWhile white).length < d.length := by
    apply Nat.lt_of_le_of_ne (List.rdropWhile_prefix white d).length_le
    intro all
    have whole := (List.rdropWhile_prefix white d).eq_of_length all
    have last := List.rdropWhile_eq_self_iff.mp whole nonempty
    rw [endsWhite, List.getLast?_eq_some_getLast nonempty, Option.any_some] at ends
    exact last ends
  cases found : cut d (f ++ d.rdropWhile white) with
  | none =>
    refine ⟨_, [], split_absent nonempty ((cut_none_iff nonempty).mp found), ?_⟩
    apply trim_ne_of_ink
    intro blank
    apply ink
    rw [← List.rdropWhile_append_rtakeWhile (p := white) (l := d)]
    exact Blank.append blank fun c member => List.mem_rtakeWhile_imp member
  | some parts =>
    apply first_piece nonempty ink
    · refine ⟨parts.1, parts.2, found, ?_⟩
      have long := congrArg List.length (cut_eq found)
      simp only [List.length_append] at long
      omega
    · intro back _ here
      exact here.trans ((List.prefix_append_right_inj back).mpr (List.rdropWhile_prefix white d))

theorem pieces_split {piece : List α} {later : List (List α)} (found : split d text = piece :: later) :
    pieces white d text = trim white piece :: later.map (trim white) := by
  rw [pieces, found, List.map_cons]

/-- Once the front of the row is trimmed. -/
theorem pieces_iff_kept (nonempty : d ≠ []) (ink : ¬Blank white d) (free : ∀ f ∈ fields, ¬d <:+: f) (some : fields ≠ []) :
    (fields.map (trim white)).take k <+: pieces white d ((d.intercalate fields).rdropWhile white) ↔ Kept white d k fields := by
  induction fields generalizing k with
  | nil => exact absurd rfl some
  | cons f rest ih =>
    cases k with
    | zero =>
      refine ⟨fun _ => ⟨fun _ _ _ _ _ near => absurd near (Nat.not_lt_zero _), fun _ _ _ _ near => absurd near (Nat.not_lt_zero _)⟩, ?_⟩
      exact fun _ => List.nil_prefix
    | succ k =>
      cases rest with
      | nil =>
        have absent : ¬d <:+: f.rdropWhile white :=
          fun found => free f List.mem_cons_self (found.trans (List.rdropWhile_prefix white f).isInfix)
        rw [List.intercalate_singleton, pieces, split_absent nonempty absent, List.map_singleton, List.map_singleton,
          trim_rdropWhile]
        exact ⟨fun _ => kept_single d f (k + 1), fun _ => List.take_prefix _ _⟩
      | cons g rest =>
        rw [kept_cons, List.map_cons, List.take_succ_cons]
        by_cases whole : rest = [] → Blank white g → endsWhite white d = false
        · rw [tail_row ink whole]
          by_cases sharp : Sharp d f
          · rw [pieces_split (split_sharp nonempty sharp _), List.cons_prefix_cons]
            have later := @ih k (fun f member => free f (List.mem_cons_of_mem _ member)) (List.cons_ne_nil g rest)
            rw [pieces] at later
            rw [later]
            exact ⟨fun both => ⟨sharp, whole, both.2⟩, fun all => ⟨rfl, all.2.2⟩⟩
          · obtain ⟨piece, later, split, wrong⟩ :=
              blunt_piece nonempty ink sharp ((d.intercalate (g :: rest)).rdropWhile white)
            rw [pieces_split split, List.cons_prefix_cons]
            exact ⟨fun both => absurd both.1 wrong, fun all => absurd all.1 sharp⟩
        · have torn : rest = [] ∧ Blank white g ∧ endsWhite white d = true := by simpa using whole
          obtain ⟨rfl, blank, ends⟩ := torn
          obtain ⟨piece, later, split, wrong⟩ := torn_piece (f := f) nonempty ink ends
          rw [row_cons, List.intercalate_singleton, ← List.append_assoc, rdropWhile_append_blank _ blank,
            rdropWhile_append_of_not f ink, pieces_split split, List.cons_prefix_cons]
          exact ⟨fun both => absurd both.1 wrong, fun all => absurd all.2.1 whole⟩

/-- A delimiter that begins with white space leaves ink in the first piece of a text that begins with ink. -/
theorem ink_piece (nonempty : d ≠ []) (starts : startsWhite white d = true) {c : α} (dark : white c = false)
    (tail : List α) : ∃ piece later, split d (c :: tail) = piece :: later ∧ trim white piece ≠ [] := by
  cases found : cut d (c :: tail) with
  | none =>
    refine ⟨_, [], split_absent nonempty ((cut_none_iff nonempty).mp found), ?_⟩
    rw [Ne, trim_eq_nil_iff]
    exact not_blank_cons dark tail
  | some parts =>
    refine ⟨_, _, split_found nonempty found, ?_⟩
    rw [Ne, trim_eq_nil_iff]
    have whole := cut_eq found
    cases front : parts.1 with
    | nil =>
      obtain ⟨e, d, rfl⟩ := List.exists_cons_of_ne_nil nonempty
      rw [front, List.nil_append, List.cons_append, List.cons.injEq] at whole
      rw [startsWhite, List.head?_cons, Option.any_some, ← whole.1, dark] at starts
      cases starts
    | cons x front' =>
      rw [front, List.cons_append, List.cons.injEq] at whole
      rw [← whole.1]
      exact not_blank_cons dark front'

/-- Behind a delimiter with ink in it, the columns stay in place exactly as long as no edge of the row eats into a
    delimiter and none is found early. -/
theorem aligned_iff_inked (nonempty : d ≠ []) (ink : ¬Blank white d) (free : ∀ f ∈ fields, ¬d <:+: f)
    (some : fields ≠ []) (columns : 0 < k) : Aligned white d k fields ↔ Inked white d k fields := by
  obtain ⟨f, rest, rfl⟩ := List.exists_cons_of_ne_nil some
  obtain ⟨k, rfl⟩ := Nat.exists_eq_add_one.mpr columns
  by_cases kept : rest = [] ∨ ¬Blank white f ∨ startsWhite white d = false
  · have trimmed : ((f.dropWhile white :: rest).map (trim white)) = (f :: rest).map (trim white) := by
      rw [List.map_cons, trim_dropWhile, List.map_cons]
    have free' : ∀ g ∈ f.dropWhile white :: rest, ¬d <:+: g := by
      intro g member
      rcases List.mem_cons.mp member with rfl | member
      · exact fun found => free f List.mem_cons_self (found.trans (List.dropWhile_suffix white).isInfix)
      · exact free g (List.mem_cons_of_mem f member)
    rw [Aligned, trim_row nonempty f rest kept, ← trimmed, pieces_iff_kept nonempty ink free' (List.cons_ne_nil _ rest)]
    constructor
    · intro inner
      refine ⟨?_, inner⟩
      intro x g later same blank
      rw [List.cons.injEq] at same
      rcases kept with only | bright | first
      · rw [only] at same
        cases same.2
      · rw [same.1] at bright
        exact absurd blank bright
      · exact first
    · exact fun inked => inked.kept
  · have lost : rest ≠ [] ∧ Blank white f ∧ startsWhite white d = true := by simpa using kept
    obtain ⟨later, blank, starts⟩ := lost
    obtain ⟨g, rest, rfl⟩ := List.exists_cons_of_ne_nil later
    obtain ⟨c, tail, text, dark⟩ := head_trim fun hidden : Blank white (d ++ d.intercalate (g :: rest)) => ink hidden.left
    obtain ⟨piece, pieces, split, wrong⟩ := ink_piece nonempty starts dark tail
    rw [Aligned, row_cons, trim_blank_append blank, text, pieces_split split, List.map_cons, List.take_succ_cons,
      List.cons_prefix_cons, trim_eq_nil_iff.mpr blank]
    constructor
    · exact fun both => absurd both.1.symm wrong
    · intro inked
      rw [inked.first f g rest rfl blank] at starts
      cases starts

omit [DecidableEq α] in
/-- One character of ink keeps every column in place. -/
theorem inked_single {c : α} (dark : white c = false) (free : ∀ f ∈ fields, ¬[c] <:+: f) : Inked white [c] k fields := by
  have found : ∀ text : List α, c ∈ text → [c] <:+: text := by
    intro text inside
    obtain ⟨before, after, rfl⟩ := List.append_of_mem inside
    exact ⟨before, after, by simp⟩
  refine ⟨fun _ _ _ _ _ => dark, ?_, fun _ _ _ _ _ _ => dark⟩
  intro front f g rest same _ before after split begins
  have member : f ∈ fields.modifyHead fun f => f.dropWhile white := by
    rw [same]
    exact List.mem_append_right front List.mem_cons_self
  have absent : c ∉ f := by
    intro inside
    cases fields with
    | nil => cases member
    | cons x fields =>
      rcases List.mem_cons.mp member with rfl | later
      · exact free x List.mem_cons_self (found x ((List.dropWhile_suffix white).subset inside))
      · exact free f (List.mem_cons_of_mem x later) (found f inside)
  cases after with
  | nil => rfl
  | cons x after =>
    rw [List.cons_append, List.cons_prefix_cons] at begins
    rw [split, begins.1] at absent
    exact absurd (List.mem_append_right before List.mem_cons_self) absent

end Delimited
