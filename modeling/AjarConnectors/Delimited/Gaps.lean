import AjarConnectors.Delimited.Rows

namespace Delimited

variable {α : Type*} [DecidableEq α] (white : α → Bool)

/-- There is a field of this index, and it is not blank. -/
def Filled (fields : List (List α)) (i : Nat) : Prop := ∃ f, fields[i]? = some f ∧ ¬Blank white f

/-- For a delimiter of white space: the last column asked for lies at or before a filled field, and between two filled
    fields with none between them the delimiter is found as often as it was written. -/
structure Spaced (d : List α) (k : Nat) (fields : List (List α)) : Prop where
  reach : ∃ i, min k fields.length ≤ i + 1 ∧ Filled white fields i
  gaps : ∀ i j, i < j → j < k → Filled white fields i → (∀ l, i < l → l < j → ¬Filled white fields l) →
    Filled white fields j → count d (d.intercalate ((fields.drop i).take (j - i + 1))) = j - i

/-- The delimiters and the fields between two filled fields. -/
def gap (d : List α) : List (List α) → List α
  | [] => d
  | b :: mid => d ++ (b ++ gap d mid)

variable {white} {d f g : List α} {k : Nat} {mid rest : List (List α)}

omit [DecidableEq α] in
theorem row_gap (d f : List α) (mid : List (List α)) (g : List α) (rest : List (List α)) :
    d.intercalate (f :: (mid ++ g :: rest)) = f ++ (gap d mid ++ d.intercalate (g :: rest)) := by
  induction mid generalizing f with
  | nil => rw [List.nil_append, row_cons, gap]
  | cons b mid ih => rw [List.cons_append, row_cons, ih, gap, List.append_assoc, List.append_assoc]

omit [DecidableEq α] in
theorem gap_blank (blank : Blank white d) (empty : ∀ b ∈ mid, Blank white b) : Blank white (gap d mid) := by
  induction mid with
  | nil => exact blank
  | cons b mid ih =>
    have later := ih fun b member => empty b (List.mem_cons_of_mem _ member)
    exact Blank.append blank (Blank.append (empty b List.mem_cons_self) later)

/-- However the delimiter is found, it is found at least as often as it was written. -/
theorem count_gap (nonempty : d ≠ []) (front : List α) (mid : List (List α)) (back : List α) :
    mid.length + 1 ≤ count d (front ++ (gap d mid ++ back)) := by
  induction mid generalizing front with
  | nil => exact Nat.le_trans (Nat.le_add_left 1 _) (count_between nonempty front back)
  | cons b mid ih =>
    have later := ih b
    have here := count_between nonempty front (b ++ (gap d mid ++ back))
    rw [gap, List.append_assoc, List.append_assoc, List.length_cons]
    omega

omit [DecidableEq α] in
/-- White space cannot begin inside a text that ends in ink. -/
theorem clear_ink (blank : Blank white d) (free : ¬d <:+: f) (text : List α) : Clear d (f.rdropWhile white) text := by
  intro g h split found
  by_contra some
  rcases Nat.le_total d.length h.length with short | long
  · have inside := List.prefix_of_prefix_length_le found (List.prefix_append h text) short
    have place : h <:+: f := by
      apply List.IsInfix.trans _ (List.rdropWhile_prefix white f).isInfix
      rw [split]
      exact (List.suffix_append g h).isInfix
    exact free (inside.isInfix.trans place)
  · have inside := List.prefix_of_prefix_length_le (List.prefix_append h text) found long
    have filled : f.rdropWhile white ≠ [] := by
      rw [split]
      simp [some]
    have last := List.rdropWhile_last_not white f filled
    apply last
    apply blank
    apply inside.subset
    simp only [split, List.getLast_append_of_ne_nil _ some]
    exact List.getLast_mem some

omit [DecidableEq α] in
/-- Nor can it run on into a text that starts with ink. -/
theorem clear_white (blank : Blank white d) (free : ¬d <:+: f) {c : α} (dark : white c = false) (text : List α) :
    Clear d f (c :: text) := by
  intro g h split found
  by_contra some
  rcases Nat.le_total d.length h.length with short | long
  · have inside := List.prefix_of_prefix_length_le found (List.prefix_append h (c :: text)) short
    apply free
    rw [split]
    exact inside.isInfix.trans (List.suffix_append g h).isInfix
  · obtain ⟨more, same⟩ := List.prefix_of_prefix_length_le (List.prefix_append h (c :: text)) found long
    rw [← same, List.prefix_append_right_inj] at found
    cases more with
    | nil =>
      apply free
      rw [split, ← same, List.append_nil]
      exact (List.suffix_append g h).isInfix
    | cons e more =>
      rw [List.cons_prefix_cons] at found
      have shown := blank e (by rw [← same]; exact List.mem_append_right h List.mem_cons_self)
      rw [found.1, dark] at shown
      cases shown

theorem pieces_clear (nonempty : d ≠ []) {front text : List α} (clear : Clear d front text) (blank : Blank white front) :
    pieces white d (front ++ text) = pieces white d text := by
  obtain ⟨piece, later, split, whole⟩ := split_clear nonempty clear
  rw [pieces_split split, pieces_split whole, trim_blank_append blank]

/-- White space in front of ink: one empty piece for each delimiter found in it. -/
theorem pieces_white (nonempty : d ≠ []) (blank : Blank white d) {c : α} (dark : white c = false) (text : List α) :
    ∀ space : List α, Blank white space →
      pieces white d (space ++ c :: text) = List.replicate (count d space) [] ++ pieces white d (c :: text) := by
  intro space
  induction size : space.length using Nat.strong_induction_on generalizing space with
  | _ size ih =>
    intro empty
    cases found : cut d space with
    | none =>
      have free := (cut_none_iff nonempty).mp found
      rw [count_absent nonempty free, pieces_clear nonempty (clear_white blank free dark text) empty]
      rfl
    | some parts =>
      have whole := cut_eq found
      rw [whole] at empty
      have later := ih parts.2.length (size ▸ rest_shorter nonempty found) parts.2 rfl empty.right.right
      have split := split_found nonempty (cut_extend found (c :: text))
      rw [pieces_split split, trim_eq_nil_iff.mpr empty.left, count_found nonempty found, List.replicate_succ,
        List.cons_append, ← later]
      rfl

/-- A filled field, white space with at least one delimiter in it, and ink. -/
theorem pieces_gap (nonempty : d ≠ []) (blank : Blank white d) (free : ¬d <:+: f) {space : List α}
    (empty : Blank white space) (some : 0 < count d space) {c : α} (dark : white c = false) (text : List α) :
    pieces white d (f.rdropWhile white ++ (space ++ c :: text)) =
      trim white f :: (List.replicate (count d space - 1) [] ++ pieces white d (c :: text)) := by
  obtain ⟨piece, later, split, whole⟩ := split_clear nonempty (clear_ink blank free (space ++ c :: text))
  have spread := pieces_white nonempty blank dark text space empty
  obtain ⟨n, count⟩ := Nat.exists_eq_add_one.mpr some
  rw [pieces_split split, count, List.replicate_succ, List.cons_append, List.cons.injEq] at spread
  rw [pieces_split whole, trim_append_blank _ (trim_eq_nil_iff.mp spread.1), trim_rdropWhile, spread.2, count]
  rfl

omit [DecidableEq α] in
theorem dropWhile_ink (ink : ¬Blank white g) : ∃ c text, g = g.takeWhile white ++ c :: text ∧ white c = false := by
  obtain ⟨c, text, left, dark⟩ := head_dropWhile ink
  exact ⟨c, text, by rw [← left, List.takeWhile_append_dropWhile], dark⟩

omit [DecidableEq α] in
/-- A row keeps its first field's white space when its end is trimmed. -/
theorem row_ink (d : List α) (ink : ¬Blank white g) (rest : List (List α)) :
    ∃ c text, (d.intercalate (g :: rest)).rdropWhile white = g.takeWhile white ++ c :: text ∧ white c = false := by
  obtain ⟨c, text, split, dark⟩ := dropWhile_ink ink
  obtain ⟨tail, row⟩ : ∃ tail, d.intercalate (g :: rest) = g ++ tail := by
    cases rest with
    | nil => exact ⟨[], by rw [List.intercalate_singleton, List.append_nil]⟩
    | cons h rest => exact ⟨_, row_cons d g h rest⟩
  obtain ⟨later, here⟩ := rdropWhile_cons dark (text ++ tail)
  have whole : d.intercalate (g :: rest) = g.takeWhile white ++ c :: (text ++ tail) := by
    rw [row]
    nth_rewrite 1 [split]
    rw [List.append_assoc, List.cons_append]
  exact ⟨c, later, by rw [whole, rdropWhile_append_of_not _ (not_blank_cons dark _), here], dark⟩

/-- Between two filled fields there is one empty piece less than there are delimiters. -/
theorem pieces_fields (nonempty : d ≠ []) (blank : Blank white d) (free : ¬d <:+: f) (free' : ¬d <:+: g)
    (ink : ¬Blank white g) (empty : ∀ b ∈ mid, Blank white b) :
    mid.length + 1 ≤ count d (d.intercalate (f :: (mid ++ [g]))) ∧
      ∀ rest, pieces white d ((d.intercalate (f :: (mid ++ g :: rest))).rdropWhile white) =
        trim white f :: (List.replicate (count d (d.intercalate (f :: (mid ++ [g]))) - 1) [] ++
          pieces white d ((d.intercalate (g :: rest)).rdropWhile white)) := by
  have lead : Blank white (g.takeWhile white) := fun c member => List.mem_takeWhile_imp member
  have trail : Blank white (f.rtakeWhile white) := fun c member => List.mem_rtakeWhile_imp member
  have leadFree : ¬d <:+: g.takeWhile white := fun found => free' (found.trans (List.takeWhile_prefix white).isInfix)
  have space : Blank white (f.rtakeWhile white ++ (gap d mid ++ g.takeWhile white)) :=
    Blank.append trail (Blank.append (gap_blank blank empty) lead)
  have often := count_gap nonempty (f.rtakeWhile white) mid (g.takeWhile white)
  have around : ∀ text : List α, f ++ (gap d mid ++ (g.takeWhile white ++ text)) =
      f.rdropWhile white ++ ((f.rtakeWhile white ++ (gap d mid ++ g.takeWhile white)) ++ text) := by
    intro text
    nth_rewrite 1 [← List.rdropWhile_append_rtakeWhile (p := white) (l := f)]
    simp only [List.append_assoc]
  have same : count d (d.intercalate (f :: (mid ++ [g]))) =
      count d (f.rtakeWhile white ++ (gap d mid ++ g.takeWhile white)) := by
    obtain ⟨c, text, split, dark⟩ := dropWhile_ink ink
    have tailFree : ¬d <:+: c :: text := by
      intro found
      apply free'
      rw [split]
      exact found.trans (List.suffix_append _ _).isInfix
    have read := congrArg List.length (pieces_gap nonempty blank free space (by omega) dark text)
    rw [← around, ← split, pieces, List.length_map, split_length nonempty, List.length_cons, List.length_append,
      List.length_replicate, pieces, split_absent nonempty tailFree, List.length_map, List.length_singleton] at read
    rw [row_gap, List.intercalate_singleton]
    omega
  rw [same]
  refine ⟨often, fun rest => ?_⟩
  obtain ⟨c, text, split, dark⟩ := row_ink d ink rest
  have bright : ¬Blank white (d.intercalate (g :: rest)) := by
    intro hidden
    rw [List.rdropWhile_eq_nil_iff.mpr hidden] at split
    simp at split
  rw [row_gap, rdropWhile_append_of_not _ (fun hidden => bright hidden.right), rdropWhile_append_of_not _ bright, split,
    around, pieces_gap nonempty blank free space (by omega) dark text,
    pieces_clear nonempty (clear_white blank leadFree dark text) lead]

end Delimited
