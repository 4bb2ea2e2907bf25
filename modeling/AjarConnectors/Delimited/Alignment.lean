import AjarConnectors.Delimited.Gaps

namespace Delimited

/-- A run of blanks and what follows it, against another such run. -/
theorem blanks_prefix {β : Type*} {e : β} {k m n : Nat} {blank : β} (other : e ≠ blank) (some : m ≤ n) (later read : List β) :
    (List.replicate m blank ++ e :: later).take k <+: List.replicate n blank ++ read ↔
      k ≤ m ∨ n = m ∧ (e :: later).take (k - m) <+: read := by
  induction m generalizing n k with
  | zero =>
    cases k with
    | zero => simp
    | succ k =>
      cases n with
      | zero => simp
      | succ n => simp [List.replicate_succ, List.cons_prefix_cons, other]
  | succ m ih =>
    obtain ⟨n, rfl⟩ := Nat.exists_eq_add_one.mpr (Nat.lt_of_lt_of_le (Nat.succ_pos m) some)
    cases k with
    | zero => simp
    | succ k =>
      rw [List.replicate_succ, List.replicate_succ, List.cons_append, List.cons_append, List.take_succ_cons,
        List.cons_prefix_cons, ih (Nat.le_of_succ_le_succ some), Nat.add_sub_add_right]
      simp

variable {α : Type*} [DecidableEq α] {white : α → Bool}

variable {d f g : List α} {k : Nat} {mid rest fields : List (List α)}

section

omit [DecidableEq α]

theorem filled_zero : Filled white (f :: rest) 0 ↔ ¬Blank white f := by simp [Filled]

theorem filled_past (front : List (List α)) (i : Nat) :
    Filled white (front ++ fields) (front.length + i) ↔ Filled white fields i := by
  rw [Filled, List.getElem?_append_right (Nat.le_add_right _ i), Nat.add_sub_cancel_left, Filled]

theorem not_filled_mid (empty : ∀ b ∈ mid, Blank white b) {i : Nat} (some : 0 < i) (near : i ≤ mid.length) :
    ¬Filled white (f :: (mid ++ rest)) i := by
  obtain ⟨i, rfl⟩ := Nat.exists_eq_add_one.mpr some
  rintro ⟨b, found, ink⟩
  rw [List.getElem?_cons_succ, List.getElem?_append_left near] at found
  exact ink (empty b (List.mem_of_getElem? found))

theorem exists_filled (some : ¬∀ b ∈ rest, Blank white b) :
    ∃ mid g later, rest = mid ++ g :: later ∧ (∀ b ∈ mid, Blank white b) ∧ ¬Blank white g := by
  induction rest with
  | nil => exact absurd (fun _ member => absurd member List.not_mem_nil) some
  | cons b rest ih =>
    by_cases blank : Blank white b
    · have left : ¬∀ b ∈ rest, Blank white b := by
        intro all
        apply some
        intro c member
        rcases List.mem_cons.mp member with rfl | member
        · exact blank
        · exact all c member
      obtain ⟨mid, g, later, rfl, empty, ink⟩ := ih left
      refine ⟨b :: mid, g, later, rfl, ?_, ink⟩
      intro c member
      rcases List.mem_cons.mp member with rfl | member
      · exact blank
      · exact empty c member
    · exact ⟨[], b, rest, rfl, fun _ member => absurd member List.not_mem_nil, blank⟩

end

theorem spaced_single (ink : ¬Blank white f) (empty : ∀ b ∈ rest, Blank white b) :
    Spaced white d k (f :: rest) ↔ min k (rest.length + 1) ≤ 1 := by
  have only : ∀ i, Filled white (f :: rest) i → i = 0 := by
    intro i filled
    by_contra some
    obtain ⟨i, rfl⟩ := Nat.exists_eq_succ_of_ne_zero some
    obtain ⟨b, found, dark⟩ := filled
    exact dark (empty b (List.mem_of_getElem? found))
  constructor
  · rintro ⟨⟨i, near, filled⟩, -⟩
    rwa [only i filled] at near
  · intro near
    refine ⟨⟨0, near, filled_zero.mpr ink⟩, ?_⟩
    intro i j between _ _ _ filled
    rw [only j filled] at between
    exact absurd between (Nat.not_lt_zero i)

/-- The condition from one filled field to the next. -/
theorem spaced_step (ink : ¬Blank white f) (empty : ∀ b ∈ mid, Blank white b) (ink' : ¬Blank white g) :
    Spaced white d (k + 1) (f :: (mid ++ g :: rest)) ↔
      k ≤ mid.length ∨ count d (d.intercalate (f :: (mid ++ [g]))) = mid.length + 1 ∧
        Spaced white d (k - mid.length) (g :: rest) := by
  have past : ∀ i, Filled white (f :: (mid ++ g :: rest)) (mid.length + 1 + i) ↔ Filled white (g :: rest) i := by
    intro i
    exact filled_past (f :: mid) i
  have next : Filled white (f :: (mid ++ g :: rest)) (mid.length + 1) := (past 0).mpr (filled_zero.mpr ink')
  have place : ∀ i, Filled white (f :: (mid ++ g :: rest)) i → i = 0 ∨ ∃ l, i = mid.length + 1 + l ∧ Filled white (g :: rest) l := by
    intro i filled
    by_cases far : mid.length + 1 ≤ i
    · obtain ⟨l, rfl⟩ := Nat.exists_eq_add_of_le far
      exact Or.inr ⟨l, rfl, (past l).mp filled⟩
    · left
      by_contra some
      exact not_filled_mid empty (Nat.pos_of_ne_zero some) (by omega) filled
  have size : (f :: (mid ++ g :: rest)).length = mid.length + 1 + (g :: rest).length := by
    rw [List.length_cons, List.length_append]
    omega
  have inner : ∀ i j, ((f :: (mid ++ g :: rest)).drop (mid.length + 1 + i)).take (mid.length + 1 + j - (mid.length + 1 + i) + 1) =
      ((g :: rest).drop i).take (j - i + 1) := by
    intro i j
    have dropped : (f :: (mid ++ g :: rest)).drop (mid.length + 1 + i) = (g :: rest).drop i := by
      have behind : ((f :: mid) ++ (g :: rest)).drop (f :: mid).length = g :: rest := List.drop_left
      rw [← List.drop_drop]
      exact congrArg (List.drop i) behind
    rw [dropped, Nat.add_sub_add_left]
  have first : ((f :: (mid ++ g :: rest)).drop 0).take (mid.length + 1 - 0 + 1) = f :: (mid ++ [g]) := by
    simp [List.take_append]
  constructor
  · intro spaced
    by_cases near : k ≤ mid.length
    · exact Or.inl near
    · right
      have here := spaced.gaps 0 (mid.length + 1) (Nat.succ_pos _) (by omega) (filled_zero.mpr ink)
        (fun l some before => not_filled_mid empty some (by omega)) next
      rw [first] at here
      refine ⟨here, ?_, ?_⟩
      · obtain ⟨i, far, filled⟩ := spaced.reach
        rcases place i filled with rfl | ⟨l, rfl, inside⟩
        · rw [size, List.length_cons] at far
          omega
        · refine ⟨l, ?_, inside⟩
          rw [size] at far
          omega
      · intro i j between below filled none filled'
        have gap := spaced.gaps (mid.length + 1 + i) (mid.length + 1 + j) (by omega) (by omega) ((past i).mpr filled)
          (fun l after before inside => ?_) ((past j).mpr filled')
        · rw [inner, Nat.add_sub_add_left] at gap
          exact gap
        · obtain ⟨m, rfl⟩ := Nat.exists_eq_add_of_le (Nat.le_of_lt (Nat.lt_of_le_of_lt (Nat.le_add_right _ i) after))
          exact none m (by omega) (by omega) ((past m).mp inside)
  · intro cases
    by_cases near : k ≤ mid.length
    · constructor
      · refine ⟨mid.length + 1, ?_, next⟩
        omega
      · intro i j between below _ _ filled
        exact absurd filled (not_filled_mid empty (by omega) (by omega))
    · obtain ⟨here, spaced⟩ := cases.resolve_left near
      constructor
      · obtain ⟨i, far, filled⟩ := spaced.reach
        refine ⟨mid.length + 1 + i, ?_, (past i).mpr filled⟩
        rw [size]
        omega
      · intro i j between below filled none filled'
        rcases place i filled with rfl | ⟨l, rfl, inside⟩
        · rcases place j filled' with rfl | ⟨m, rfl, inside'⟩
          · exact absurd between (Nat.lt_irrefl 0)
          · cases m with
            | zero =>
              rw [Nat.add_zero, first]
              exact here
            | succ m => exact absurd next (none (mid.length + 1) (by omega) (by omega))
        · rcases place j filled' with rfl | ⟨m, rfl, inside'⟩
          · exact absurd between (Nat.not_lt_zero _)
          · rw [inner, Nat.add_sub_add_left]
            apply spaced.gaps l m (by omega) (by omega) inside _ inside'
            intro q after before filled
            exact none (mid.length + 1 + q) (by omega) (by omega) ((past q).mpr filled)

omit [DecidableEq α] in
theorem row_tail_blank (blank : Blank white d) (f : List α) (empty : ∀ b ∈ rest, Blank white b) :
    ∃ space, Blank white space ∧ d.intercalate (f :: rest) = f ++ space := by
  induction rest generalizing f with
  | nil => exact ⟨[], fun _ member => absurd member List.not_mem_nil, by rw [List.intercalate_singleton, List.append_nil]⟩
  | cons g rest ih =>
    obtain ⟨space, hidden, row⟩ := ih g fun b member => empty b (List.mem_cons_of_mem _ member)
    refine ⟨d ++ (g ++ space), Blank.append blank (Blank.append (empty g List.mem_cons_self) hidden), ?_⟩
    rw [row_cons, row]

theorem take_prefix_singleton {β : Type*} (e : β) (later : List β) :
    (e :: later).take k <+: [e] ↔ min k (later.length + 1) ≤ 1 := by
  constructor
  · intro short
    have size := short.length_le
    rwa [List.length_take, List.length_cons, List.length_singleton] at size
  · intro size
    cases k with
    | zero => exact List.nil_prefix
    | succ k =>
      rw [List.take_succ_cons, List.cons_prefix_cons, List.prefix_nil, List.take_eq_nil_iff]
      refine ⟨rfl, ?_⟩
      rw [← List.length_eq_zero_iff]
      omega

/-- Once the front of the row is trimmed. -/
theorem pieces_iff_spaced (nonempty : d ≠ []) (blank : Blank white d) : ∀ fields : List (List α),
    (∀ f ∈ fields, ¬d <:+: f) → ∀ k, Filled white fields 0 →
      ((fields.map (trim white)).take k <+: pieces white d ((d.intercalate fields).rdropWhile white) ↔
        Spaced white d k fields) := by
  intro fields
  induction size : fields.length using Nat.strong_induction_on generalizing fields with
  | _ n ih =>
    intro free k filled
    cases fields with
    | nil => simp [Filled] at filled
    | cons f rest =>
      have ink := filled_zero.mp filled
      by_cases empty : ∀ b ∈ rest, Blank white b
      · obtain ⟨space, hidden, row⟩ := row_tail_blank blank f empty
        have absent : ¬d <:+: f.rdropWhile white :=
          fun found => free f List.mem_cons_self (found.trans (List.rdropWhile_prefix white f).isInfix)
        rw [row, rdropWhile_append_blank f hidden, pieces_split (split_absent nonempty absent), trim_rdropWhile,
          List.map_cons, List.map_nil, take_prefix_singleton, List.length_map, spaced_single ink empty]
      · obtain ⟨mid, g, later, rfl, hidden, ink'⟩ := exists_filled empty
        cases k with
        | zero =>
          refine ⟨fun _ => ⟨⟨0, by simp, filled⟩, fun i j _ below => absurd below (Nat.not_lt_zero j)⟩, ?_⟩
          exact fun _ => List.nil_prefix
        | succ k =>
          have inner : ∀ x ∈ g :: later, ¬d <:+: x := fun x member =>
            free x (List.mem_cons_of_mem f (List.mem_append_right mid member))
          have shorter : (g :: later).length < n := by
            rw [← size, List.length_cons, List.length_cons, List.length_append, List.length_cons]
            omega
          have step := ih _ shorter (g :: later) rfl inner (k - mid.length) (filled_zero.mpr ink')
          obtain ⟨often, read⟩ := pieces_fields nonempty blank (free f List.mem_cons_self) (inner g List.mem_cons_self)
            ink' hidden
          have none : mid.map (trim white) = List.replicate mid.length [] := by
            rw [List.eq_replicate_iff, List.length_map]
            refine ⟨rfl, ?_⟩
            intro piece member
            obtain ⟨b, inside, rfl⟩ := List.mem_map.mp member
            exact trim_eq_nil_iff.mpr (hidden b inside)
          have other : trim white g ≠ [] := fun gone => ink' (trim_eq_nil_iff.mp gone)
          rw [List.map_cons] at step
          rw [read, spaced_step ink hidden ink', List.map_cons, List.take_succ_cons, List.cons_prefix_cons,
            List.map_append, none, List.map_cons, blanks_prefix other (by omega), step]
          have count : ∀ n, mid.length + 1 ≤ n → (n - 1 = mid.length ↔ n = mid.length + 1) := by omega
          rw [count _ often]
          simp

/-- Behind a delimiter of white space, the columns stay in place exactly as long as the first field is filled, no column
    past the last filled field is asked for, and no field runs into a delimiter; or all is blank, and one column is. -/
theorem aligned_iff_spaced (nonempty : d ≠ []) (blank : Blank white d) (free : ∀ f ∈ fields, ¬d <:+: f)
    (some : fields ≠ []) (columns : 0 < k) :
    Aligned white d k fields ↔
      (∀ f ∈ fields, Blank white f) ∧ min k fields.length ≤ 1 ∨ Filled white fields 0 ∧ Spaced white d k fields := by
  obtain ⟨f, rest, rfl⟩ := List.exists_cons_of_ne_nil some
  by_cases ink : Blank white f
  · have unfilled : ¬Filled white (f :: rest) 0 := fun filled => filled_zero.mp filled ink
    by_cases empty : ∀ b ∈ rest, Blank white b
    · obtain ⟨space, hidden, row⟩ := row_tail_blank blank f empty
      have all : ∀ b ∈ f :: rest, Blank white b := by
        intro b member
        rcases List.mem_cons.mp member with rfl | member
        · exact ink
        · exact empty b member
      have gone : trim white (d.intercalate (f :: rest)) = [] := by
        rw [row]
        exact trim_eq_nil_iff.mpr (Blank.append ink hidden)
      have absent : ¬d <:+: ([] : List α) := fun found => nonempty (List.infix_nil.mp found)
      have first : trim white f = trim white [] := (trim_eq_nil_iff.mpr ink).trans rfl
      rw [Aligned, gone, pieces_split (split_absent nonempty absent), List.map_cons, first, List.map_nil,
        take_prefix_singleton, List.length_map, List.length_cons]
      exact ⟨fun near => Or.inl ⟨all, near⟩, fun both => (both.resolve_right fun right => unfilled right.1).2⟩
    · obtain ⟨mid, g, later, rfl, hidden, ink'⟩ := exists_filled empty
      have shown : ¬Blank white (d.intercalate (f :: (mid ++ g :: later))) := by
        rw [row_gap]
        intro covered
        obtain ⟨c, text, split, dark⟩ := row_ink d ink' later
        rw [List.rdropWhile_eq_nil_iff.mpr covered.right.right] at split
        simp at split
      obtain ⟨c, tail, text, dark⟩ := head_trim shown
      have starts : startsWhite white d = true := by
        obtain ⟨e, d, rfl⟩ := List.exists_cons_of_ne_nil nonempty
        exact blank e List.mem_cons_self
      obtain ⟨piece, pieces, split, wrong⟩ := ink_piece nonempty starts dark tail
      obtain ⟨k, rfl⟩ := Nat.exists_eq_add_one.mpr columns
      rw [Aligned, text, pieces_split split, List.map_cons, List.take_succ_cons, List.cons_prefix_cons,
        trim_eq_nil_iff.mpr ink]
      constructor
      · exact fun both => absurd both.1.symm wrong
      · rintro (⟨all, -⟩ | ⟨filled, -⟩)
        · exact absurd (all g (List.mem_cons_of_mem f (List.mem_append_right mid List.mem_cons_self))) ink'
        · exact absurd filled unfilled
  · have filled : Filled white (f :: rest) 0 := filled_zero.mpr ink
    obtain ⟨c, text, split, dark⟩ := row_ink d ink rest
    have lead : Blank white (f.takeWhile white) := fun c member => List.mem_takeWhile_imp member
    have leadFree : ¬d <:+: f.takeWhile white :=
      fun found => free f List.mem_cons_self (found.trans (List.takeWhile_prefix white).isInfix)
    have trimmed : trim white (d.intercalate (f :: rest)) = c :: text := by
      rw [trim_eq_dropWhile, split, dropWhile_blank_append lead, List.dropWhile_cons_of_neg (by rw [dark]; decide)]
    have inner := pieces_iff_spaced nonempty blank (f :: rest) free k filled
    rw [split, pieces_clear nonempty (clear_white blank leadFree dark text) lead] at inner
    rw [Aligned, trimmed, inner]
    constructor
    · exact fun spaced => Or.inr ⟨filled, spaced⟩
    · rintro (⟨all, -⟩ | ⟨-, spaced⟩)
      · exact absurd (all f List.mem_cons_self) ink
      · exact spaced

end Delimited
