import Mathlib.Algebra.Ring.Nat
import Mathlib.Data.List.GetD

namespace Positional

/-- The number that digits spell, most significant first. -/
def number (base : Nat) : List Nat → Nat
  | [] => 0
  | d :: ds => d * base^ds.length + number base ds

/-- The low `width` digits of a number, most significant first. -/
def digits (base value : Nat) : Nat → List Nat
  | 0 => []
  | width + 1 => value / base^width % base :: digits base value width

/-- A high part counts for more than any low part. -/
theorem place_lt_iff {unit x y a b : Nat} (left : a < unit) (right : b < unit) :
    x * unit + a < y * unit + b ↔ x < y ∨ x = y ∧ a < b := by
  rcases Nat.lt_trichotomy x y with less | rfl | more
  · have above : (x + 1) * unit ≤ y * unit := Nat.mul_le_mul_right unit less
    rw [Nat.succ_mul] at above
    constructor
    · exact fun _ => Or.inl less
    · exact fun _ => by omega
  · simp only [Nat.lt_irrefl, true_and, false_or]
    exact Nat.add_lt_add_iff_left
  · have above : (y + 1) * unit ≤ x * unit := Nat.mul_le_mul_right unit more
    rw [Nat.succ_mul] at above
    constructor
    · intro below
      omega
    · rintro (less | ⟨rfl, _⟩)
      · omega
      · exact absurd more (Nat.lt_irrefl x)

theorem place_inj {unit x y a b : Nat} (left : a < unit) (right : b < unit) :
    x * unit + a = y * unit + b ↔ x = y ∧ a = b := by
  have less := place_lt_iff (x := x) (y := y) left right
  have more := place_lt_iff (x := y) (y := x) right left
  constructor
  · intro same
    omega
  · rintro ⟨rfl, rfl⟩
    rfl

variable {base : Nat}

@[simp] theorem digits_length (value width : Nat) : (digits base value width).length = width := by
  induction width with
  | zero => rfl
  | succ width ih => rw [digits, List.length_cons, ih]

theorem digits_eq_map (value width : Nat) :
    digits base value width = (List.range width).reverse.map fun i => value / base^i % base := by
  induction width with
  | zero => rfl
  | succ width ih => rw [digits, ih, List.range_succ, List.reverse_append, List.map_append]; rfl

theorem digits_lt (positive : 0 < base) (value width : Nat) : ∀ d ∈ digits base value width, d < base := by
  intro d member
  rw [digits_eq_map] at member
  obtain ⟨i, _, rfl⟩ := List.mem_map.mp member
  exact Nat.mod_lt _ positive

theorem number_digits (value width : Nat) : number base (digits base value width) = value % base^width := by
  induction width with
  | zero => rw [digits, number, Nat.pow_zero, Nat.mod_one]
  | succ width ih => rw [digits, number, digits_length, ih, Nat.mod_pow_succ, Nat.mul_comm, Nat.add_comm]

theorem number_lt {ds : List Nat} (bounded : ∀ d ∈ ds, d < base) : number base ds < base^ds.length := by
  induction ds with
  | nil => exact Nat.one_pos
  | cons d ds ih =>
    obtain ⟨first, later⟩ := List.forall_mem_cons.mp bounded
    have top : (d + 1) * base^ds.length ≤ base * base^ds.length := Nat.mul_le_mul_right _ first
    have low := ih later
    rw [Nat.succ_mul] at top
    rw [number, List.length_cons, Nat.pow_succ, Nat.mul_comm (base^ds.length)]
    omega

/-- Words of one length are in the order of their numbers. -/
theorem number_lt_iff {xs ys : List Nat} (size : xs.length = ys.length) (left : ∀ d ∈ xs, d < base)
    (right : ∀ d ∈ ys, d < base) : number base xs < number base ys ↔ List.Lex (· < ·) xs ys := by
  induction xs generalizing ys with
  | nil =>
    rw [List.length_nil, eq_comm, List.length_eq_zero_iff] at size
    subst size
    simp [number]
  | cons x xs ih =>
    cases ys with
    | nil => cases size
    | cons y ys =>
      obtain ⟨_, lefts⟩ := List.forall_mem_cons.mp left
      obtain ⟨_, rights⟩ := List.forall_mem_cons.mp right
      have same : xs.length = ys.length := Nat.succ_inj.mp size
      have low := number_lt rights
      rw [← same] at low
      rw [number, number, ← same, place_lt_iff (number_lt lefts) low, List.cons_lex_cons_iff, ih same lefts rights]

theorem number_inj {xs ys : List Nat} (size : xs.length = ys.length) (left : ∀ d ∈ xs, d < base)
    (right : ∀ d ∈ ys, d < base) : number base xs = number base ys ↔ xs = ys := by
  induction xs generalizing ys with
  | nil =>
    rw [List.length_nil, eq_comm, List.length_eq_zero_iff] at size
    subst size
    simp
  | cons x xs ih =>
    cases ys with
    | nil => cases size
    | cons y ys =>
      obtain ⟨_, lefts⟩ := List.forall_mem_cons.mp left
      obtain ⟨_, rights⟩ := List.forall_mem_cons.mp right
      have same : xs.length = ys.length := Nat.succ_inj.mp size
      have low := number_lt rights
      rw [← same] at low
      rw [number, number, ← same, place_inj (number_lt lefts) low, List.cons.injEq, ih same lefts rights]

theorem digits_number {ds : List Nat} (bounded : ∀ d ∈ ds, d < base) : digits base (number base ds) ds.length = ds := by
  cases ds with
  | nil => rfl
  | cons d ds =>
    have positive : 0 < base := Nat.lt_of_le_of_lt (Nat.zero_le d) (bounded d List.mem_cons_self)
    rw [← number_inj (digits_length _ _) (digits_lt positive _ _) bounded, number_digits,
      Nat.mod_eq_of_lt (number_lt bounded)]

/-- Numbers that fit are told apart by their digits, and the digits are in their order. -/
theorem digits_lex_iff (positive : 0 < base) {v w width : Nat} (left : v < base^width) (right : w < base^width) :
    List.Lex (· < ·) (digits base v width) (digits base w width) ↔ v < w := by
  have size : (digits base v width).length = (digits base w width).length := by rw [digits_length, digits_length]
  rw [← number_lt_iff size (digits_lt positive v width) (digits_lt positive w width), number_digits, number_digits,
    Nat.mod_eq_of_lt left, Nat.mod_eq_of_lt right]

theorem digits_inj {v w width : Nat} (left : v < base^width) (right : w < base^width)
    (same : digits base v width = digits base w width) : v = w := by
  have numbers := congrArg (number base) same
  rwa [number_digits, number_digits, Nat.mod_eq_of_lt left, Nat.mod_eq_of_lt right] at numbers

/-- A word over an alphabet, each digit by the symbol in its place. -/
def spell (alphabet ds : List Nat) : List Nat := ds.map fun d => alphabet.getD d 0

/-- The places of a word's symbols. -/
def places (alphabet word : List Nat) : List Nat := word.map fun c => alphabet.idxOf c

variable {alphabet : List Nat}

theorem getD_mem {d : Nat} (inside : d < alphabet.length) : alphabet.getD d 0 ∈ alphabet := by
  rw [List.getD_eq_getElem _ _ inside]
  exact List.getElem_mem inside

theorem getD_lt (sorted : alphabet.Pairwise (· < ·)) {a b : Nat} (less : a < b) (inside : b < alphabet.length) :
    alphabet.getD a 0 < alphabet.getD b 0 := by
  rw [List.getD_eq_getElem _ _ (Nat.lt_trans less inside), List.getD_eq_getElem _ _ inside]
  exact List.pairwise_iff_getElem.mp sorted a b _ inside less

/-- A sorted alphabet keeps the order of words. -/
theorem spell_lex_iff (sorted : alphabet.Pairwise (· < ·)) {xs ys : List Nat} (left : ∀ d ∈ xs, d < alphabet.length)
    (right : ∀ d ∈ ys, d < alphabet.length) :
    List.Lex (· < ·) (spell alphabet xs) (spell alphabet ys) ↔ List.Lex (· < ·) xs ys := by
  induction xs generalizing ys with
  | nil => cases ys <;> simp [spell]
  | cons x xs ih =>
    cases ys with
    | nil => simp [spell]
    | cons y ys =>
      obtain ⟨leftFirst, lefts⟩ := List.forall_mem_cons.mp left
      obtain ⟨rightFirst, rights⟩ := List.forall_mem_cons.mp right
      have rest : List.Lex (· < ·) (xs.map fun d => alphabet.getD d 0) (ys.map fun d => alphabet.getD d 0) ↔
          List.Lex (· < ·) xs ys := ih lefts rights
      rw [spell, spell, List.map_cons, List.map_cons, List.cons_lex_cons_iff, List.cons_lex_cons_iff, rest]
      rcases Nat.lt_trichotomy x y with less | rfl | more
      · have below := getD_lt sorted less rightFirst
        simp only [less, below, true_or]
      · simp only [Nat.lt_irrefl, true_and]
      · have above := getD_lt sorted more leftFirst
        omega

theorem spell_places {word : List Nat} (inside : ∀ c ∈ word, c ∈ alphabet) :
    spell alphabet (places alphabet word) = word := by
  have each : ∀ c ∈ word, alphabet.getD (alphabet.idxOf c) 0 = c := by
    intro c member
    have found : alphabet.idxOf c < alphabet.length := List.idxOf_lt_length_of_mem (inside c member)
    rw [List.getD_eq_getElem _ _ found, List.getElem_idxOf found]
  rw [spell, places, List.map_map]
  exact (List.map_congr_left each).trans (List.map_id word)

theorem places_spell (distinct : alphabet.Nodup) {ds : List Nat} (inside : ∀ d ∈ ds, d < alphabet.length) :
    places alphabet (spell alphabet ds) = ds := by
  have each : ∀ d ∈ ds, alphabet.idxOf (alphabet.getD d 0) = d := by
    intro d member
    rw [List.getD_eq_getElem _ _ (inside d member), distinct.idxOf_getElem]
  rw [spell, places, List.map_map]
  exact (List.map_congr_left each).trans (List.map_id ds)

theorem places_lt {word : List Nat} (inside : ∀ c ∈ word, c ∈ alphabet) :
    ∀ d ∈ places alphabet word, d < alphabet.length := by
  intro d member
  obtain ⟨c, listed, rfl⟩ := List.mem_map.mp member
  exact List.idxOf_lt_length_of_mem (inside c listed)

end Positional
