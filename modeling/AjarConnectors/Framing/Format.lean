import Mathlib.Data.List.Basic
import Mathlib.Data.List.Infix

namespace Framing

/-- A self-delimiting frame format over symbols `β`: what the writer emits for a value, and
    what the reader finds at the front of a stream together with the frame's length. `Fits` is
    the writer's side condition; bytes after a frame never change how it reads. -/
structure Format (β ρ : Type*) where
  Fits : ρ → Prop
  encode : ρ → List β
  read : List β → Option (ρ × Nat)
  read_bounds : ∀ data r n, read data = some (r, n) → 0 < n ∧ n ≤ data.length
  read_extend : ∀ data r n, read data = some (r, n) → ∀ more, read (data ++ more) = some (r, n)
  read_encode : ∀ r, Fits r → read (encode r) = some (r, (encode r).length)

namespace Format

variable {β ρ : Type*} (F : Format β ρ)

def encodeAll (rs : List ρ) : List β := rs.flatMap F.encode

def readAt (data : List β) (offset : Nat) : Option (ρ × Nat) :=
  (F.read (data.drop offset)).map fun found => (found.1, offset + found.2)

/-- The frames found from `offset` on, each with its own offset, and the offset where reading stops. -/
def walk (data : List β) : Nat → Nat → List (Nat × ρ) × Nat
  | 0, offset => ([], offset)
  | fuel + 1, offset =>
    match F.readAt data offset with
    | none => ([], offset)
    | some (r, next) => ((offset, r) :: (walk data fuel next).1, (walk data fuel next).2)

def place : Nat → List ρ → List (Nat × ρ)
  | _, [] => []
  | offset, r :: rs => (offset, r) :: place (offset + (F.encode r).length) rs

@[simp] theorem encodeAll_nil : F.encodeAll [] = [] := rfl

@[simp] theorem encodeAll_cons (r : ρ) (rs : List ρ) :
    F.encodeAll (r :: rs) = F.encode r ++ F.encodeAll rs := rfl

@[simp] theorem encodeAll_append (xs ys : List ρ) :
    F.encodeAll (xs ++ ys) = F.encodeAll xs ++ F.encodeAll ys := List.flatMap_append

@[simp] theorem read_nil : F.read [] = none := by
  cases found : F.read [] with
  | none => rfl
  | some result =>
    have bounds := F.read_bounds [] result.1 result.2 found
    simp only [List.length_nil] at bounds
    omega

theorem encode_pos (r : ρ) (fits : F.Fits r) : 0 < (F.encode r).length :=
  (F.read_bounds _ _ _ (F.read_encode r fits)).1

theorem read_prefix {front data : List β} (cut : front <+: data) (unread : F.read data = none) :
    F.read front = none := by
  obtain ⟨rest, rfl⟩ := cut
  cases found : F.read front with
  | none => rfl
  | some result =>
    rw [F.read_extend front result.1 result.2 found rest] at unread
    cases unread

theorem read_torn (r : ρ) (fits : F.Fits r) {torn : List β} (cut : torn <+: F.encode r)
    (short : torn.length < (F.encode r).length) : F.read torn = none := by
  obtain ⟨missing, whole⟩ := cut
  cases found : F.read torn with
  | none => rfl
  | some result =>
    have bounds := F.read_bounds torn result.1 result.2 found
    have longer := F.read_extend torn result.1 result.2 found missing
    rw [whole, F.read_encode r fits] at longer
    have same : (F.encode r).length = result.2 := congrArg Prod.snd (Option.some.inj longer)
    omega

theorem length_le_encodeAll (rs : List ρ) (fits : ∀ r ∈ rs, F.Fits r) :
    rs.length ≤ (F.encodeAll rs).length := by
  induction rs with
  | nil => simp
  | cons r rs ih =>
    have first := F.encode_pos r (fits r (by simp))
    have rest := ih (fun r member => fits r (List.mem_cons_of_mem _ member))
    simp only [List.length_cons, encodeAll_cons, List.length_append]
    omega

theorem encodeAll_take_le (rs : List ρ) {i j : Nat} (le : i ≤ j) :
    (F.encodeAll (rs.take i)).length ≤ (F.encodeAll (rs.take j)).length := by
  have split : rs.take j = rs.take i ++ (rs.take j).drop i := by
    conv_lhs => rw [← List.take_append_drop i (rs.take j)]
    rw [List.take_take, Nat.min_eq_left le]
  rw [split, encodeAll_append, List.length_append]
  omega

theorem encodeAll_take_lt (rs : List ρ) (fits : ∀ r ∈ rs, F.Fits r) {i j : Nat} (lt : i < j)
    (bound : j ≤ rs.length) :
    (F.encodeAll (rs.take i)).length < (F.encodeAll (rs.take j)).length := by
  have inside : i < rs.length := by omega
  have next : rs.take (i + 1) = rs.take i ++ [rs[i]] := (List.take_append_getElem inside).symm
  have step : (F.encodeAll (rs.take i)).length < (F.encodeAll (rs.take (i + 1))).length := by
    rw [next, encodeAll_append, List.length_append]
    have pos := F.encode_pos _ (fits rs[i] (List.getElem_mem inside))
    simpa using pos
  exact lt_of_lt_of_le step (F.encodeAll_take_le rs lt)

theorem readAt_append (front : List β) (r : ρ) (rest : List β) (fits : F.Fits r) :
    F.readAt (front ++ (F.encode r ++ rest)) front.length =
      some (r, front.length + (F.encode r).length) := by
  have found := F.read_extend _ _ _ (F.read_encode r fits) rest
  simp [readAt, found]

theorem readAt_end (front tail : List β) (torn : F.read tail = none) :
    F.readAt (front ++ tail) front.length = none := by
  simp [readAt, torn]

theorem walk_frames (rs : List ρ) (front tail : List β) (fits : ∀ r ∈ rs, F.Fits r)
    (torn : F.read tail = none) (fuel : Nat) (enough : rs.length < fuel) :
    F.walk (front ++ (F.encodeAll rs ++ tail)) fuel front.length =
      (F.place front.length rs, front.length + (F.encodeAll rs).length) := by
  induction rs generalizing front fuel with
  | nil =>
    obtain ⟨fuel, rfl⟩ := Nat.exists_eq_succ_of_ne_zero (by omega : fuel ≠ 0)
    simp only [encodeAll_nil, List.nil_append, walk, F.readAt_end front tail torn, place,
      List.length_nil, Nat.add_zero]
  | cons r rs ih =>
    simp only [List.length_cons] at enough
    obtain ⟨fuel, rfl⟩ := Nat.exists_eq_succ_of_ne_zero (by omega : fuel ≠ 0)
    have found := F.readAt_append front r (F.encodeAll rs ++ tail) (fits r (by simp))
    have rest := ih (front ++ F.encode r) (fun r member => fits r (List.mem_cons_of_mem _ member))
      fuel (by omega)
    simp only [List.append_assoc, List.length_append] at rest
    simp only [encodeAll_cons, List.append_assoc, walk, found, rest, place, List.length_append,
      Nat.add_assoc]

/-- What is left of a stream of frames when only a prefix survives: the whole frames that fit,
    followed by an unreadable rest. -/
theorem take_frames (rs : List ρ) (fits : ∀ r ∈ rs, F.Fits r) (keep : Nat) :
    ∃ m torn, m ≤ rs.length ∧ (F.encodeAll rs).take keep = F.encodeAll (rs.take m) ++ torn ∧
      F.read torn = none ∧
      ∀ j ≤ rs.length, (F.encodeAll (rs.take j)).length ≤ keep → j ≤ m := by
  induction rs generalizing keep with
  | nil => exact ⟨0, [], by simp, by simp, F.read_nil, by simp⟩
  | cons r rs ih =>
    have pos := F.encode_pos r (fits r (by simp))
    by_cases whole : (F.encode r).length ≤ keep
    · obtain ⟨m, torn, bound, taken, unread, maximal⟩ :=
        ih (fun r member => fits r (List.mem_cons_of_mem _ member)) (keep - (F.encode r).length)
      refine ⟨m + 1, torn, by simpa using bound, ?_, unread, ?_⟩
      · rw [encodeAll_cons, List.take_append, List.take_of_length_le whole, taken]
        simp
      · intro j le small
        cases j with
        | zero => omega
        | succ j =>
          simp only [List.take_succ_cons, encodeAll_cons, List.length_append, List.length_cons] at small le
          have := maximal j (by omega) (by omega)
          omega
    · refine ⟨0, (F.encode r).take keep, by omega, ?_, ?_, ?_⟩
      · rw [encodeAll_cons, List.take_append_of_le_length (by omega)]
        simp
      · exact F.read_torn r (fits r (by simp)) (List.take_prefix _ _) (by simp; omega)
      · intro j le small
        cases j with
        | zero => omega
        | succ j =>
          simp only [List.take_succ_cons, encodeAll_cons, List.length_append] at small
          omega

def Canonical : Prop :=
  ∀ data r n, F.read data = some (r, n) → F.Fits r ∧ F.encode r = data.take n

/-- Under a canonical format every stream is whole frames followed by an unreadable rest. -/
theorem exists_frames (canonical : F.Canonical) (data : List β) :
    ∃ rs tail, (∀ r ∈ rs, F.Fits r) ∧ data = F.encodeAll rs ++ tail ∧ F.read tail = none := by
  generalize length : data.length = n
  induction n using Nat.strong_induction_on generalizing data with
  | _ n ih =>
    cases found : F.read data with
    | none => exact ⟨[], data, by simp, by simp, found⟩
    | some result =>
      obtain ⟨pos, inside⟩ := F.read_bounds data result.1 result.2 found
      obtain ⟨fits, encoded⟩ := canonical data result.1 result.2 found
      obtain ⟨rs, tail, rest, same, unread⟩ :=
        ih (data.drop result.2).length (by rw [List.length_drop]; omega) (data.drop result.2) rfl
      refine ⟨result.1 :: rs, tail, ?_, ?_, unread⟩
      · intro r member
        rcases List.mem_cons.mp member with rfl | member
        · exact fits
        · exact rest r member
      · rw [encodeAll_cons, encoded, List.append_assoc, ← same, List.take_append_drop]

theorem place_append (offset : Nat) (xs ys : List ρ) :
    F.place offset (xs ++ ys) = F.place offset xs ++ F.place (offset + (F.encodeAll xs).length) ys := by
  induction xs generalizing offset with
  | nil => simp [place]
  | cons x xs ih => simp [place, ih, Nat.add_assoc]

theorem place_length (offset : Nat) (rs : List ρ) : (F.place offset rs).length = rs.length := by
  induction rs generalizing offset with
  | nil => rfl
  | cons r rs ih => simp [place, ih]

theorem place_getElem? (offset : Nat) (rs : List ρ) (i : Nat) :
    (F.place offset rs)[i]? = rs[i]?.map fun r => (offset + (F.encodeAll (rs.take i)).length, r) := by
  induction rs generalizing offset i with
  | nil => simp [place]
  | cons r rs ih =>
    cases i with
    | zero => simp [place]
    | succ i => simp [place, ih, Nat.add_assoc]

end Format

end Framing
