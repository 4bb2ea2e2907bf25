import Mathlib.Data.List.Nodup
import Mathlib.Data.List.Perm.Basic
import Mathlib.Data.List.Sort

/-! Gathering elements that the ones gathered so far do not cover, and when the order they come in matters. -/

namespace Cover

section

variable {α : Type*} (covers : α → α → Bool)

/-- Something of the list covers the element. -/
def covered (kept : List α) (a : α) : Bool := kept.any fun k => covers k a

def add (kept : List α) (a : α) : List α := if covered covers kept a then kept else kept ++ [a]

def addAll (kept as : List α) : List α := as.foldl (add covers) kept

variable {covers} {kept as : List α} {a : α}

theorem covered_iff : covered covers kept a = true ↔ ∃ k ∈ kept, covers k a = true := List.any_eq_true

theorem covered_mono {more : List α} (subset : ∀ k ∈ kept, k ∈ more) (here : covered covers kept a = true) :
    covered covers more a = true := by
  obtain ⟨k, member, covers⟩ := covered_iff.mp here
  exact covered_iff.mpr ⟨k, subset k member, covers⟩

theorem mem_add {x : α} : x ∈ add covers kept a ↔ x ∈ kept ∨ (x = a ∧ covered covers kept a = false) := by
  unfold add
  cases found : covered covers kept a with
  | true => simp
  | false => simp

theorem addAll_cons (kept : List α) (a : α) (as : List α) :
    addAll covers kept (a :: as) = addAll covers (add covers kept a) as := rfl

theorem mem_addAll_of_mem {x : α} (member : x ∈ kept) : x ∈ addAll covers kept as := by
  induction as generalizing kept with
  | nil => exact member
  | cons a as ih => exact ih (mem_add.mpr (Or.inl member))

theorem mem_of_mem_addAll {x : α} (member : x ∈ addAll covers kept as) : x ∈ kept ∨ x ∈ as := by
  induction as generalizing kept with
  | nil => exact Or.inl member
  | cons a as ih =>
    rcases ih member with here | later
    · rcases mem_add.mp here with old | new
      · exact Or.inl old
      · rw [new.1]
        exact Or.inr List.mem_cons_self
    · exact Or.inr (List.mem_cons_of_mem a later)

theorem covered_addAll (refl : ∀ x, covers x x = true) (member : a ∈ as) :
    covered covers (addAll covers kept as) a = true := by
  induction as generalizing kept with
  | nil => cases member
  | cons b as ih =>
    rcases List.mem_cons.mp member with rfl | later
    · have now : covered covers (add covers kept a) a = true := by
        unfold add
        split
        · rename_i here
          exact here
        · exact covered_iff.mpr ⟨a, List.mem_append_right _ (List.mem_singleton.mpr rfl), refl a⟩
      rw [addAll_cons]
      exact covered_mono (fun k there => mem_addAll_of_mem there) now
    · exact ih later

/-- What is covered does not depend on the order. -/
theorem covered_addAll_iff (refl : ∀ x, covers x x = true)
    (trans : ∀ {x y z}, covers x y = true → covers y z = true → covers x z = true) (t : α) :
    covered covers (addAll covers kept as) t = true ↔ ∃ k, (k ∈ kept ∨ k ∈ as) ∧ covers k t = true := by
  rw [covered_iff]
  constructor
  · intro found
    obtain ⟨k, member, reaches⟩ := found
    exact ⟨k, mem_of_mem_addAll member, reaches⟩
  · intro found
    obtain ⟨k, given | come, reaches⟩ := found
    · exact ⟨k, mem_addAll_of_mem given, reaches⟩
    · have under : covered covers (addAll covers kept as) k = true := covered_addAll refl come
      obtain ⟨k', member, reaches'⟩ := covered_iff.mp under
      exact ⟨k', member, trans reaches' reaches⟩

theorem not_mem_addAll {x : α} (absent : x ∉ kept) (reaches : covered covers kept x = true) : x ∉ addAll covers kept as := by
  induction as generalizing kept with
  | nil => exact absent
  | cons a as ih =>
    apply ih
    · rw [mem_add]
      intro found
      rcases found with old | ⟨rfl, bare⟩
      · exact absent old
      · rw [reaches] at bare
        cases bare
    · exact covered_mono (fun k member => mem_add.mpr (Or.inl member)) reaches

/-- Where no two elements to add cover each other, those are added that nothing covered at the start. -/
theorem mem_addAll_iff
    (apart : ∀ x ∈ as, ∀ y ∈ as, covered covers kept x = false → covered covers kept y = false → covers x y = true → x = y)
    {x : α} : x ∈ addAll covers kept as ↔ x ∈ kept ∨ (x ∈ as ∧ covered covers kept x = false) := by
  induction as generalizing kept with
  | nil => simp [addAll]
  | cons a as ih =>
    have bare {y : α} (still : covered covers (add covers kept a) y = false) : covered covers kept y = false := by
      by_contra reaches
      rw [Bool.not_eq_false] at reaches
      rw [covered_mono (fun k member => mem_add.mpr (Or.inl member)) reaches] at still
      cases still
    rw [addAll_cons, ih fun x memX y memY bareX bareY => apart x (List.mem_cons_of_mem a memX) y
      (List.mem_cons_of_mem a memY) (bare bareX) (bare bareY), mem_add]
    constructor
    · intro found
      rcases found with (old | ⟨rfl, new⟩) | ⟨later, still⟩
      · exact Or.inl old
      · exact Or.inr ⟨List.mem_cons_self, new⟩
      · exact Or.inr ⟨List.mem_cons_of_mem a later, bare still⟩
    · intro found
      rcases found with old | ⟨member, new⟩
      · exact Or.inl (Or.inl old)
      · by_cases same : x = a
        · subst same
          exact Or.inl (Or.inr ⟨rfl, new⟩)
        · have later := (List.mem_cons.mp member).resolve_left same
          refine Or.inr ⟨later, ?_⟩
          by_contra reaches
          rw [Bool.not_eq_false] at reaches
          obtain ⟨k, there, above⟩ := covered_iff.mp reaches
          rcases mem_add.mp there with old | ⟨rfl, fresh⟩
          · rw [covered_iff.mpr ⟨k, old, above⟩] at new
            cases new
          · exact same (apart k List.mem_cons_self x member fresh new above).symm

/-- The elements gathered are the same in every order exactly when none of those to add covers another. -/
theorem order_free_iff (refl : ∀ x, covers x x = true) :
    (∀ as', as'.Perm as → ∀ x, x ∈ addAll covers kept as' ↔ x ∈ addAll covers kept as) ↔
      ∀ x ∈ as, ∀ y ∈ as, covered covers kept x = false → covered covers kept y = false → covers x y = true → x = y := by
  constructor
  · intro free x memX y memY bareX bareY reaches
    by_contra differ
    have orders {u v : α} (memU : u ∈ as) (memV : v ∈ as) (apart : u ≠ v) : ∃ rest, (u :: v :: rest).Perm as := by
      obtain ⟨front, back, rfl⟩ := List.append_of_mem memU
      have perm : (u :: (front ++ back)).Perm (front ++ u :: back) := List.perm_middle.symm
      have inside : v ∈ front ++ back := (List.mem_cons.mp (perm.mem_iff.mpr memV)).resolve_left (Ne.symm apart)
      obtain ⟨front', back', split⟩ := List.append_of_mem inside
      rw [split] at perm
      exact ⟨front' ++ back', (List.perm_middle.symm.cons u).trans perm⟩
    obtain ⟨first, permX⟩ := orders memX memY differ
    obtain ⟨second, permY⟩ := orders memY memX (Ne.symm differ)
    have absent : y ∉ kept := by
      intro member
      rw [covered_iff.mpr ⟨y, member, refl y⟩] at bareY
      cases bareY
    have without : y ∉ addAll covers kept (x :: y :: first) := by
      rw [addAll_cons]
      apply not_mem_addAll
      · rw [mem_add]
        intro found
        rcases found with old | ⟨same, _⟩
        · exact absent old
        · exact differ same.symm
      · exact covered_iff.mpr ⟨x, mem_add.mpr (Or.inr ⟨rfl, bareX⟩), reaches⟩
    apply without
    rw [free _ permX, ← free _ permY, addAll_cons]
    exact mem_addAll_of_mem (mem_add.mpr (Or.inr ⟨rfl, bareY⟩))
  · intro apart as' perm x
    have apart' : ∀ x ∈ as', ∀ y ∈ as', covered covers kept x = false → covered covers kept y = false →
        covers x y = true → x = y :=
      fun x memX y memY => apart x (perm.mem_iff.mp memX) y (perm.mem_iff.mp memY)
    rw [mem_addAll_iff apart', mem_addAll_iff apart, perm.mem_iff]

end

/-! Sorting and leaving repetitions out. -/

section

variable {α : Type*} [LinearOrder α]

/-- `Vec::dedup`: of equal neighbours one stays. -/
def dedup : List α → List α
  | a :: b :: rest => if a = b then dedup (b :: rest) else a :: dedup (b :: rest)
  | short => short

def sorted (l : List α) : List α := dedup (l.mergeSort fun a b => decide (a ≤ b))

theorem mem_dedup {l : List α} {x : α} : x ∈ dedup l ↔ x ∈ l := by
  fun_induction dedup l with
  | case1 a rest ih =>
    rw [ih]
    simp
  | case2 a b rest differ ih => rw [List.mem_cons, ih, ← List.mem_cons]
  | case3 short => rfl

theorem dedup_pairwise {l : List α} (rising : l.Pairwise (· ≤ ·)) : (dedup l).Pairwise (· < ·) := by
  fun_induction dedup l with
  | case1 a rest ih => exact ih (List.pairwise_cons.mp rising).2
  | case2 a b rest differ ih =>
    obtain ⟨least, rising⟩ := List.pairwise_cons.mp rising
    refine List.pairwise_cons.mpr ⟨fun x member => ?_, ih rising⟩
    rw [mem_dedup] at member
    rcases List.mem_cons.mp member with rfl | later
    · exact lt_of_le_of_ne (least x List.mem_cons_self) differ
    · exact lt_of_lt_of_le (lt_of_le_of_ne (least b List.mem_cons_self) differ)
        ((List.pairwise_cons.mp rising).1 x later)
  | case3 short long =>
    match short, long with
    | [], _ => exact List.Pairwise.nil
    | [a], _ => exact List.pairwise_singleton _ a
    | a :: b :: rest, long => exact absurd rfl (long a b rest)

theorem mem_sorted {l : List α} {x : α} : x ∈ sorted l ↔ x ∈ l := by
  unfold sorted
  rw [mem_dedup, List.mem_mergeSort]

theorem sorted_pairwise (l : List α) : (sorted l).Pairwise (· < ·) :=
  dedup_pairwise ((List.pairwise_mergeSort' (· ≤ ·) l))

theorem sorted_eq_iff {l l' : List α} : sorted l = sorted l' ↔ ∀ x, x ∈ l ↔ x ∈ l' := by
  constructor
  · intro same x
    rw [← mem_sorted, same, mem_sorted]
  · intro same
    have nodup (l : List α) : (sorted l).Nodup := (sorted_pairwise l).imp fun below => ne_of_lt below
    have perm : (sorted l).Perm (sorted l') := by
      rw [List.perm_ext_iff_of_nodup (nodup l) (nodup l')]
      intro x
      rw [mem_sorted, mem_sorted, same x]
    refine List.Perm.eq_of_pairwise ?_ (sorted_pairwise l) (sorted_pairwise l') perm
    intro a b _ _ below above
    exact absurd below (lt_asymm above)

end

end Cover
