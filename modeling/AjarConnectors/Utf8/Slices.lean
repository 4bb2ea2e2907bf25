import Mathlib.Data.List.TakeWhile
import AjarConnectors.Utf8.RoundTrip

namespace Utf8

def byteLen (text : List Char) : Nat := (encodeText text).length

/-- The text before and after a byte offset; nothing where the offset is past the end or inside a character. -/
def cut : List Char → Nat → Option (List Char × List Char)
  | text, 0 => some ([], text)
  | [], _ + 1 => none
  | c :: text, k + 1 =>
    if k + 1 < byteLen [c] then none
    else (cut text (k + 1 - byteLen [c])).map fun parts => (c :: parts.1, parts.2)

/-- `&text[from..]`. -/
def sliceFrom (text : List Char) (start : Nat) : Option (List Char) := (cut text start).map Prod.snd

/-- `&text[..stop]`. -/
def sliceTo (text : List Char) (stop : Nat) : Option (List Char) := (cut text stop).map Prod.fst

/-- `&text[start..stop]`. -/
def slice (text : List Char) (start stop : Nat) : Option (List Char) :=
  (sliceTo text stop).bind fun front => sliceFrom front start

/-- `str::find`: the byte offset of the first such character. -/
def find (c : Char) : List Char → Option Nat
  | [] => none
  | d :: text => if d = c then some 0 else (find c text).map fun k => byteLen [d] + k

/-- `str::rfind`: the byte offset of the last one. -/
def rfind (c : Char) : List Char → Option Nat
  | [] => none
  | d :: text => match rfind c text with
    | some k => some (byteLen [d] + k)
    | none => if d = c then some 0 else none

/-- A character that begins before the offset and ends behind it. -/
def Straddles (text : List Char) (k : Nat) : Prop :=
  ∃ before c after, text = before ++ c :: after ∧ byteLen before < k ∧ k < byteLen (before ++ [c])

@[simp] theorem byteLen_nil : byteLen [] = 0 := rfl

theorem byteLen_append (a b : List Char) : byteLen (a ++ b) = byteLen a + byteLen b := by
  rw [byteLen, encodeText_append, List.length_append]
  rfl

theorem byteLen_cons (c : Char) (text : List Char) : byteLen (c :: text) = byteLen [c] + byteLen text :=
  byteLen_append [c] text

theorem byteLen_char (c : Char) : byteLen [c] = c.utf8Size := by
  rw [byteLen, encodeText, List.flatMap_singleton, String.length_utf8EncodeChar]

theorem byteLen_pos (c : Char) : 0 < byteLen [c] := by
  rw [byteLen_char]
  exact Char.utf8Size_pos c

theorem length_le_byteLen (text : List Char) : text.length ≤ byteLen text := by
  induction text with
  | nil => exact Nat.le_refl 0
  | cons c text ih =>
    have filled := byteLen_pos c
    rw [byteLen_cons, List.length_cons]
    omega

@[simp] theorem cut_zero (text : List Char) : cut text 0 = some ([], text) := by
  cases text <;> rfl

theorem cut_append (before after : List Char) : cut (before ++ after) (byteLen before) = some (before, after) := by
  induction before with
  | nil => exact cut_zero after
  | cons c before ih =>
    have filled := byteLen_pos c
    have size := byteLen_cons c before
    obtain ⟨k, offset⟩ : ∃ k, byteLen (c :: before) = k + 1 := ⟨_, (Nat.succ_pred_eq_of_pos (by omega)).symm⟩
    have rest : k + 1 - byteLen [c] = byteLen before := by omega
    rw [offset, List.cons_append, cut, if_neg (by omega), rest, ih]
    rfl

theorem cut_parts {text before after : List Char} {k : Nat} (found : cut text k = some (before, after)) :
    text = before ++ after ∧ byteLen before = k := by
  induction text generalizing k before with
  | nil =>
    cases k with
    | zero =>
      cases found
      exact ⟨rfl, rfl⟩
    | succ k => cases found
  | cons c text ih =>
    cases k with
    | zero =>
      cases found
      exact ⟨rfl, rfl⟩
    | succ k =>
      rw [cut] at found
      split at found
      · cases found
      · rename_i past
        obtain ⟨⟨front, back⟩, inner, same⟩ := Option.map_eq_some_iff.mp found
        cases same
        obtain ⟨rfl, size⟩ := ih inner
        refine ⟨rfl, ?_⟩
        rw [byteLen_cons, size]
        omega

/-- A cut fails past the end and inside a character, and nowhere else. -/
theorem cut_eq_none_iff (text : List Char) (k : Nat) : cut text k = none ↔ byteLen text < k ∨ Straddles text k := by
  constructor
  · intro missing
    induction text generalizing k with
    | nil =>
      cases k with
      | zero => cases missing
      | succ k => exact Or.inl (Nat.succ_pos k)
    | cons c text ih =>
      cases k with
      | zero => cases missing
      | succ k =>
        rw [cut] at missing
        split at missing
        · rename_i inside
          exact Or.inr ⟨[], c, text, rfl, Nat.succ_pos k, inside⟩
        · rename_i past
          rcases ih _ (Option.map_eq_none_iff.mp missing) with short | ⟨before, d, after, rfl, low, high⟩
          · rw [byteLen_cons]
            omega
          · refine Or.inr ⟨c :: before, d, after, rfl, ?_, ?_⟩
            · rw [byteLen_cons]
              omega
            · rw [List.cons_append, byteLen_cons]
              omega
  · intro either
    by_contra there
    obtain ⟨⟨front, back⟩, found⟩ := Option.ne_none_iff_exists'.mp there
    obtain ⟨rfl, size⟩ := cut_parts found
    rcases either with short | ⟨before, c, after, same, low, high⟩
    · rw [byteLen_append] at short
      omega
    · -- the front is a prefix of what stands before the character, or holds all of it
      rcases List.append_eq_append_iff.mp same with ⟨more, rfl, _⟩ | ⟨more, rfl, rest⟩
      · rw [byteLen_append] at low
        omega
      · cases more with
        | nil =>
          rw [List.append_nil] at size
          omega
        | cons d more =>
          cases rest
          rw [byteLen_append] at high
          rw [byteLen_append, byteLen_cons] at size
          omega

theorem sliceFrom_append (before after : List Char) : sliceFrom (before ++ after) (byteLen before) = some after := by
  rw [sliceFrom, cut_append]
  rfl

theorem sliceTo_append (before after : List Char) : sliceTo (before ++ after) (byteLen before) = some before := by
  rw [sliceTo, cut_append]
  rfl

theorem sliceTo_all (text : List Char) : sliceTo text (byteLen text) = some text := by
  have whole := sliceTo_append text []
  rw [List.append_nil] at whole
  exact whole

/-- Behind a text that stands in front, offsets count from its end. -/
theorem cut_behind (before text : List Char) (k : Nat) :
    cut (before ++ text) (byteLen before + k) = (cut text k).map fun parts => (before ++ parts.1, parts.2) := by
  cases found : cut text k with
  | some parts =>
    obtain ⟨rfl, rfl⟩ := cut_parts found
    rw [← List.append_assoc, ← byteLen_append, cut_append]
    rfl
  | none =>
    rw [Option.map_none, cut_eq_none_iff]
    rcases (cut_eq_none_iff text k).mp found with short | ⟨front, c, back, rfl, low, high⟩
    · rw [byteLen_append]
      omega
    · refine Or.inr ⟨before ++ front, c, back, (List.append_assoc before front _).symm, ?_, ?_⟩
      · rw [byteLen_append]
        omega
      · rw [List.append_assoc, byteLen_append]
        omega

theorem slice_behind (before text : List Char) (k : Nat) :
    slice (before ++ text) (byteLen before) (byteLen before + k) = sliceTo text k := by
  rw [slice, sliceTo, sliceTo, cut_behind]
  cases cut text k with
  | none => rfl
  | some parts => exact sliceFrom_append before parts.1

theorem find_of_not_mem {c : Char} {before : List Char} (absent : c ∉ before) (after : List Char) :
    find c (before ++ c :: after) = some (byteLen before) := by
  induction before with
  | nil => exact if_pos rfl
  | cons d before ih =>
    rw [List.mem_cons, not_or] at absent
    rw [List.cons_append, find, if_neg (Ne.symm absent.1), ih absent.2, byteLen_cons d before]
    rfl

theorem find_eq_none {c : Char} {text : List Char} (absent : c ∉ text) : find c text = none := by
  induction text with
  | nil => rfl
  | cons d text ih =>
    rw [List.mem_cons, not_or] at absent
    rw [find, if_neg (Ne.symm absent.1), ih absent.2]
    rfl

theorem rfind_eq_none {c : Char} {text : List Char} (absent : c ∉ text) : rfind c text = none := by
  induction text with
  | nil => rfl
  | cons d text ih =>
    rw [List.mem_cons, not_or] at absent
    rw [rfind, ih absent.2]
    exact if_neg (Ne.symm absent.1)

theorem rfind_of_not_mem {c : Char} {after : List Char} (absent : c ∉ after) (before : List Char) :
    rfind c (before ++ c :: after) = some (byteLen before) := by
  induction before with
  | nil =>
    rw [List.nil_append, rfind, rfind_eq_none absent]
    exact if_pos rfl
  | cons d before ih =>
    rw [List.cons_append, rfind, ih, byteLen_cons d before]

/-- What stands before the first such character, or all there is. -/
theorem sliceTo_find (c : Char) (text : List Char) :
    sliceTo text ((find c text).getD (byteLen text)) = some (text.takeWhile (· != c)) := by
  by_cases member : c ∈ text
  · obtain ⟨before, after, rfl, absent⟩ := List.eq_append_cons_of_mem member
    have kept : ∀ d ∈ before, (d != c) = true := by
      intro d inside
      rw [bne_iff_ne]
      rintro rfl
      exact absent inside
    rw [find_of_not_mem absent, Option.getD_some, sliceTo_append, List.takeWhile_append_of_pos kept,
      List.takeWhile_cons_of_neg (by simp), List.append_nil]
  · have kept : text.takeWhile (· != c) = text := by
      rw [List.takeWhile_eq_self_iff]
      intro d inside
      rw [bne_iff_ne]
      rintro rfl
      exact member inside
    rw [find_eq_none member, Option.getD_none, sliceTo_all, kept]

end Utf8
