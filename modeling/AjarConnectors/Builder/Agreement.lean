import Mathlib.Data.List.TakeWhile
import AjarConnectors.Builder.Languages

namespace BuilderProof

open BuilderModel EventModel TextModel

/-- What follows `x:`, cut at its first colon: both parts are there and only the cut is a colon. -/
def vendorAndType (rest : List Char) : Bool :=
  match rest.span (· ≠ ':') with
  | (_, []) => false
  | (vendor, _ :: ty) => !vendor.isEmpty && !ty.isEmpty && !ty.contains ':'

def namespaced (text : List Char) : Bool :=
  if "mim:".toList.isPrefixOf text then !(text.drop 4).isEmpty && !(text.drop 4).contains ':'
  else if "x:".toList.isPrefixOf text then vendorAndType (text.drop 2)
  else false

theorem colon_cases (text : List Char) :
    ':' ∉ text ∨ ∃ front back, text = front ++ ':' :: back ∧ ':' ∉ front := by
  by_cases member : ':' ∈ text
  · exact Or.inr (List.eq_append_cons_of_mem member)
  · exact Or.inl member

theorem span_clean {text : List Char} (clean : ':' ∉ text) : text.span (· ≠ ':') = (text, []) := by
  have all : ∀ c ∈ text, decide (c ≠ ':') = true := by
    intro c member
    rw [decide_eq_true_eq]
    intro same
    exact clean (same ▸ member)
  rw [List.span_eq_takeWhile_dropWhile, List.takeWhile_eq_self_iff.mpr all, List.dropWhile_eq_nil_iff.mpr all]

theorem span_colon {front : List Char} (back : List Char) (clean : ':' ∉ front) :
    (front ++ ':' :: back).span (· ≠ ':') = (front, ':' :: back) := by
  have all : ∀ c ∈ front, decide (c ≠ ':') = true := by
    intro c member
    rw [decide_eq_true_eq]
    intro same
    exact clean (same ▸ member)
  rw [List.span_eq_takeWhile_dropWhile, List.takeWhile_append_of_pos all, List.dropWhile_append_of_pos all]
  simp

theorem idxOf_colon {front : List Char} (back : List Char) (clean : ':' ∉ front) :
    (front ++ ':' :: back).idxOf? ':' = some front.length := by
  rw [List.idxOf?_eq_some_iff]
  simp
  grind

theorem stripPrefix_eq (pre text : String) :
    stripPrefix pre text = if pre.toList.isPrefixOf text.toList then
      some (String.ofList (text.toList.drop pre.toList.length)) else none := by
  unfold stripPrefix
  simp only [List.isPrefixOf_iff_prefix]

theorem ofList_bne_empty (text : List Char) : (String.ofList text != "") = !text.isEmpty := by
  cases text with
  | nil => rfl
  | cons c rest =>
    rw [List.isEmpty_cons, Bool.not_false, bne_iff_ne]
    intro same
    have chars := congrArg String.toList same
    rw [String.toList_ofList] at chars
    cases chars

theorem dispatch (mim x : String → Bool) (text : String) :
    (match stripPrefix "mim:" text with
      | some rest => mim rest
      | none => match stripPrefix "x:" text with
        | some rest => x rest
        | none => false) =
      if "mim:".toList.isPrefixOf text.toList then mim (String.ofList (text.toList.drop 4))
      else if "x:".toList.isPrefixOf text.toList then x (String.ofList (text.toList.drop 2)) else false := by
  rw [stripPrefix_eq, stripPrefix_eq]
  by_cases first : "mim:".toList.isPrefixOf text.toList = true
  · rw [if_pos first, if_pos first]
    rfl
  · rw [if_neg first, if_neg first]
    by_cases second : "x:".toList.isPrefixOf text.toList = true
    · rw [if_pos second, if_pos second]
      rfl
    · rw [if_neg second, if_neg second]

theorem rust_vendorAndType (rest : List Char) :
    (match Rust.splitn2 (String.ofList rest) with
      | [vendor, ty] => vendor != "" && ty != "" && !ty.toList.contains ':'
      | _ => false) = vendorAndType rest := by
  unfold Rust.splitn2 vendorAndType
  rw [String.toList_ofList]
  rcases rest.span (· ≠ ':') with ⟨vendor, _ | ⟨colon, ty⟩⟩
  · rfl
  · simp only [ofList_bne_empty, String.toList_ofList]

theorem rust_isNamespaced (text : String) : Rust.isNamespaced text = namespaced text.toList := by
  apply Eq.trans (dispatch (fun rest => rest != "" && !rest.toList.contains ':')
    (fun rest => match Rust.splitn2 rest with
      | [vendor, ty] => vendor != "" && ty != "" && !ty.toList.contains ':'
      | _ => false) text)
  unfold namespaced
  simp only [rust_vendorAndType, ofList_bne_empty, String.toList_ofList]

theorem go_vendorAndType (rest : List Char) :
    ((Go.cut (String.ofList rest)).2.2 && (Go.cut (String.ofList rest)).1 != "" &&
      (Go.cut (String.ofList rest)).2.1 != "" && !(Go.cut (String.ofList rest)).2.1.toList.contains ':') =
        vendorAndType rest := by
  unfold Go.cut vendorAndType
  rw [String.toList_ofList]
  rcases rest.span (· ≠ ':') with ⟨vendor, _ | ⟨colon, ty⟩⟩
  · simp
  · simp only [ofList_bne_empty, String.toList_ofList, Bool.true_and]

theorem go_isNamespaced (text : String) : Go.isNamespaced text = namespaced text.toList := by
  apply Eq.trans (dispatch (fun rest => rest != "" && !rest.toList.contains ':')
    (fun rest => (Go.cut rest).2.2 && (Go.cut rest).1 != "" && (Go.cut rest).2.1 != "" &&
      !(Go.cut rest).2.1.toList.contains ':') text)
  unfold namespaced
  simp only [go_vendorAndType, ofList_bne_empty, String.toList_ofList]

theorem python_vendorAndType (rest : List Char) :
    ((rest.splitOn ':').length == 2 && (rest.splitOn ':').all fun part => !part.isEmpty) = vendorAndType rest := by
  unfold vendorAndType
  rcases colon_cases rest with clean | ⟨vendor, ty, rfl, clean⟩
  · rw [span_clean clean, List.splitOn_eq_singleton clean]
    rfl
  · rw [span_colon ty clean, List.splitOn_append_cons_self_of_not_mem clean]
    rcases colon_cases ty with single | ⟨front, back, rfl, others⟩
    · simp [List.splitOn_eq_singleton single, single]
    · -- a second colon leaves three parts or more
      simp [List.splitOn_append_cons_self_of_not_mem others, List.splitOn_ne_nil]

theorem python_isNamespaced (text : String) : Python.isNamespaced text = namespaced text.toList := by
  unfold Python.isNamespaced namespaced
  rw [← python_vendorAndType]

theorem idxOf_isNone (part : List Char) : (part.idxOf? ':').isNone = !part.contains ':' := by
  rw [Bool.eq_iff_iff, Option.isNone_iff_eq_none, List.idxOf?_eq_none_iff]
  simp

theorem cpp_isNamespaced (text : String) : Cpp.isNamespaced text = namespaced text.toList := by
  unfold Cpp.isNamespaced namespaced vendorAndType
  simp only [idxOf_isNone]
  rcases colon_cases (text.toList.drop 2) with clean | ⟨vendor, ty, same, clean⟩
  · rw [span_clean clean, List.idxOf?_eq_none_iff.mpr clean]
  · rw [same, span_colon ty clean, idxOf_colon ty clean]
    simp only [List.take_left, List.drop_length_add_append, List.drop_succ_cons, List.drop_zero]

theorem codePointLess_eq_byteLess : codePointLess = byteLess := by
  funext a b
  unfold codePointLess byteLess
  rw [decide_eq_decide]
  exact (Utf8.lex_bytes_iff a b).symm

theorem codePointLess_compares :
    Keyed.Compares (fun a b => List.Lex (· < ·) (Utf8.codePoints a) (Utf8.codePoints b)) Attribute.key
      (fun a b => codePointLess a.key b.key) where
  agrees := fun _ _ => decide_eq_true_iff
  trans := fun first second => List.lex_trans Nat.lt_trans first second
  irrefl := fun _ => List.lex_irrefl Nat.lt_irrefl _
  total := fun _ _ notLess notGreater =>
    Utf8.codePoints_injective (Std.Trichotomous.trichotomous (r := List.Lex (· < ·)) _ _ notLess notGreater)

theorem firstRepeat_sortByKey (entries : List Attribute) :
    Keyed.firstRepeat Attribute.key (Fields.sortByKey byteLess entries) = none ↔
      (entries.map Attribute.key).Nodup := by
  rw [← codePointLess_eq_byteLess]
  exact Keyed.firstRepeat_stableSort codePointLess_compares entries

/-- Every SDK puts the keys in the same order, and its scan of neighbours finds a duplicate
    exactly when some key was given twice. -/
theorem key_order_agrees (entries : List Attribute) :
    Fields.sortByKey Python.keyLess entries = Fields.sortByKey Rust.keyLess entries ∧
    Fields.sortByKey Go.keyLess entries = Fields.sortByKey Rust.keyLess entries ∧
    Fields.sortByKey Cpp.keyLess entries = Fields.sortByKey Rust.keyLess entries ∧
    ∀ less ∈ [Rust.keyLess, Go.keyLess, Python.keyLess, Cpp.keyLess],
      Keyed.firstRepeat Attribute.key (Fields.sortByKey less entries) = none ↔
        (entries.map Attribute.key).Nodup := by
  have python : Python.keyLess = byteLess := codePointLess_eq_byteLess
  have rust : Rust.keyLess = byteLess := rfl
  have go : Go.keyLess = byteLess := rfl
  have cpp : Cpp.keyLess = byteLess := rfl
  rw [python, rust, go, cpp]
  apply And.intro rfl (And.intro rfl (And.intro rfl _))
  intro less member
  have same : less = byteLess := by simpa using member
  rw [same]
  exact firstRepeat_sortByKey entries

end BuilderProof
