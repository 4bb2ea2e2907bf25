import Mathlib.Data.List.Infix
import Mathlib.Data.List.TakeWhile
import Mathlib.Data.String.Basic

namespace TextModel

def isWhitespace (c : Char) : Bool :=
  (9 ≤ c.toNat && c.toNat ≤ 13) || c.toNat == 32 || c.toNat == 0x85 || c.toNat == 0xa0 ||
    c.toNat == 0x1680 || (0x2000 ≤ c.toNat && c.toNat ≤ 0x200a) || c.toNat == 0x2028 ||
    c.toNat == 0x2029 || c.toNat == 0x202f || c.toNat == 0x205f || c.toNat == 0x3000

def splitWhitespace (text : List Char) : List (List Char) :=
  (text.splitOnP isWhitespace).filter fun part => !part.isEmpty

def trim (text : String) : String :=
  String.ofList ((text.toList.dropWhile isWhitespace).reverse.dropWhile isWhitespace).reverse

def stripPrefix (pre text : String) : Option String :=
  if pre.toList <+: text.toList then some (String.ofList (text.toList.drop pre.toList.length)) else none

def toAsciiLowercase (text : String) : String := String.ofList (text.toList.map Char.toLower)

def toAsciiUppercase (text : String) : String := String.ofList (text.toList.map Char.toUpper)

/-- `str::replace` of any of the listed characters. -/
def replaceAny (old : List Char) (new : Char) (text : String) : String :=
  String.ofList (text.toList.map fun c => if c ∈ old then new else c)

def contains (text pattern : String) : Bool := decide (pattern.toList <:+: text.toList)

end TextModel

namespace TextProof

open TextModel

theorem stripPrefix_eq_some {pre text rest : String} : stripPrefix pre text = some rest ↔ text = pre ++ rest := by
  unfold stripPrefix
  constructor
  · intro found
    split at found
    · rename_i cut
      obtain ⟨more, same⟩ := cut
      rw [← same, List.drop_left, Option.some.injEq] at found
      rw [← String.toList_inj, String.toList_append, ← same, ← found, String.toList_ofList]
    · cases found
  · intro same
    subst same
    rw [String.toList_append, if_pos (List.prefix_append _ _), List.drop_left, String.ofList_toList]

theorem visible_of_dropWhile {text : List Char} (left : text.dropWhile isWhitespace ≠ []) :
    ∃ c ∈ text.dropWhile isWhitespace, isWhitespace c = false :=
  ⟨_, List.head_mem left, List.head_dropWhile_not isWhitespace left⟩

theorem trim_ne_empty {text : String} {c : Char} (member : c ∈ text.toList) (visible : isWhitespace c = false) :
    trim text ≠ "" := by
  rw [Ne, ← String.toList_inj, trim, String.toList_ofList, String.toList_empty, List.reverse_eq_nil_iff,
    List.dropWhile_eq_nil_iff]
  intro all
  have gone : text.toList.dropWhile isWhitespace = [] := by
    by_contra left
    rcases visible_of_dropWhile left with ⟨c, member, visible⟩
    exact absurd ((all c (List.mem_reverse.mpr member)).symm.trans visible) (by decide)
  exact absurd ((List.dropWhile_eq_nil_iff.mp gone c member).symm.trans visible) (by decide)

/-- A trimmed text that is not empty ends in a character that is not white space. -/
theorem trim_trim_ne_empty {text : String} (filled : trim text ≠ "") : trim (trim text) ≠ "" := by
  have left := filled
  rw [Ne, ← String.toList_inj, trim, String.toList_ofList, String.toList_empty, List.reverse_eq_nil_iff] at left
  rcases visible_of_dropWhile left with ⟨c, member, visible⟩
  apply trim_ne_empty _ visible
  rw [trim, String.toList_ofList, List.mem_reverse]
  exact member

end TextProof
