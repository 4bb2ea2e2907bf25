import Mathlib.Algebra.Ring.Nat
import Mathlib.Data.List.Basic
import Mathlib.Data.List.Pairwise
import AjarConnectors.Spool.Record
import AjarConnectors.Text.Strings

namespace SpoolModel

open TextModel

structure Cursor where
  seg : Nat
  offset : Nat
  deriving DecidableEq

instance : LE Cursor := ⟨fun a b => a.seg < b.seg ∨ a.seg = b.seg ∧ a.offset ≤ b.offset⟩

instance : LT Cursor := ⟨fun a b => a.seg < b.seg ∨ a.seg = b.seg ∧ a.offset < b.offset⟩

instance (a b : Cursor) : Decidable (a ≤ b) :=
  inferInstanceAs (Decidable (a.seg < b.seg ∨ a.seg = b.seg ∧ a.offset ≤ b.offset))

instance (a b : Cursor) : Decidable (a < b) :=
  inferInstanceAs (Decidable (a.seg < b.seg ∨ a.seg = b.seg ∧ a.offset < b.offset))

/-- The spool directory: the segment files in the order `existing_segments` lists them, one per
    sequence number, and the text of the `cursor` file. -/
structure Dir where
  segs : List (Nat × Bytes)
  cursorFile : Option String
  sorted : segs.Pairwise fun a b => a.1 < b.1
  deriving DecidableEq

def existingSegments (dir : Dir) : List Nat := dir.segs.map Prod.fst

namespace Dir

def empty : Dir := ⟨[], none, .nil⟩

def file (dir : Dir) (seq : Nat) : Option Bytes := dir.segs.lookup seq

def total (dir : Dir) : Nat := (dir.segs.map fun seg => seg.2.length).sum

def insertSeg (seq : Nat) : List (Nat × Bytes) → List (Nat × Bytes)
  | [] => [(seq, [])]
  | seg :: segs =>
    if seq < seg.1 then (seq, []) :: seg :: segs
    else if seq = seg.1 then seg :: segs
    else seg :: insertSeg seq segs

theorem insertSeg_mem {seq : Nat} {segs : List (Nat × Bytes)} {seg : Nat × Bytes}
    (member : seg ∈ insertSeg seq segs) : seg = (seq, []) ∨ seg ∈ segs := by
  induction segs with
  | nil => simpa [insertSeg] using member
  | cons first rest ih =>
    simp only [insertSeg] at member
    split at member
    · simpa using member
    · split at member
      · exact .inr member
      · rcases List.mem_cons.mp member with rfl | member
        · exact .inr (by simp)
        · exact (ih member).imp_right (List.mem_cons_of_mem _)

theorem insertSeg_sorted {seq : Nat} {segs : List (Nat × Bytes)}
    (sorted : segs.Pairwise fun a b => a.1 < b.1) :
    (insertSeg seq segs).Pairwise fun a b => a.1 < b.1 := by
  induction segs with
  | nil => simp [insertSeg]
  | cons first rest ih =>
    obtain ⟨below, ordered⟩ := List.pairwise_cons.mp sorted
    simp only [insertSeg]
    split
    · rename_i before
      refine List.pairwise_cons.mpr ⟨?_, sorted⟩
      intro seg member
      rcases List.mem_cons.mp member with rfl | member
      · exact before
      · exact Nat.lt_trans before (below seg member)
    · split
      · exact sorted
      · refine List.pairwise_cons.mpr ⟨?_, ih ordered⟩
        intro seg member
        rcases insertSeg_mem member with rfl | member
        · change first.1 < seq
          omega
        · exact below seg member

def create (dir : Dir) (seq : Nat) : Dir :=
  ⟨insertSeg seq dir.segs, dir.cursorFile, insertSeg_sorted dir.sorted⟩

/-- Rewrites one segment's bytes through a handle; a handle whose file is gone changes nothing here. -/
def modify (dir : Dir) (seq : Nat) (change : Bytes → Bytes) : Dir :=
  ⟨dir.segs.map fun seg => (seg.1, if seg.1 = seq then change seg.2 else seg.2), dir.cursorFile, by
    rw [List.pairwise_map]
    exact dir.sorted⟩

def removeFile (dir : Dir) (seq : Nat) : Dir :=
  ⟨dir.segs.filter fun seg => seg.1 ≠ seq, dir.cursorFile, dir.sorted.filter _⟩

end Dir

def Accepts (room : Option Nat) (buf : Bytes) : Prop :=
  match room with
  | none => True
  | some free => buf.length ≤ free

instance (room : Option Nat) (buf : Bytes) : Decidable (Accepts room buf) :=
  match room with
  | none => isTrue trivial
  | some free => inferInstanceAs (Decidable (buf.length ≤ free))

namespace Dir

/-- `write_all` on the append handle. `some room` is a device that takes only `room` more bytes:
    what fits is on disk when the call fails. -/
def writeAll (dir : Dir) (seq : Nat) (buf : Bytes) (room : Option Nat) : Dir × Except IoError Unit :=
  match room with
  | none => (dir.modify seq (· ++ buf), .ok ())
  | some room =>
    if buf.length ≤ room then (dir.modify seq (· ++ buf), .ok ())
    else (dir.modify seq (· ++ buf.take room), .error .storageFull)

end Dir

/-- `str::parse` for an unsigned number. The rejection of values over `u64::MAX` is left out: the
    code only ever prints `u64` values into this file. -/
def parseNumber (text : List Char) : Option Nat :=
  let digits := match text with
    | '+' :: rest => rest
    | _ => text
  if digits.isEmpty || !digits.all Char.isDigit then none else some (Nat.ofDigitChars 10 digits 0)

def cursorText (cursor : Cursor) : String := toString cursor.seg ++ " " ++ toString cursor.offset

def readCursor (dir : Dir) : Option Cursor := do
  let text ← dir.cursorFile
  match splitWhitespace text.toList with
  | seg :: offset :: _ => return ⟨← parseNumber seg, ← parseNumber offset⟩
  | _ => none

/-- The temporary file is renamed over `cursor`, so the directory sees the old text or the new. -/
def writeCursor (dir : Dir) (cursor : Cursor) : Dir := { dir with cursorFile := some (cursorText cursor) }

/-- The offset after the last whole record: the loop of `truncate_torn_tail`. -/
def wholeEnd (data : Bytes) : Nat → Nat → Nat
  | 0, offset => offset
  | fuel + 1, offset =>
    match readRecord data offset with
    | none => offset
    | some (_, next) => wholeEnd data fuel next

def truncateTornTail (dir : Dir) (seq : Nat) : Dir :=
  match dir.file seq with
  | none => dir
  | some data =>
    let offset := wholeEnd data (data.length + 1) 0
    if offset < data.length then dir.modify seq (·.take offset) else dir

end SpoolModel

namespace SpoolProof

open SpoolModel TextModel

theorem digits_not_whitespace (n : Nat) : ∀ c ∈ Nat.toDigits 10 n, isWhitespace c = false := by
  intro c member
  have digit := Nat.isDigit_of_mem_toDigits (by decide) (by decide) member
  simp only [Char.isDigit, Bool.and_eq_true, decide_eq_true_eq, ge_iff_le, UInt32.le_iff_toNat_le] at digit
  have low : 48 ≤ c.toNat := digit.1
  have high : c.toNat ≤ 57 := digit.2
  simp only [isWhitespace, Bool.or_eq_false_iff, Bool.and_eq_false_iff, decide_eq_false_iff_not,
    beq_eq_false_iff_ne]
  omega

theorem parseNumber_toDigits (n : Nat) : parseNumber (Nat.toDigits 10 n) = some n := by
  have digits : ∀ c ∈ Nat.toDigits 10 n, c.isDigit := fun c member =>
    Nat.isDigit_of_mem_toDigits (by decide) (by decide) member
  have nonempty : (Nat.toDigits 10 n).isEmpty = false := by simp
  have unsigned : ∀ rest, Nat.toDigits 10 n ≠ '+' :: rest := by
    intro rest plus
    have := digits '+' (by rw [plus]; simp)
    exact absurd this (by decide)
  unfold parseNumber
  split
  · rename_i rest plus
    exact absurd plus (unsigned rest)
  · have all : (Nat.toDigits 10 n).all Char.isDigit = true := List.all_eq_true.mpr digits
    simp [nonempty, all]

theorem readCursor_cursorText (dir : Dir) (cursor : Cursor) (text : dir.cursorFile = some (cursorText cursor)) :
    readCursor dir = some cursor := by
  have chars : (cursorText cursor).toList =
      Nat.toDigits 10 cursor.seg ++ ' ' :: Nat.toDigits 10 cursor.offset := by
    simp [cursorText]
  have parts : splitWhitespace (cursorText cursor).toList =
      [Nat.toDigits 10 cursor.seg, Nat.toDigits 10 cursor.offset] := by
    have space : isWhitespace ' ' = true := by decide
    rw [splitWhitespace, chars, List.splitOnP_append_cons _ _ space,
      List.splitOnP_eq_singleton (digits_not_whitespace _), List.splitOnP_eq_singleton (digits_not_whitespace _)]
    simp
  simp [readCursor, text, parts, parseNumber_toDigits]

theorem wholeEnd_eq_walk (data : Bytes) (fuel offset : Nat) :
    wholeEnd data fuel offset = (recordFormat.walk data fuel offset).2 := by
  induction fuel generalizing offset with
  | zero => rfl
  | succ fuel ih =>
    simp only [wholeEnd, Framing.Format.walk, readRecord_eq_readAt]
    cases recordFormat.readAt data offset with
    | none => rfl
    | some found => exact ih found.2

end SpoolProof
