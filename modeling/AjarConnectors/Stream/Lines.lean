import AjarConnectors.Buffered.Pieces

namespace StreamModel

open Buffered

abbrev Bytes := List UInt8

abbrev Reader := Buffered.Reader UInt8

inductive ReadError where
  | unexpectedEof
  | invalidData
  deriving DecidableEq

/-- The part of `buf` that is filled, and the overflow flag. -/
structure Copied where
  filled : Bytes
  overflow : Bool

/-- `copy_bounded`, into a buffer of `cap` bytes. -/
def copyBounded (cap : Nat) (c : Copied) (src : Bytes) : Copied :=
  let room := cap - c.filled.length
  if room < src.length then ⟨c.filled ++ src.take room, true⟩ else ⟨c.filled ++ src, c.overflow⟩

def stripCr (line : Bytes) : Bytes := (line.reverse.dropWhile (· == 13)).reverse

/-- What `read_line` returns after its loop. -/
def finish (c : Copied) : Except ReadError Bytes :=
  if c.overflow then .error .invalidData else .ok (stripCr c.filled)

/-- The loop of `read_line`. Without a newline in what is buffered, all of it is copied and consumed, and the next
    `fill_buf` reads; copying an empty buffer changes nothing. -/
def readLineLoop (cap : Nat) (c : Copied) (buffer : Bytes) : List (UInt8 × Bytes) → Except ReadError Bytes × Reader
  | [] =>
    if 10 ∈ buffer then
      (finish (copyBounded cap c (pieceOf 10 buffer)), ⟨(takeThrough 10 buffer).2, []⟩)
    else
      let c := copyBounded cap c buffer
      (if c.filled = [] ∧ c.overflow = false then .error .unexpectedEof else finish c, ⟨[], []⟩)
  | next :: later =>
    if 10 ∈ buffer then
      (finish (copyBounded cap c (pieceOf 10 buffer)), ⟨(takeThrough 10 buffer).2, next :: later⟩)
    else readLineLoop cap (copyBounded cap c buffer) (next.1 :: next.2) later

def readLine (cap : Nat) (r : Reader) : Except ReadError Bytes × Reader :=
  readLineLoop cap ⟨[], false⟩ r.buffer r.arriving

/-- What so many calls return, up to one that finds the stream closed, and whether one did. -/
def readLines (cap : Nat) : Nat → Reader → List (Except ReadError Bytes) × Bool
  | 0, _ => ([], false)
  | calls + 1, r => match readLine cap r with
    | (.error .unexpectedEof, _) => ([], true)
    | (result, r) => (result :: (readLines cap calls r).1, (readLines cap calls r).2)

/-- The one result a piece of the stream should give. -/
def lineResult (cap : Nat) (piece : Bytes) : Except ReadError Bytes :=
  if piece.length ≤ cap then .ok (stripCr piece) else .error .invalidData

end StreamModel

namespace StreamProof

open Buffered StreamModel

/-- What is copied of a line of which so much has been seen. -/
structure Holds (cap : Nat) (seen : Bytes) (c : Copied) : Prop where
  filled : c.filled = seen.take cap
  overflow : c.overflow = true ↔ cap < seen.length

variable {cap : Nat} {seen src buffer : Bytes} {c : Copied}

theorem holds_start (cap : Nat) : Holds cap [] ⟨[], false⟩ := ⟨List.take_nil.symm, by simp⟩

theorem holds_copyBounded (holds : Holds cap seen c) (src : Bytes) : Holds cap (seen ++ src) (copyBounded cap c src) := by
  have length : c.filled.length = min cap seen.length := by rw [holds.filled, List.length_take]
  have flag := holds.overflow
  unfold copyBounded
  dsimp only
  split
  · rename_i long
    constructor
    · dsimp only
      rw [holds.filled, List.take_append]
      congr 2
      rw [← holds.filled]
      omega
    · rw [List.length_append]
      exact iff_of_true rfl (by omega)
  · rename_i short
    constructor
    · dsimp only
      rw [holds.filled, List.take_append]
      by_cases fits : seen.length ≤ cap
      · rw [List.take_of_length_le (show src.length ≤ cap - seen.length by omega)]
      · have none : src = [] := List.length_eq_zero_iff.mp (by omega)
        rw [none, List.take_nil]
    · rw [List.length_append]
      dsimp only
      rw [flag]
      omega

theorem finish_eq (holds : Holds cap seen c) : finish c = lineResult cap seen := by
  have flag := holds.overflow
  unfold finish lineResult
  cases overflow : c.overflow with
  | true =>
    rw [overflow] at flag
    have long := flag.mp rfl
    rw [if_pos rfl, if_neg (by omega)]
  | false =>
    rw [overflow] at flag
    have fits : seen.length ≤ cap := by
      apply Nat.le_of_not_lt
      intro long
      cases flag.mpr long
    rw [if_neg (by decide), if_pos fits, holds.filled, List.take_of_length_le fits]

/-- Nothing is held exactly if nothing was seen. -/
theorem empty_iff (holds : Holds cap seen c) : (c.filled = [] ∧ c.overflow = false) ↔ seen = [] := by
  have flag := holds.overflow
  rw [← Bool.not_eq_true, flag, holds.filled, List.take_eq_nil_iff]
  constructor
  · rintro ⟨rfl | empty, short⟩
    · exact List.length_eq_zero_iff.mp (by omega)
    · exact empty
  · rintro rfl
    exact ⟨Or.inr rfl, by simp⟩

theorem pieceOf_takeThrough (s : Bytes) : pieceOf 10 (takeThrough 10 s).1 = pieceOf 10 s := by
  unfold pieceOf
  rcases delimiter_cases 10 s with ⟨line, rest, rfl, absent⟩ | absent
  · rw [takeThrough_line absent, List.takeWhile_append_of_pos, List.takeWhile_append_of_pos]
    · rw [List.takeWhile_cons_of_neg (by simp), List.takeWhile_cons_of_neg (by simp)]
    · exact fun a member => decide_eq_true fun same => absent (same ▸ member)
    · exact fun a member => decide_eq_true fun same => absent (same ▸ member)
  · rw [takeThrough_absent absent]

theorem pieceOf_append (absent : (10 : UInt8) ∉ buffer) (later : Bytes) : pieceOf 10 (buffer ++ later) = buffer ++ pieceOf 10 later :=
  List.takeWhile_append_of_pos fun _ member => decide_eq_true fun same => absent (same ▸ member)

theorem pieceOf_of_mem (member : (10 : UInt8) ∈ buffer) (later : Bytes) : pieceOf 10 (buffer ++ later) = pieceOf 10 buffer := by
  rw [← pieceOf_takeThrough (buffer ++ later), takeThrough_of_mem member, pieceOf_takeThrough]

/-- Wherever the chunks are cut, the loop gives the result of the whole line and leaves what follows it. -/
theorem readLineLoop_eq (holds : Holds cap seen c) (arriving : List (UInt8 × Bytes)) :
    (readLineLoop cap c buffer arriving).1 =
      (if seen ++ Reader.flat ⟨buffer, arriving⟩ = [] then .error .unexpectedEof
        else lineResult cap (seen ++ pieceOf 10 (Reader.flat ⟨buffer, arriving⟩))) ∧
    (readLineLoop cap c buffer arriving).2.flat = (takeThrough 10 (Reader.flat ⟨buffer, arriving⟩)).2 := by
  induction arriving generalizing c seen buffer with
  | nil =>
    rw [readLineLoop, Reader.flat, List.flatMap_nil, List.append_nil]
    by_cases member : 10 ∈ buffer
    · rw [if_pos member, if_neg (List.append_ne_nil_of_right_ne_nil _ (List.ne_nil_of_mem member))]
      exact ⟨finish_eq (holds_copyBounded holds _), List.append_nil _⟩
    · have whole := holds_copyBounded holds buffer
      have same := pieceOf_append member []
      rw [List.append_nil] at same
      rw [if_neg member, takeThrough_absent member, same]
      dsimp only
      rw [if_congr (empty_iff whole) rfl rfl, finish_eq whole]
      exact ⟨by rw [pieceOf, List.takeWhile_nil, List.append_nil], rfl⟩
  | cons next later ih =>
    rw [readLineLoop, Reader.flat]
    by_cases member : 10 ∈ buffer
    · rw [if_pos member, pieceOf_of_mem member, takeThrough_of_mem member,
        if_neg (List.append_ne_nil_of_right_ne_nil _ (List.append_ne_nil_of_left_ne_nil (List.ne_nil_of_mem member) _))]
      exact ⟨finish_eq (holds_copyBounded holds _), rfl⟩
    · have rest := @ih _ (next.1 :: next.2) _ (holds_copyBounded holds buffer)
      rw [Reader.flat] at rest
      rw [if_neg member, pieceOf_append member, takeThrough_of_not_mem member, ← List.append_assoc, ← List.append_assoc]
      exact rest

theorem readLine_eq (cap : Nat) (r : Reader) :
    (readLine cap r).1 = (if r.flat = [] then .error .unexpectedEof else lineResult cap (pieceOf 10 (takeThrough 10 r.flat).1)) ∧
    (readLine cap r).2.flat = (takeThrough 10 r.flat).2 := by
  rw [pieceOf_takeThrough]
  exact readLineLoop_eq (holds_start cap) r.arriving

theorem lineResult_open (cap : Nat) (piece : Bytes) : lineResult cap piece ≠ .error .unexpectedEof := by
  unfold lineResult
  split <;> simp

theorem readLines_open {r r' : Reader} {result : Except ReadError Bytes} (read : readLine cap r = (result, r'))
    (going : result ≠ .error .unexpectedEof) (calls : Nat) :
    readLines cap (calls + 1) r = (result :: (readLines cap calls r').1, (readLines cap calls r').2) := by
  rw [readLines, read]
  cases result with
  | ok line => rfl
  | error e =>
    cases e with
    | unexpectedEof => exact absurd rfl going
    | invalidData => rfl

/-- However the stream is cut into chunks, the calls return one result for each of its lines, in order, and then find
    it closed. -/
theorem one_result_for_each_line (cap calls : Nat) (r : Reader) :
    readLines cap calls r =
      (((pieces 10 r.flat).map (lineResult cap)).take calls, decide ((pieces 10 r.flat).length < calls)) := by
  induction calls generalizing r with
  | zero => simp [readLines]
  | succ calls ih =>
    obtain ⟨result, left⟩ := readLine_eq cap r
    cases read : readLine cap r with
    | mk given r' =>
      rw [read] at result left
      dsimp only at result left
      by_cases closed : r.flat = []
      · rw [if_pos closed] at result
        rw [readLines, read, result, closed]
        simp [pieces]
      · rw [if_neg closed] at result
        rw [readLines_open read (result ▸ lineResult_open cap _), pieces_takeThrough closed, ← left, List.map_cons,
          List.take_succ_cons, List.length_cons, ih, result, decide_eq_decide.mpr (Nat.add_lt_add_iff_right)]

end StreamProof
