import AjarConnectors.Http.Server

namespace HttpProof

open TextModel Buffered HttpModel

theorem dropWhile_append {p : Char → Bool} {front : Text} (all : ∀ c ∈ front, p c = true) (text : Text) :
    (front ++ text).dropWhile p = text.dropWhile p := by
  induction front with
  | nil => rfl
  | cons c front ih =>
    rw [List.cons_append, List.dropWhile_cons_of_pos (all c List.mem_cons_self)]
    exact ih fun d member => all d (List.mem_cons_of_mem _ member)

theorem trimWith_of_none {p : Char → Bool} {text : Text} (none : ∀ c ∈ text, p c = false) : trimWith p text = text := by
  have stays : ∀ text : Text, (∀ c ∈ text, p c = false) → text.dropWhile p = text := by
    intro text none
    cases text with
    | nil => rfl
    | cons c rest => exact List.dropWhile_cons_of_neg (by rw [none c List.mem_cons_self]; decide)
  rw [trimWith, stays text none, stays text.reverse fun c member => none c (List.mem_reverse.mp member),
    List.reverse_reverse]

/-- What is trimmed anyway may stand around a text. -/
theorem trimWith_around {p : Char → Bool} {front back : Text} (before : ∀ c ∈ front, p c = true)
    (after : ∀ c ∈ back, p c = true) (text : Text) : trimWith p (front ++ text ++ back) = trimWith p text := by
  rw [trimWith, trimWith, List.append_assoc, dropWhile_append before]
  by_cases blank : text.dropWhile p = []
  · have all : (text ++ back).dropWhile p = [] := by
      rw [List.dropWhile_eq_nil_iff] at blank ⊢
      intro c member
      rcases List.mem_append.mp member with member | member
      · exact blank c member
      · exact after c member
    rw [all, blank]
  · have ends : (text ++ back).dropWhile p = text.dropWhile p ++ back := by
      rw [List.dropWhile_append, if_neg (by simpa using blank)]
    rw [ends, List.reverse_append, dropWhile_append fun c member => after c (List.mem_reverse.mp member)]

theorem splitOnce_of_not_mem {separator : Char} {name : Text} (absent : separator ∉ name) (value : Text) :
    splitOnce separator (name ++ separator :: value) = some (name, value) := by
  induction name with
  | nil => simp [splitOnce]
  | cons c name ih =>
    have other : c ≠ separator := by
      intro same
      subst same
      exact absent List.mem_cons_self
    rw [List.cons_append, splitOnce, if_neg other, ih fun inside => absent (List.mem_cons_of_mem _ inside)]
    rfl

theorem splitWhitespace_cons {word rest : Text} {space : Char} (filled : word ≠ [])
    (visible : ∀ c ∈ word, isWhitespace c = false) (blank : isWhitespace space = true) :
    splitWhitespace (word ++ space :: rest) = word :: splitWhitespace rest := by
  rw [splitWhitespace, splitWhitespace, List.splitOnP_append_cons_of_forall_mem visible space blank,
    List.filter_cons_of_pos]
  simpa using filled

theorem stripEnd_crlf {line : Bytes} (whole : ∀ b ∈ line, isLineEnd b = false) : stripEnd (line ++ [13, 10]) = line := by
  have stays : line.reverse.dropWhile isLineEnd = line.reverse := by
    cases reversed : line.reverse with
    | nil => rfl
    | cons b rest =>
      apply List.dropWhile_cons_of_neg
      rw [whole b (List.mem_reverse.mp (by rw [reversed]; exact List.mem_cons_self))]
      decide
  rw [stripEnd, List.reverse_append]
  change ((10 :: 13 :: line.reverse).dropWhile isLineEnd).reverse = line
  rw [List.dropWhile_cons_of_pos (by decide), List.dropWhile_cons_of_pos (by decide), stays, List.reverse_reverse]

/-- A line the peer sends as it should is read whole, and nothing more. -/
theorem readLine_line {budget : Nat} {r : Reader} {line rest : Bytes} {text : Text}
    (stream : r.flat = line ++ [13, 10] ++ rest) (whole : ∀ b ∈ line, isLineEnd b = false)
    (decoded : Utf8.decode line = some text) (fits : line.length + 2 ≤ budget) :
    ∃ r', readLine budget r = .ok (text, budget - (line.length + 2), r') ∧ r'.flat = rest := by
  have absent : (10 : UInt8) ∉ line ++ [13] := by
    intro member
    rcases List.mem_append.mp member with member | member
    · exact absurd (whole 10 member) (by decide)
    · cases List.mem_singleton.mp member
  have cut : takeThrough 10 r.flat = (line ++ [13, 10], rest) := by
    have line := takeThrough_line absent rest
    rw [List.append_assoc] at line
    rw [stream, List.append_assoc]
    simpa using line
  have read := readUntil_flat 10 r
  rw [cut] at read
  refine ⟨(r.readUntil 10).2, ?_, read.2⟩
  have raw : r.readUntil 10 = (line ++ [13, 10], (r.readUntil 10).2) := Prod.ext read.1 rfl
  have size : (line ++ [13, 10]).length = line.length + 2 := by rw [List.length_append]; rfl
  unfold readLine
  rw [raw]
  dsimp only
  rw [if_neg (by simp), size, if_neg (by omega), stripEnd_crlf whole, decoded]

/-- Whatever is read as a line stands between the place before and the place after. -/
theorem readLine_ok {budget left : Nat} {r r' : Reader} {text : Text}
    (read : readLine budget r = .ok (text, left, r')) :
    ∃ raw, takeThrough 10 r.flat = (raw, r'.flat) ∧ raw ≠ [] ∧ Utf8.decode (stripEnd raw) = some text := by
  have flat := readUntil_flat 10 r
  unfold readLine at read
  split at read
  rename_i raw next found
  rw [found] at flat
  split at read
  · cases read
  · rename_i filled
    split at read
    · cases read
    · split at read
      · cases read
      · rename_i line decoded
        cases read
        exact ⟨raw, Prod.ext flat.1.symm flat.2.symm, filled, decoded⟩

section Rounds

theorem readLine_shorter {budget left : Nat} {r r' : Reader} {text : Text}
    (read : readLine budget r = .ok (text, left, r')) : r'.flat.length < r.flat.length := by
  rcases readLine_ok read with ⟨raw, cut, filled, _⟩
  have parts := congrArg List.length (takeThrough_append 10 r.flat)
  rw [cut, List.length_append] at parts
  have some := List.length_pos_iff.mpr filled
  dsimp only at parts
  omega

theorem readExact_shorter {count : Nat} {r r' : Reader} {got : Bytes} (read : r.readExact count = some (got, r')) :
    r'.flat.length ≤ r.flat.length := by
  rw [(readExact_flat read).2.2, List.length_drop]
  omega

/-- The rounds `readChunked` and `readBody` give are enough: one more changes nothing. -/
theorem readTrailers_rounds {rounds budget : Nat} {r : Reader} (enough : r.flat.length < rounds) :
    readTrailers (rounds + 1) budget r = readTrailers rounds budget r := by
  induction rounds generalizing budget r with
  | zero => cases enough
  | succ rounds ih =>
    rw [readTrailers, readTrailers]
    split
    · rfl
    · rename_i read
      have fewer := readLine_shorter read
      split
      · rfl
      · exact ih (by omega)

theorem readChunked_rounds {rounds : Nat} {body : Bytes} {r : Reader} (enough : r.flat.length < rounds) :
    readChunked (rounds + 1) body r = readChunked rounds body r := by
  induction rounds generalizing body r with
  | zero => cases enough
  | succ rounds ih =>
    rw [readChunked, readChunked]
    split
    · rfl
    · rename_i read
      have first := readLine_shorter read
      split
      · rfl
      · rfl
      · split
        · rfl
        · split
          · rfl
          · rename_i taken
            have data := readExact_shorter taken
            split
            · rfl
            · rename_i ended
              have last := readLine_shorter ended
              exact ih (by omega)

theorem readHeaders_shorter {lines budget : Nat} {head head' : Head} {r r' : Reader}
    (read : readHeaders lines head budget r = .ok (head', r')) : r'.flat.length < r.flat.length := by
  induction lines generalizing head budget r with
  | zero => cases read
  | succ lines ih =>
    rw [readHeaders] at read
    split at read
    · cases read
    · rename_i found
      have fewer := readLine_shorter found
      split at read
      · cases read
        exact fewer
      · split at read
        · cases read
        · exact Nat.lt_trans (ih read) fewer

theorem readHead_shorter {head : Head} {r r' : Reader} (read : readHead r = .ok (head, r')) :
    r'.flat.length < r.flat.length := by
  rw [readHead] at read
  split at read
  · cases read
  · rename_i found
    split at read
    · exact Nat.lt_trans (readHeaders_shorter read) (readLine_shorter found)
    · cases read

theorem readTrailers_shorter {rounds budget : Nat} {r r' : Reader} (read : readTrailers rounds budget r = .ok r') :
    r'.flat.length < r.flat.length := by
  induction rounds generalizing budget r with
  | zero => cases read
  | succ rounds ih =>
    rw [readTrailers] at read
    split at read
    · cases read
    · rename_i found
      have fewer := readLine_shorter found
      split at read
      · cases read
        exact fewer
      · exact Nat.lt_trans (ih read) fewer

theorem readChunked_shorter {rounds : Nat} {body out : Bytes} {r r' : Reader}
    (read : readChunked rounds body r = .ok (out, r')) : r'.flat.length < r.flat.length := by
  induction rounds generalizing body r with
  | zero => cases read
  | succ rounds ih =>
    rw [readChunked] at read
    split at read
    · cases read
    · rename_i r1 found
      have first := readLine_shorter found
      split at read
      · cases read
      · cases done : readTrailers (r1.flat.length + 1) maxHeaderBytes r1 with
        | error outcome =>
          rw [done] at read
          cases read
        | ok r2 =>
          rw [done] at read
          cases read
          exact Nat.lt_trans (readTrailers_shorter done) first
      · split at read
        · cases read
        · split at read
          · cases read
          · rename_i taken
            have data := readExact_shorter taken
            split at read
            · cases read
            · rename_i ended
              have last := readLine_shorter ended
              have rest := ih read
              omega

theorem readBody_shorter {head : Head} {out : Bytes} {r r' : Reader} (read : readBody head r = .ok (out, r')) :
    r'.flat.length ≤ r.flat.length := by
  rw [readBody] at read
  split at read
  · exact Nat.le_of_lt (readChunked_shorter read)
  · split at read
    · cases read
    · rename_i taken
      cases read
      exact readExact_shorter taken

end Rounds

end HttpProof
