import AjarConnectors.Buffered.Pieces
import AjarConnectors.Buffered.Taking
import AjarConnectors.Http.Server

namespace HttpModel

open TextModel Buffered

/-- A line that is read against what is left of a budget. -/
structure LineRead where
  budget : Nat
  start : Reader

namespace LineRead

def length (l : LineRead) : Nat := (takeThrough 10 l.start.flat).1.length

/-- The reader behind the line, whatever `read_line` makes of it. -/
def left (l : LineRead) : Reader := (l.start.readUntil 10).2

end LineRead

def headerLines : Nat → Head → Nat → Reader → List LineRead
  | 0, _, _, _ => []
  | lines + 1, head, budget, r => ⟨budget, r⟩ :: match readLine budget r with
    | .error _ => []
    | .ok (line, budget, r) =>
      if line = [] then []
      else match applyField head line with
        | .error _ => []
        | .ok head => headerLines lines head budget r

/-- The lines `read_head` starts to read. -/
def headLines (r : Reader) : List LineRead :=
  ⟨maxHeaderBytes, r⟩ :: match readLine maxHeaderBytes r with
    | .error _ => []
    | .ok (requestLine, budget, r) => match splitWhitespace requestLine with
      | method :: target :: _ => headerLines maxHeaders (startHead method target) budget r
      | _ => []

def trailerLines : Nat → Nat → Reader → List LineRead
  | 0, _, _ => []
  | rounds + 1, budget, r => ⟨budget, r⟩ :: match readLine budget r with
    | .error _ => []
    | .ok (line, budget, r) => if line = [] then [] else trailerLines rounds budget r

/-- A part of a request that is read against one budget: the head, a chunk's size, the end of a chunk, or the
    trailers. -/
structure BudgetedRead where
  start : Reader
  lines : List LineRead

namespace BudgetedRead

def head (r : Reader) : BudgetedRead := ⟨r, headLines r⟩

def singleLine (r : Reader) : BudgetedRead := ⟨r, [⟨maxHeaderBytes, r⟩]⟩

def trailers (r : Reader) : BudgetedRead := ⟨r, trailerLines (r.flat.length + 1) maxHeaderBytes r⟩

def leftAfter (r : Reader) : List LineRead → Reader
  | [] => r
  | line :: lines => leftAfter line.left lines

/-- The reader when the part returns, with a result or with an error. -/
def left (b : BudgetedRead) : Reader := leftAfter b.start b.lines

/-- How much of the stream the part has taken. -/
def taken (b : BudgetedRead) : Nat := b.start.pending - b.left.pending

/-- A line longer than what is left of the budget ends before the bytes taken exceed the bound. -/
def OverlongLinesEnd (capacity : Nat) (b : BudgetedRead) : Prop :=
  ∀ line ∈ b.lines, line.budget < line.length →
    line.start.EndsWithin 10 (maxHeaderBytes + capacity - (b.start.pending - line.start.pending))

end BudgetedRead

/-- The budgeted parts of a chunked body. -/
def chunkedReads : Nat → Bytes → Reader → List BudgetedRead
  | 0, _, _ => []
  | rounds + 1, body, r => .singleLine r :: match readLine maxHeaderBytes r with
    | .error _ => []
    | .ok (line, _, r) => match parseUsize 16 (sizeText line) with
      | none => []
      | some 0 => [.trailers r]
      | some (size + 1) =>
        if maxFrame < body.length + (size + 1) then []
        else match r.readExact (size + 1) with
          | none => []
          | some (data, r) => .singleLine r :: match readLine maxHeaderBytes r with
            | .error _ => []
            | .ok (_, _, r) => chunkedReads rounds (body ++ data) r

/-- `serve` reads a chunked body behind this head. -/
def readsChunked (settings : Settings) (turn : Turn) (head : Head) : Bool :=
  head.path == settings.path && head.methodAllowed && authorized settings head &&
    !head.contentLength.any (maxFrame < ·) && !(head.expectContinue && !turn.continues) && head.chunked

/-- The budgeted parts of the request that begins here. -/
def requestReads (settings : Settings) (turn : Turn) (r : Reader) : List BudgetedRead :=
  .head r :: match readHead r with
    | .error _ => []
    | .ok (head, r) => if readsChunked settings turn head then chunkedReads (r.flat.length + 1) [] r else []

end HttpModel

namespace HttpProof

open TextModel Buffered HttpModel

/-- Lines read one after the other, each charged to what the ones before have left of the budget. -/
inductive Charged : Nat → Reader → List LineRead → Prop where
  | done (budget : Nat) (r : Reader) : Charged budget r []
  | failed (budget : Nat) (r : Reader) : Charged budget r [⟨budget, r⟩]
  | next {budget : Nat} {r : Reader} {lines : List LineRead} (within : (r.readUntil 10).1.length ≤ budget)
    (rest : Charged (budget - (r.readUntil 10).1.length) (r.readUntil 10).2 lines) :
    Charged budget r (⟨budget, r⟩ :: lines)

theorem readLine_charged {budget left : Nat} {r r' : Reader} {text : Text}
    (read : readLine budget r = .ok (text, left, r')) :
    (r.readUntil 10).1.length ≤ budget ∧ left = budget - (r.readUntil 10).1.length ∧ r' = (r.readUntil 10).2 := by
  unfold readLine at read
  split at read
  rename_i raw next found
  rw [found]
  split at read
  · cases read
  · split at read
    · cases read
    · rename_i within
      split at read
      · cases read
      · cases read
        exact ⟨Nat.le_of_not_lt within, rfl, rfl⟩

theorem charged_next {budget left : Nat} {r r' : Reader} {text : Text} {lines : List LineRead}
    (read : readLine budget r = .ok (text, left, r')) (rest : Charged left r' lines) :
    Charged budget r (⟨budget, r⟩ :: lines) := by
  obtain ⟨within, rfl, rfl⟩ := readLine_charged read
  exact .next within rest

theorem headerLines_charged (lines : Nat) (head : Head) (budget : Nat) (r : Reader) :
    Charged budget r (headerLines lines head budget r) := by
  induction lines generalizing head budget r with
  | zero => exact .done budget r
  | succ lines ih =>
    rw [headerLines]
    split
    · exact .failed budget r
    · rename_i read
      apply charged_next read
      split
      · exact .done _ _
      · split
        · exact .done _ _
        · exact ih _ _ _

theorem headLines_charged (r : Reader) : Charged maxHeaderBytes r (headLines r) := by
  rw [headLines]
  split
  · exact .failed _ r
  · rename_i read
    apply charged_next read
    split
    · exact headerLines_charged _ _ _ _
    · exact .done _ _

theorem trailerLines_charged (rounds budget : Nat) (r : Reader) : Charged budget r (trailerLines rounds budget r) := by
  induction rounds generalizing budget r with
  | zero => exact .done budget r
  | succ rounds ih =>
    rw [trailerLines]
    split
    · exact .failed budget r
    · rename_i read
      apply charged_next read
      split
      · exact .done _ _
      · exact ih _ _

section Left

open BudgetedRead

theorem left_of_readLine {budget left : Nat} {r r' : Reader} {text : Text}
    (read : readLine budget r = .ok (text, left, r')) : (LineRead.mk budget r).left = r' :=
  (readLine_charged read).2.2.symm

theorem readHeaders_left {lines budget : Nat} {head head' : Head} {r r' : Reader}
    (read : readHeaders lines head budget r = .ok (head', r')) : leftAfter r (headerLines lines head budget r) = r' := by
  induction lines generalizing head budget r with
  | zero => cases read
  | succ lines ih =>
    rw [readHeaders] at read
    rw [headerLines, leftAfter]
    cases found : readLine budget r with
    | error e =>
      rw [found] at read
      cases read
    | ok line =>
      rw [found] at read
      rw [left_of_readLine found]
      dsimp only at read ⊢
      by_cases blank : line.1 = []
      · rw [if_pos blank] at read ⊢
        cases read
        rfl
      · rw [if_neg blank] at read ⊢
        cases applied : applyField head line.1 with
        | error e =>
          rw [applied] at read
          cases read
        | ok field =>
          rw [applied] at read
          exact ih read

/-- When the head is read, its lines are what was taken for it. -/
theorem readHead_left {head : Head} {r r' : Reader} (read : readHead r = .ok (head, r')) : (BudgetedRead.head r).left = r' := by
  rw [readHead] at read
  rw [BudgetedRead.left, BudgetedRead.head, headLines, leftAfter]
  cases found : readLine maxHeaderBytes r with
  | error e =>
    rw [found] at read
    cases read
  | ok line =>
    rw [found] at read
    rw [left_of_readLine found]
    dsimp only at read ⊢
    cases words : splitWhitespace line.1 with
    | nil =>
      rw [words] at read
      cases read
    | cons method more =>
      rw [words] at read
      cases more with
      | nil => cases read
      | cons target rest => exact readHeaders_left read

theorem readTrailers_left {rounds budget : Nat} {r r' : Reader} (read : readTrailers rounds budget r = .ok r') :
    leftAfter r (trailerLines rounds budget r) = r' := by
  induction rounds generalizing budget r with
  | zero => cases read
  | succ rounds ih =>
    rw [readTrailers] at read
    rw [trailerLines, leftAfter]
    cases found : readLine budget r with
    | error e =>
      rw [found] at read
      cases read
    | ok line =>
      rw [found] at read
      rw [left_of_readLine found]
      dsimp only at read ⊢
      by_cases blank : line.1 = []
      · rw [if_pos blank] at read ⊢
        cases read
        rfl
      · rw [if_neg blank] at read ⊢
        exact ih read

end Left

theorem length_eq (budget : Nat) (r : Reader) : (LineRead.mk budget r).length = (r.readUntil 10).1.length :=
  congrArg List.length (readUntil_flat 10 r).1.symm

/-- What is taken is what the lines read so far hold and what is buffered behind them, so that only an overlong line
    can pass the bound. -/
theorem taken_iff {capacity budget pending : Nat} {r : Reader} {lines : List LineRead} (charged : Charged budget r lines)
    (fits : r.Fits capacity) (small : budget ≤ maxHeaderBytes)
    (before : r.pending ≤ pending) (account : pending + budget ≤ maxHeaderBytes + r.flat.length) :
    pending - (BudgetedRead.leftAfter r lines).pending ≤ maxHeaderBytes + capacity ↔
      ∀ line ∈ lines, line.budget < line.length →
        line.start.EndsWithin 10 (maxHeaderBytes + capacity - (pending - line.start.pending)) := by
  have buffered := fits.buffer
  have ahead := r.flat_length
  induction charged with
  | done budget r =>
    refine iff_of_true ?_ fun line member => by cases member
    rw [BudgetedRead.leftAfter]
    omega
  | failed budget r =>
    have behind := (readUntil_fits 10 fits).buffer
    have rest := (r.readUntil 10).2.flat_length
    have parts := readUntil_length 10 r
    have bound := readUntil_pending 10 (maxHeaderBytes + capacity - (pending - r.pending)) r
    rw [List.forall_mem_singleton, length_eq, ← bound]
    change pending - (r.readUntil 10).2.pending ≤ _ ↔ _
    dsimp only
    by_cases within : (r.readUntil 10).1.length ≤ budget
    · exact iff_of_true (by omega) fun long => by omega
    · constructor
      · intro bounded long
        omega
      · intro bounded
        have last := bounded (by omega)
        omega
  | @next budget r lines within charged ih =>
    have behind := readUntil_fits 10 fits
    have parts := readUntil_length 10 r
    have fewer := readUntil_pending_le 10 r
    have rest := ih behind (by omega) (by omega) (by omega) behind.buffer (Reader.flat_length _)
    refine rest.trans ⟨fun others => List.forall_mem_cons.mpr ⟨?_, others⟩, fun all => (List.forall_mem_cons.mp all).2⟩
    intro long
    rw [length_eq] at long
    dsimp only at long
    omega

theorem charged_fits {capacity budget : Nat} {r : Reader} {lines : List LineRead} (charged : Charged budget r lines)
    (fits : r.Fits capacity) : (BudgetedRead.leftAfter r lines).Fits capacity := by
  induction charged with
  | done => exact fits
  | failed => exact readUntil_fits 10 fits
  | next _ _ ih => exact ih (readUntil_fits 10 fits)

theorem readLine_fits {capacity budget left : Nat} {r r' : Reader} {text : Text} (fits : r.Fits capacity)
    (read : readLine budget r = .ok (text, left, r')) : r'.Fits capacity := by
  obtain ⟨_, _, rfl⟩ := readLine_charged read
  exact readUntil_fits 10 fits

/-- A part begins with a whole budget and a reader whose buffer is no larger than it is. -/
structure Begins (capacity : Nat) (b : BudgetedRead) : Prop where
  fits : b.start.Fits capacity
  charged : Charged maxHeaderBytes b.start b.lines

theorem chunkedReads_begin {capacity rounds : Nat} {body : Bytes} {r : Reader} (fits : r.Fits capacity) :
    ∀ b ∈ chunkedReads rounds body r, Begins capacity b := by
  induction rounds generalizing body r with
  | zero =>
    intro b member
    cases member
  | succ rounds ih =>
    have single : ∀ r : Reader, r.Fits capacity → Begins capacity (.singleLine r) := fun r fits => ⟨fits, .failed _ r⟩
    rw [chunkedReads, List.forall_mem_cons]
    refine ⟨single r fits, ?_⟩
    split
    · exact List.forall_mem_nil _
    · rename_i size
      have fits := readLine_fits fits size
      split
      · exact List.forall_mem_nil _
      · rw [List.forall_mem_singleton]
        exact ⟨fits, trailerLines_charged _ _ _⟩
      · split
        · exact List.forall_mem_nil _
        · split
          · exact List.forall_mem_nil _
          · rename_i data
            have fits := readExact_fits fits data
            rw [List.forall_mem_cons]
            refine ⟨single _ fits, ?_⟩
            split
            · exact List.forall_mem_nil _
            · rename_i ended
              exact ih (readLine_fits fits ended)

theorem requestReads_begin {capacity : Nat} {r : Reader} (fits : r.Fits capacity) (settings : Settings) (turn : Turn) :
    ∀ b ∈ requestReads settings turn r, Begins capacity b := by
  rw [requestReads, List.forall_mem_cons]
  refine ⟨⟨fits, headLines_charged r⟩, ?_⟩
  split
  · exact List.forall_mem_nil _
  · rename_i read
    split
    · apply chunkedReads_begin
      rw [← readHead_left read]
      exact charged_fits (headLines_charged r) fits
    · exact List.forall_mem_nil _

theorem begins_taken_iff {capacity : Nat} {b : BudgetedRead} (begins : Begins capacity b) :
    b.taken ≤ maxHeaderBytes + capacity ↔ b.OverlongLinesEnd capacity := by
  apply taken_iff begins.charged begins.fits (Nat.le_refl _) (Nat.le_refl _)
  have ahead := b.start.flat_length
  omega

/-- The head, a chunk's size, its end and the trailers take no more than the budget and one buffer exactly if each
    line that is too long for the budget ends before that. -/
theorem heads_bounded_iff (settings : Settings) (turn : Turn) (capacity : Nat) (r : Reader) (fits : r.Fits capacity) :
    (∀ b ∈ requestReads settings turn r, b.taken ≤ maxHeaderBytes + capacity) ↔
      ∀ b ∈ requestReads settings turn r, b.OverlongLinesEnd capacity :=
  forall₂_congr fun b member => begins_taken_iff (requestReads_begin fits settings turn b member)

/-- A request line of one word, in one read. -/
def shortHead : Reader := ⟨[], [(71, [10])]⟩

theorem short_head_is_bounded : (BudgetedRead.head shortHead).taken ≤ maxHeaderBytes + 8192 := by
  refine (heads_bounded_iff ⟨['/'], none⟩ ⟨.sent, true, true⟩ 8192 shortHead ⟨by decide, by decide⟩).mpr ?_ _
    List.mem_cons_self
  have reads : requestReads ⟨['/'], none⟩ ⟨.sent, true, true⟩ shortHead = [⟨shortHead, [⟨maxHeaderBytes, shortHead⟩]⟩] := rfl
  rw [reads, List.forall_mem_singleton]
  intro line inside long
  rw [List.mem_singleton.mp inside] at long
  exact absurd long (by decide)

/-- A head that never ends a line is read for as long as the peer sends. -/
theorem endless_line_is_taken {r : Reader} (endless : 10 ∉ r.flat) (long : maxHeaderBytes < r.flat.length) :
    (BudgetedRead.head r).taken = r.pending := by
  have whole := readUntil_flat 10 r
  rw [takeThrough_absent endless] at whole
  have refused : readLine maxHeaderBytes r = .error .badRequest := by
    unfold readLine
    split
    rename_i raw next found
    rw [found] at whole
    have all : raw = r.flat := whole.1
    rw [all, if_pos long, ite_self]
  rw [BudgetedRead.taken, BudgetedRead.left, BudgetedRead.head, headLines, refused]
  have rest := (r.readUntil 10).2.flat_length
  rw [whole.2, List.length_nil] at rest
  change r.pending - (r.readUntil 10).2.pending = r.pending
  omega

/-- So many reads of one byte and `more`, without the end of a line. -/
def endlessHead (reads more : Nat) : Reader := ⟨[], List.replicate reads (65, List.replicate more 65)⟩

theorem endlessHead_pending (reads more : Nat) : (endlessHead reads more).pending = reads * (more + 1) := by
  rw [Reader.pending, joined, endlessHead, List.length_flatMap]
  simp

theorem endlessHead_fits (reads more : Nat) : (endlessHead reads more).Fits (more + 1) := by
  refine ⟨Nat.zero_le _, fun next member => ?_⟩
  rw [List.eq_of_mem_replicate member, List.length_cons, List.length_replicate]

theorem endlessHead_endless (reads more : Nat) : 10 ∉ (endlessHead reads more).flat := by
  intro member
  obtain ⟨next, read, inside⟩ := List.mem_flatMap.mp member
  rw [List.eq_of_mem_replicate read] at inside
  rcases List.mem_cons.mp inside with same | inside
  · cases same
  · cases List.eq_of_mem_replicate inside

/-- Four full buffers without a newline are all taken. -/
theorem head_passes_the_bound : ¬ ∀ (settings : Settings) (turn : Turn) (r : Reader), r.Fits 8192 →
    ∀ b ∈ requestReads settings turn r, b.taken ≤ maxHeaderBytes + 8192 := by
  intro all
  have length := (endlessHead 4 8191).flat_length
  have bounded := all ⟨['/'], none⟩ ⟨.sent, true, true⟩ _ (endlessHead_fits 4 8191) _ List.mem_cons_self
  rw [endlessHead_pending] at length
  rw [endless_line_is_taken (endlessHead_endless 4 8191), endlessHead_pending, maxHeaderBytes] at bounded
  · omega
  · rw [maxHeaderBytes]
    omega

end HttpProof
