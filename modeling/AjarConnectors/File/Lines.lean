import AjarConnectors.Buffered.Pieces
import AjarConnectors.File.Source
import AjarConnectors.Http.Server
import AjarConnectors.Utf8.RoundTrip

namespace FileModel

open TextModel

inductive LineError where
  | invalidUtf8
  deriving DecidableEq

/-- `FileSource` with line framing: what its reader has buffered, and `pos`. -/
structure LineSource where
  buffer : Bytes
  pos : Nat
  deriving DecidableEq

def isLineEnd (c : Char) : Bool := c == '\r' || c == '\n'

namespace LineSource

/-- `open`, where the file ends at `pos` or is read from the start. -/
def openAt (pos : Nat) : LineSource := ⟨[], pos⟩

/-- The new reader has nothing buffered. -/
def reopenIfRotated (s : LineSource) (size : Option Nat) : LineSource :=
  match size with
  | none => s
  | some len => if len < s.pos then ⟨[], 0⟩ else s

/-- What `recv` makes of the bytes `read_line` has read, and the buffer it leaves. -/
def deliver (bufLen : Nat) (s : LineSource) (raw left : Bytes) : Except LineError Bytes × LineSource :=
  match Utf8.decode raw with
  | none => (.error .invalidUtf8, ⟨left, s.pos⟩)
  | some text => (.ok ((Utf8.encodeText (trimEndMatches isLineEnd text)).take bufLen), ⟨left, s.pos + raw.length⟩)

/-- The loops of `recv` and of `read_line` in it, which has read `scratch`; no result means it still waits for the
    file. -/
def recvLoop (bufLen : Nat) (s : LineSource) (scratch : Bytes) :
    List Reading → Option (Except LineError Bytes) × LineSource × List Reading
  | [] =>
    if 10 ∈ s.buffer then
      let cut := Buffered.takeThrough 10 s.buffer
      let given := s.deliver bufLen (scratch ++ cut.1) cut.2
      (some given.1, given.2, [])
    else (none, s, [])
  | .chunk first rest :: later =>
    if 10 ∈ s.buffer then
      let cut := Buffered.takeThrough 10 s.buffer
      let given := s.deliver bufLen (scratch ++ cut.1) cut.2
      (some given.1, given.2, .chunk first rest :: later)
    else recvLoop bufLen { s with buffer := first :: rest } (scratch ++ s.buffer) later
  | .atEnd size :: later =>
    if 10 ∈ s.buffer then
      let cut := Buffered.takeThrough 10 s.buffer
      let given := s.deliver bufLen (scratch ++ cut.1) cut.2
      (some given.1, given.2, .atEnd size :: later)
    -- at the end of the file `read_line` returns what there is
    else if scratch ++ s.buffer = [] then recvLoop bufLen (s.reopenIfRotated size) [] later
    else
      let given := s.deliver bufLen (scratch ++ s.buffer) []
      (some given.1, given.2, later)

def recv (bufLen : Nat) (s : LineSource) (readings : List Reading) :
    Option (Except LineError Bytes) × LineSource × List Reading :=
  s.recvLoop bufLen [] readings

/-- What the first `calls` calls of `recv` return, up to one that waits. -/
def received (s : LineSource) : Nat → List Reading → List (Except LineError Bytes)
  | 0, _ => []
  | calls + 1, readings => match s.recv maxFrameBytes readings with
    | (none, _, _) => []
    | (some result, s, later) => result :: s.received calls later

end LineSource

/-- A line a source appends: no CR or LF inside, and it fits into the runtime's buffer. -/
structure PlainLine (line : List Char) : Prop where
  visible : ∀ c ∈ line, isLineEnd c = false
  fits : (Utf8.encodeText line).length ≤ maxFrameBytes

/-- The bytes of lines, each with its newline. -/
def linesBytes (lines : List (List Char)) : Bytes := lines.flatMap fun line => Utf8.encodeText line ++ [10]

/-- So far no line has been begun without its newline. -/
def betweenLines (bytes : Bytes) : Bool := bytes.getLast?.all (· == 10)

/-- No read finds the end of the file behind a line still without its newline. -/
def EndsBetweenLines : Bool → List Reading → Prop
  | _, [] => True
  | _, .chunk first rest :: later => EndsBetweenLines (betweenLines (first :: rest)) later
  | between, .atEnd _ :: later => between = true ∧ EndsBetweenLines between later

instance EndsBetweenLines.decidable (between : Bool) (readings : List Reading) :
    Decidable (EndsBetweenLines between readings) :=
  match readings with
  | [] => isTrue trivial
  | .chunk first rest :: later => EndsBetweenLines.decidable (betweenLines (first :: rest)) later
  | .atEnd _ :: later =>
    have := EndsBetweenLines.decidable between later
    inferInstanceAs (Decidable (_ ∧ _))

/-- Every number of calls returns these lines, one frame a line, and waits after the last. -/
def LinesArrive (pos : Nat) (lines : List (List Char)) (readings : List Reading) : Prop :=
  ∀ calls, (LineSource.openAt pos).received calls readings =
    (lines.take calls).map fun line => .ok (Utf8.encodeText line)

end FileModel

namespace FileProof

open FileModel TextModel Buffered

theorem betweenLines_append (a : Bytes) {b : Bytes} (filled : b ≠ []) : betweenLines (a ++ b) = betweenLines b := by
  rw [betweenLines, betweenLines, List.getLast?_append_of_ne_nil _ filled]

theorem betweenLines_line (raw left : Bytes) : betweenLines (raw ++ [10] ++ left) = betweenLines left := by
  by_cases filled : left = []
  · rw [filled, List.append_nil, betweenLines_append raw (List.cons_ne_nil _ _)]
    rfl
  · exact betweenLines_append _ filled

theorem betweenLines_of_absent {bytes : Bytes} (absent : 10 ∉ bytes) : betweenLines bytes = true ↔ bytes = [] := by
  unfold betweenLines
  cases last : bytes.getLast? with
  | none => simpa using List.getLast?_eq_none_iff.mp last
  | some b =>
    have member : b ∈ bytes := List.mem_of_getLast? last
    have other : b ≠ 10 := fun same => absent (same ▸ member)
    have filled : bytes ≠ [] := List.ne_nil_of_mem member
    simp [other, filled]

/-- A call waits, or delivers up to the next newline, or finds the end of the file behind the beginning of a line. -/
inductive Receives (outcome : Option (Except LineError Bytes) × LineSource × List Reading) (ahead : Bytes)
    (between : Prop) : Prop where
  | waits (found : outcome.1 = none) (absent : 10 ∉ ahead) (holds : between)
  | line (s : LineSource) (raw left : Bytes) (later : List Reading)
    (found : outcome = (some (s.deliver maxFrameBytes (raw ++ [10]) left).1, (s.deliver maxFrameBytes (raw ++ [10]) left).2, later))
    (absent : 10 ∉ raw) (split : ahead = raw ++ 10 :: (left ++ allBytes later))
    (same : between ↔ EndsBetweenLines (betweenLines left) later)
  | torn (s : LineSource) (raw : Bytes) (later : List Reading)
    (found : outcome = (some (s.deliver maxFrameBytes raw []).1, (s.deliver maxFrameBytes raw []).2, later))
    (absent : 10 ∉ raw) (split : ahead = raw ++ allBytes later) (fails : ¬ between)

theorem recvLoop_buffered {s : LineSource} {scratch before left : Bytes} (absent : 10 ∉ before)
    (cut : s.buffer = before ++ 10 :: left) (readings : List Reading) :
    s.recvLoop maxFrameBytes scratch readings =
      (some (s.deliver maxFrameBytes (scratch ++ before ++ [10]) left).1,
        (s.deliver maxFrameBytes (scratch ++ before ++ [10]) left).2, readings) := by
  have member : 10 ∈ s.buffer := by
    rw [cut]
    exact List.mem_append_right _ List.mem_cons_self
  have taken := takeThrough_line absent left
  rw [← cut] at taken
  rw [List.append_assoc]
  cases readings with
  | nil => rw [LineSource.recvLoop, if_pos member, taken]
  | cons reading later => cases reading <;> rw [LineSource.recvLoop, if_pos member, taken]

theorem receives (s : LineSource) {scratch : Bytes} (absent : 10 ∉ scratch) (readings : List Reading) :
    Receives (s.recvLoop maxFrameBytes scratch readings) (scratch ++ s.buffer ++ allBytes readings)
      (EndsBetweenLines (betweenLines (scratch ++ s.buffer)) readings) := by
  induction readings generalizing s scratch with
  | nil =>
    rcases delimiter_cases 10 s.buffer with ⟨before, left, cut, clean⟩ | none
    · refine .line s (scratch ++ before) left [] (recvLoop_buffered clean cut []) ?_ ?_ Iff.rfl
      · simp [absent, clean]
      · rw [cut]
        simp [allBytes]
    · refine .waits ?_ ?_ trivial
      · rw [LineSource.recvLoop, if_neg none]
      · simp [allBytes, absent, none]
  | cons reading later ih =>
    rcases delimiter_cases 10 s.buffer with ⟨before, left, cut, clean⟩ | none
    · refine .line s (scratch ++ before) left (reading :: later) (recvLoop_buffered clean cut _) ?_ ?_ ?_
      · simp [absent, clean]
      · rw [cut, List.append_assoc, List.append_assoc, List.append_assoc]
        rfl
      · have same := betweenLines_line (scratch ++ before) left
        rw [List.append_assoc, List.append_assoc, List.singleton_append, ← cut] at same
        rw [same]
    have clean : 10 ∉ scratch ++ s.buffer := by simp [absent, none]
    cases reading with
    | chunk first rest =>
      have next := ih { s with buffer := first :: rest } clean
      rw [betweenLines_append _ (List.cons_ne_nil first rest)] at next
      rw [LineSource.recvLoop, if_neg none, EndsBetweenLines]
      have bytes : allBytes (.chunk first rest :: later) = first :: rest ++ allBytes later := rfl
      rw [bytes, ← List.append_assoc]
      exact next
    | atEnd size =>
      have bytes : allBytes (.atEnd size :: later) = allBytes later := rfl
      rw [LineSource.recvLoop, if_neg none, EndsBetweenLines, bytes, betweenLines_of_absent clean]
      by_cases empty : scratch ++ s.buffer = []
      · have kept : (s.reopenIfRotated size).buffer = [] := by
          have buffer := (List.append_eq_nil_iff.mp empty).2
          unfold LineSource.reopenIfRotated
          split
          · exact buffer
          · split
            · rfl
            · exact buffer
        have next := ih (s.reopenIfRotated size) List.not_mem_nil
        rw [kept] at next
        rw [if_pos empty, empty]
        simpa using next
      · rw [if_neg empty]
        exact .torn s (scratch ++ s.buffer) later rfl clean rfl fun between => empty between.1

theorem deliver_buffer (s : LineSource) (raw left : Bytes) : (s.deliver maxFrameBytes raw left).2.buffer = left := by
  unfold LineSource.deliver
  split <;> rfl

theorem trimEndMatches_line {line : List Char} (visible : ∀ c ∈ line, isLineEnd c = false) :
    trimEndMatches isLineEnd (line ++ ['\n']) = line := by
  unfold trimEndMatches
  rw [List.reverse_append, List.reverse_singleton, List.singleton_append, List.dropWhile_cons_of_pos (by decide)]
  cases last : line.reverse with
  | nil => exact (List.reverse_eq_nil_iff.mp last).symm
  | cons c front =>
    have member : c ∈ line := List.mem_reverse.mp (last ▸ List.mem_cons_self)
    rw [List.dropWhile_cons_of_neg (by simp [visible c member]), ← last, List.reverse_reverse]

theorem deliver_line (s : LineSource) {line : List Char} (plain : PlainLine line) (left : Bytes) :
    (s.deliver maxFrameBytes (Utf8.encodeText line ++ [10]) left).1 = .ok (Utf8.encodeText line) := by
  have bytes : Utf8.encodeText line ++ [10] = Utf8.encodeText (line ++ ['\n']) := by
    rw [Utf8.encodeText_append]
    rfl
  unfold LineSource.deliver
  rw [bytes, Utf8.decode_encodeText]
  dsimp only
  rw [trimEndMatches_line plain.visible, List.take_of_length_le plain.fits]

theorem newline_absent {line : List Char} (plain : PlainLine line) : 10 ∉ Utf8.encodeText line := by
  intro member
  have inside := plain.visible _ (Utf8.mem_of_ascii (by decide) member)
  exact absurd inside (by decide)

theorem linesBytes_cons (line : List Char) (lines : List (List Char)) (rest : Bytes) :
    linesBytes (line :: lines) ++ rest = Utf8.encodeText line ++ 10 :: (linesBytes lines ++ rest) := by
  unfold linesBytes
  rw [List.flatMap_cons, List.append_assoc, List.append_assoc]
  rfl

theorem count_linesBytes {lines : List (List Char)} (plain : ∀ line ∈ lines, PlainLine line) {rest : Bytes}
    (unfinished : 10 ∉ rest) : (linesBytes lines ++ rest).count 10 = lines.length := by
  induction lines with
  | nil => exact List.count_eq_zero.mpr unfinished
  | cons line lines ih =>
    rw [linesBytes_cons, List.count_append, List.count_eq_zero.mpr (newline_absent (plain line List.mem_cons_self)),
      List.count_cons_self, ih fun other member => plain other (List.mem_cons_of_mem _ member), List.length_cons, Nat.zero_add]

theorem received_succ {s s' : LineSource} {result : Except LineError Bytes} {readings later : List Reading}
    (found : s.recvLoop maxFrameBytes [] readings = (some result, s', later)) (calls : Nat) :
    s.received (calls + 1) readings = result :: s'.received calls later := by
  rw [LineSource.received, LineSource.recv, found]

theorem received_waits {s : LineSource} {readings : List Reading}
    (found : (s.recvLoop maxFrameBytes [] readings).1 = none) (calls : Nat) : s.received calls readings = [] := by
  cases calls with
  | zero => rfl
  | succ calls =>
    rw [LineSource.received, LineSource.recv]
    split
    · rfl
    · rename_i outcome
      rw [outcome] at found
      cases found

/-- Every newline ahead ends a frame, or an error. -/
theorem received_length {n : Nat} {s : LineSource} {readings : List Reading}
    (enough : n ≤ (s.buffer ++ allBytes readings).count 10) : (s.received n readings).length = n := by
  induction n generalizing s readings with
  | zero => rfl
  | succ n ih =>
    cases receives s List.not_mem_nil readings with
    | waits found absent between =>
      rw [List.nil_append] at absent
      rw [List.count_eq_zero.mpr absent] at enough
      omega
    | line at' raw left later found absent split between =>
      rw [List.nil_append] at split
      rw [split, List.count_append, List.count_cons_self] at enough
      rw [received_succ found, List.length_cons, ih]
      rw [deliver_buffer]
      have none := List.count_eq_zero.mpr absent
      omega
    | torn at' raw later found absent split between =>
      rw [List.nil_append] at split
      rw [split, List.count_append] at enough
      rw [received_succ found, List.length_cons, ih]
      rw [deliver_buffer, List.nil_append]
      have none := List.count_eq_zero.mpr absent
      omega

theorem received_iff_between {lines : List (List Char)} (plain : ∀ line ∈ lines, PlainLine line) {rest : Bytes}
    (unfinished : 10 ∉ rest) {s : LineSource} {readings : List Reading}
    (stream : s.buffer ++ allBytes readings = linesBytes lines ++ rest) :
    (∀ calls, s.received calls readings = (lines.take calls).map fun line => .ok (Utf8.encodeText line)) ↔
      EndsBetweenLines (betweenLines s.buffer) readings := by
  induction lines generalizing s readings with
  | nil =>
    cases receives s List.not_mem_nil readings with
    | waits found absent between =>
      refine iff_of_true ?_ between
      intro calls
      rw [received_waits found, List.take_nil]
      rfl
    | line at' raw left later found absent split between =>
      rw [List.nil_append, stream] at split
      refine absurd ?_ unfinished
      change rest = _ at split
      rw [split]
      exact List.mem_append_right _ List.mem_cons_self
    | torn at' raw later found absent split between =>
      refine iff_of_false ?_ between
      intro all
      have first := all 1
      rw [received_succ found] at first
      cases first
  | cons line lines ih =>
    have tail : ∀ other ∈ lines, PlainLine other := fun other member => plain other (List.mem_cons_of_mem _ member)
    have head := plain line List.mem_cons_self
    have cut := stream
    rw [linesBytes_cons] at cut
    cases receives s List.not_mem_nil readings with
    | waits found absent between =>
      rw [List.nil_append, cut] at absent
      exact absurd (List.mem_append_right _ List.mem_cons_self) absent
    | line at' raw left later found absent split same =>
      rw [List.nil_append, cut] at split
      have both := congrArg (takeThrough 10) split
      rw [takeThrough_line (newline_absent head), takeThrough_line absent] at both
      have whole : Utf8.encodeText line = raw := List.append_cancel_right (congrArg Prod.fst both)
      have ahead : linesBytes lines ++ rest = left ++ allBytes later := congrArg Prod.snd both
      have buffered : (at'.deliver maxFrameBytes (raw ++ [10]) left).2.buffer ++ allBytes later = linesBytes lines ++ rest := by
        rw [deliver_buffer, ahead]
      have following := ih tail buffered
      have first := deliver_line at' head left
      rw [whole] at first
      rw [deliver_buffer] at following
      rw [List.nil_append] at same
      rw [same, ← following]
      constructor
      · intro all calls
        have next := all (calls + 1)
        rw [received_succ found, first, List.take_succ_cons, List.map_cons, whole] at next
        exact (List.cons.inj next).2
      · intro all calls
        cases calls with
        | zero => rfl
        | succ calls => rw [received_succ found, first, List.take_succ_cons, List.map_cons, whole, all calls]
    | torn at' raw later found absent split fails =>
      refine iff_of_false ?_ fails
      intro all
      -- the torn part is one frame more than there are lines
      have newlines := count_linesBytes plain unfinished
      rw [List.nil_append] at split
      rw [← stream, split, List.count_append, List.count_eq_zero.mpr absent, Nat.zero_add] at newlines
      have longer := congrArg List.length (all ((line :: lines).length + 1))
      rw [received_succ found, List.length_cons, received_length, List.length_map, List.length_take] at longer
      · omega
      · rw [deliver_buffer, List.nil_append, newlines]

/-- The lines arrive, one frame each, exactly if no read meets the end of the file within a line. -/
theorem lines_arrive_iff (pos : Nat) (lines : List (List Char)) (plain : ∀ line ∈ lines, PlainLine line) (rest : Bytes)
    (unfinished : 10 ∉ rest) (readings : List Reading) (stream : allBytes readings = linesBytes lines ++ rest) :
    LinesArrive pos lines readings ↔ EndsBetweenLines true readings :=
  received_iff_between plain unfinished stream

theorem plainLine_ab : PlainLine ['a', 'b'] := by
  have bytes : (Utf8.encodeText ['a', 'b']).length = 2 := rfl
  have visible : ∀ c ∈ ['a', 'b'], isLineEnd c = false := by
    rw [List.forall_mem_cons, List.forall_mem_singleton]
    exact ⟨rfl, rfl⟩
  exact ⟨visible, by rw [bytes, maxFrameBytes]; omega⟩

/-- A line read in two parts, with the end of the file found behind it only. -/
theorem line_in_two_chunks_arrives :
    LinesArrive 0 [['a', 'b']] [.chunk 97 [], .chunk 98 [10], .atEnd (some 3), .chunk 99 []] :=
  (lines_arrive_iff 0 [['a', 'b']] (by simpa using plainLine_ab) [99] (by decide) _ (by decide)).mpr (by decide)

/-- The appender has written the first byte of a line when the file is read to its end. -/
theorem half_line_is_a_frame :
    ¬ ∀ (pos : Nat) (lines : List (List Char)) (rest : Bytes) (readings : List Reading),
      (∀ line ∈ lines, PlainLine line) → 10 ∉ rest → allBytes readings = linesBytes lines ++ rest →
      Unrotated pos readings → LinesArrive pos lines readings := by
  intro all
  have arrive := all 0 [['a', 'b']] [] [.chunk 97 [], .atEnd (some 1), .chunk 98 [10]]
    (by simpa using plainLine_ab) List.not_mem_nil (by decide) (by simp [Unrotated]) 1
  revert arrive
  decide

end FileProof
