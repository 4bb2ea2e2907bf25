import AjarConnectors.Spool.Directory

namespace SpoolModel

def segmentBytes : Nat := 4 * 1024 * 1024

/-- The bounded segment log. The append handle is not a field: it is the file of `headSeq`. -/
structure Spool where
  dir : Dir
  maxBytes : Nat
  headSeq : Nat
  headLen : Nat
  cursor : Cursor
  droppedSegments : Nat
  deriving DecidableEq

inductive AdvanceError where
  | reReading (error : IoError)
  | notThere
  deriving DecidableEq

namespace Spool

/-- `Spool::open`: recover the cursor, cut the newest segment's torn tail, append after it. -/
def openDir (maxBytes : Nat) (dir : Dir) : Spool :=
  let segs := existingSegments dir
  let cursor := (readCursor dir).getD ⟨segs.head?.getD 0, 0⟩
  let truncated := match segs.getLast? with
    | some last => truncateTornTail dir last
    | none => dir
  let headSeq := segs.getLast?.getD 0
  let opened := truncated.create headSeq
  { dir := opened
    maxBytes
    headSeq
    headLen := ((opened.file headSeq).getD []).length
    cursor
    droppedSegments := 0 }

def rotate (s : Spool) : Spool :=
  { s with dir := s.dir.create (s.headSeq + 1), headSeq := s.headSeq + 1, headLen := 0 }

/-- One pass of the loop of `enforce_bound`: the oldest segment goes, and the cursor leaves it. -/
def dropOldest (s : Spool) (oldest : Nat) : Spool :=
  { s with
    dir := s.dir.removeFile oldest
    droppedSegments := s.droppedSegments + 1
    cursor := if s.cursor.seg ≤ oldest then ⟨oldest + 1, 0⟩ else s.cursor }

/-- The loop of `enforce_bound`. Every pass removes one segment, so the number of segments is
    enough fuel. -/
def enforceBoundLoop : Nat → Spool → Bool → Spool × Bool
  | 0, s, dropped => (s, dropped)
  | fuel + 1, s, dropped =>
    let segs := existingSegments s.dir
    if s.dir.total ≤ s.maxBytes ∨ segs.length ≤ 1 then (s, dropped)
    else enforceBoundLoop fuel (s.dropOldest (segs.head?.getD 0)) true

def enforceBound (s : Spool) : Spool × Bool :=
  enforceBoundLoop (existingSegments s.dir).length s false

def Full (s : Spool) : Prop := segmentBytes ≤ s.headLen

instance (s : Spool) : Decidable s.Full := inferInstanceAs (Decidable (_ ≤ _))

def rotateIfFull (s : Spool) : Spool := if s.Full then s.rotate else s

/-- The spool between `write_all` and `enforce_bound`. -/
def write (s : Spool) (eventId : String) (sealed : Bytes) (room : Option Nat) : Spool × Except IoError Unit :=
  let s := s.rotateIfFull
  let buf := recordBytes eventId sealed
  match s.dir.writeAll s.headSeq buf room with
  | (dir, .ok ()) => ({ s with dir, headLen := s.headLen + buf.length }, .ok ())
  -- The early return: `head_len` keeps its value, the bytes that fit stay in the file.
  | (dir, .error e) => ({ s with dir }, .error e)

def append (s : Spool) (eventId : String) (sealed : Bytes) (room : Option Nat) : Spool × Except IoError Bool :=
  match s.write eventId sealed room with
  | (written, .ok ()) => (written.enforceBound.1, .ok written.enforceBound.2)
  | (written, .error e) => (written, .error e)

/-- The loop of `peek`, which skips forward a segment at a time while one is left. The fuel counts
    the segments up to the head. -/
def peekLoop (dir : Dir) (headSeq : Nat) : Nat → Cursor → Cursor × Option (Cursor × Record)
  | 0, cursor => (cursor, none)
  | fuel + 1, cursor =>
    match readRecordAt (dir.file cursor.seg) cursor.offset with
    | .error _ =>
      if cursor.seg < headSeq then peekLoop dir headSeq fuel ⟨cursor.seg + 1, 0⟩ else (cursor, none)
    | .ok (some (r, _)) => (cursor, some (cursor, r))
    | .ok none =>
      if cursor.seg < headSeq then peekLoop dir headSeq fuel ⟨cursor.seg + 1, 0⟩ else (cursor, none)

/-- The next record to drain. `peek` never returns an error: a segment that does not open is
    skipped, or is the end. -/
def peek (s : Spool) : Spool × Option (Cursor × Record) :=
  let found := peekLoop s.dir s.headSeq (s.headSeq - s.cursor.seg + 1) s.cursor
  ({ s with cursor := found.1 }, found.2)

/-- The second half of `advance`: persist the new cursor, then delete the segments behind it. -/
def moveTo (s : Spool) (cursor : Cursor) : Spool :=
  let dir := writeCursor s.dir cursor
  let behind := (existingSegments dir).filter (· < cursor.seg)
  { s with cursor, dir := behind.foldl Dir.removeFile dir }

def advance (s : Spool) (position : Cursor) : Spool × Except AdvanceError Unit :=
  match readRecordAt (s.dir.file position.seg) position.offset with
  | .error e => (s, .error (.reReading e))
  | .ok none => (s, .error .notThere)
  | .ok (some (_, next)) => (s.moveTo ⟨position.seg, next⟩, .ok ())

def writtenAt (s : Spool) : Cursor := if s.Full then ⟨s.headSeq + 1, 0⟩ else ⟨s.headSeq, s.headLen⟩

def depthBytes (s : Spool) : Nat := s.dir.total

end Spool

def recordsIn (data : Bytes) : Nat → Nat → List (Nat × Record)
  | 0, _ => []
  | fuel + 1, offset =>
    match readRecord data offset with
    | none => []
    | some (r, next) => (offset, r) :: recordsIn data fuel next

def onDisk (dir : Dir) : List (Cursor × Record) :=
  dir.segs.flatMap fun seg =>
    (recordsIn seg.2 (seg.2.length + 1) 0).map fun found => (⟨seg.1, found.1⟩, found.2)

def Spool.surviving (s : Spool) : List (Cursor × Record) :=
  (onDisk s.dir).filter fun e => decide (s.cursor ≤ e.1)

end SpoolModel

namespace SpoolProof

open SpoolModel

theorem removeFile_segs (dir : Dir) (seq : Nat) :
    (dir.removeFile seq).segs = dir.segs.filter fun seg => seg.1 ≠ seq := rfl

theorem removeAll_cursorFile (seqs : List Nat) (dir : Dir) :
    (seqs.foldl Dir.removeFile dir).cursorFile = dir.cursorFile := by
  induction seqs generalizing dir with
  | nil => rfl
  | cons seq seqs ih => exact ih (dir.removeFile seq)

theorem removeAll_segs (seqs : List Nat) (dir : Dir) :
    (seqs.foldl Dir.removeFile dir).segs = dir.segs.filter fun seg => seg.1 ∉ seqs := by
  induction seqs generalizing dir with
  | nil => simp
  | cons seq seqs ih =>
    rw [List.foldl_cons, ih, removeFile_segs, List.filter_filter]
    congr 1
    funext seg
    simp [Bool.and_comm]

theorem removeBehind_segs (dir : Dir) (seq : Nat) :
    (((existingSegments dir).filter (· < seq)).foldl Dir.removeFile dir).segs =
      dir.segs.filter fun seg => decide (seq ≤ seg.1) := by
  rw [removeAll_segs]
  apply List.filter_congr
  intro seg member
  have listed : seg.1 ∈ existingSegments dir := List.mem_map_of_mem member
  simp [listed]

end SpoolProof
