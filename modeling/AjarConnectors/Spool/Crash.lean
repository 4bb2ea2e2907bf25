import AjarConnectors.Spool.FailedAppends

namespace SpoolModel

/-- What a crash leaves: the cursor file and the rotated segments were fsynced, of the head segment
    only a prefix is on disk. -/
def Spool.crash (s : Spool) (keep : Nat) : Dir := s.dir.modify s.headSeq (·.take keep)

def boundaries (data : Bytes) : List Nat :=
  (recordsIn data (data.length + 1) 0).map Prod.fst ++ [wholeEnd data (data.length + 1) 0]

/-- The cursor stands at a record boundary of its segment, or its segment is older than all that is
    left on disk. -/
def Spool.AtBoundary (s : Spool) : Prop :=
  match s.dir.file s.cursor.seg with
  | some data => s.cursor.offset ∈ boundaries data
  | none => ∀ k ∈ existingSegments s.dir, s.cursor.seg < k

/-- The cursor fits the recovered log, and in every run from here the surviving records and the ones
    appended since drain whole and in order. -/
def Spool.Recovers (s : Spool) : Prop :=
  s.AtBoundary ∧ ∀ ops, Transition.Allowed World.step WholeHeadStep (.of s s.surviving) ops →
    let w := (World.of s s.surviving).run ops
    w.DrainsAll ∧ (w.dropped = [] → w.confirmed ++ w.outstanding = w.appended) ∧
    w.appended.map Prod.snd =
      s.surviving.map Prod.snd ++ (ops.filter fun op => decide op.Accepted).filterMap Op.record?

end SpoolModel

namespace SpoolProof

open SpoolModel Layout

theorem Seg.exists_append (g : Seg) (more : Bytes) : ∃ g' : Seg, g.bytes ++ more = g'.bytes ∧ g.recs <+: g'.recs := by
  obtain ⟨rs, tail, fits, same, unread⟩ := recordFormat.exists_frames recordFormat_canonical (g.tail ++ more)
  have sized : ∀ r ∈ g.recs ++ rs, r.Sized := by
    intro r member
    rcases List.mem_append.mp member with member | member
    · exact g.sized r member
    · exact fits r member
  refine ⟨⟨g.recs ++ rs, tail, sized, unread⟩, ?_, List.prefix_append _ _⟩
  simp only [Seg.bytes, List.append_assoc, same, recordFormat.encodeAll_append]

theorem Seg.exists_take (g : Seg) (keep : Nat) :
    ∃ g' : Seg, g.bytes.take keep = g'.bytes ∧ g'.recs <+: g.recs ∧
      ∀ j ≤ g.recs.length, g.offset j ≤ keep → j ≤ g'.recs.length := by
  by_cases inside : keep ≤ g.size
  · obtain ⟨m, torn, bound, taken, unread, maximal⟩ := recordFormat.take_frames g.recs g.sized keep
    refine ⟨⟨g.recs.take m, torn, fun r member => g.sized r (List.mem_of_mem_take member), unread⟩, ?_,
      List.take_prefix m _, ?_⟩
    · rw [Seg.bytes, List.take_append_of_le_length inside, taken]
      rfl
    · intro j le small
      simpa [bound] using maximal j le small
  · have cut : g.tail.take (keep - g.size) <+: g.tail := List.take_prefix _ _
    refine ⟨⟨g.recs, g.tail.take (keep - g.size), g.sized, recordFormat.read_prefix cut g.unread⟩, ?_,
      List.prefix_rfl, fun j le _ => le⟩
    rw [Seg.bytes, List.take_append, List.take_of_length_le (show g.size ≤ keep by omega)]
    rfl

theorem Layout.Extends.entry {l l' : Layout} (ext : Extends l l') {i : Nat} {e : Entry}
    (found : l.entries[i]? = some e) : l'.entries[i]? = some e := by
  obtain ⟨g, j, present, record, offset, rfl⟩ := l.entries_getElem?_inv found
  obtain ⟨g', present', added, same⟩ := ext.recs _ _ present
  have counted := (List.getElem?_eq_some_iff.mp record).1
  have record' : g'.recs[j]? = some e.2 := by rw [← same, List.getElem?_append_left counted, record]
  have entry := l'.entries_getElem? present' record'
  have offset' : g'.offset j = e.1.offset := by
    rw [offset, Seg.offset, Seg.offset, ← same, List.take_append_of_le_length (by omega)]
  rw [ext.base _ (l.seg_le present), offset'] at entry
  exact entry

/-- The spool's bytes and cursor represent a layout. Nothing is said about `head_len`: a failed append
    leaves it behind the file. -/
def Reads (s : Spool) (l : Layout) (next : Nat) : Prop := Holds { s with headLen := l.head.size } l next

theorem advance_headLen (s : Spool) (c : Cursor) (n : Nat) :
    ({ s with headLen := n } : Spool).advance c = ({ (s.advance c).1 with headLen := n }, (s.advance c).2) := by
  simp only [Spool.advance]
  split <;> rfl

theorem enforceBoundLoop_headLen (fuel : Nat) (s : Spool) (dropped : Bool) (n : Nat) :
    Spool.enforceBoundLoop fuel { s with headLen := n } dropped =
      ({ (Spool.enforceBoundLoop fuel s dropped).1 with headLen := n }, (Spool.enforceBoundLoop fuel s dropped).2) := by
  induction fuel generalizing s dropped with
  | zero => rfl
  | succ fuel ih =>
    simp only [Spool.enforceBoundLoop]
    split
    · rfl
    · exact ih (s.dropOldest ((existingSegments s.dir).head?.getD 0)) true

theorem Reads.rotateIfFull {s : Spool} {l : Layout} {next : Nat} (reads : Reads s l next) :
    ∃ l', Reads s.rotateIfFull l' next ∧ Extends l l' := by
  by_cases full : s.Full
  · refine ⟨l.rotate, ?_, l.rotate_extends⟩
    rw [Spool.rotateIfFull, if_pos full]
    exact Holds.rotate (s := { s with headLen := l.head.size }) reads
  · exact ⟨l, by simpa only [Spool.rotateIfFull, full, ↓reduceIte] using reads, .refl l⟩

theorem Reads.writeAll {s : Spool} {l : Layout} {next : Nat} (reads : Reads s l next) (written : Bytes) (n : Nat) :
    ∃ l', Reads { s with dir := s.dir.modify s.headSeq (· ++ written), headLen := n } l' next ∧ Extends l l' := by
  obtain ⟨g, bytes, more⟩ := l.head.exists_append written
  exact ⟨l.withHead g, Holds.changeHead reads (· ++ written) g bytes more, l.withHead_extends g more⟩

theorem Reads.write {s : Spool} {l : Layout} {next : Nat} (reads : Reads s l next) (eventId : String)
    (sealed : Bytes) (room : Option Nat) :
    ∃ l', Reads (s.write eventId sealed room).1 l' next ∧ Extends l l' := by
  obtain ⟨l₁, rotated, ext⟩ := reads.rotateIfFull
  have written : ∃ bytes n, (s.write eventId sealed room).1 =
      { s.rotateIfFull with dir := s.rotateIfFull.dir.modify s.rotateIfFull.headSeq (· ++ bytes), headLen := n } := by
    cases room with
    | none => exact ⟨_, _, rfl⟩
    | some free =>
      simp only [Spool.write, Dir.writeAll]
      by_cases fits : (recordBytes eventId sealed).length ≤ free
      · rw [if_pos fits]
        exact ⟨_, _, rfl⟩
      · rw [if_neg fits]
        exact ⟨_, _, rfl⟩
  obtain ⟨bytes, n, same⟩ := written
  obtain ⟨l₂, changed, ext'⟩ := rotated.writeAll bytes n
  exact ⟨l₂, by rw [same]; exact changed, ext.trans ext'⟩

theorem Reads.enforceBound {s : Spool} {l : Layout} {next : Nat} (reads : Reads s l next) :
    ∃ k inside, l.lo ≤ k ∧ Reads s.enforceBound.1 (l.since k inside) (max (l.base k) next) := by
  obtain ⟨k, inside, le, final, -⟩ := Holds.enforceBoundLoop reads (existingSegments s.dir).length false
  rw [enforceBoundLoop_headLen] at final
  exact ⟨k, inside, le, final⟩

/-- Whatever the calls do, the bytes on disk stay readable from the cursor on. -/
structure Readable (w : World) (l : Layout) : Prop where
  reads : ∃ next, Reads w.spool l next
  peeked : ∀ e, w.peeked = some e → ∃ i : Nat, l.entries[i]? = some e

theorem start_readable (maxBytes : Nat) : Readable (.start maxBytes) .start where
  reads := ⟨0, start_holds maxBytes⟩
  peeked := by simp [World.start, World.of]

namespace Readable

variable {w : World} {l : Layout} (readable : Readable w l)

include readable

theorem append (eventId : String) (sealed : Bytes) (room : Option Nat) :
    ∃ l', Readable (w.step (.append eventId sealed room)) l' := by
  obtain ⟨next, reads⟩ := readable.reads
  obtain ⟨l₁, written, ext⟩ := reads.write eventId sealed room
  have stays : ∀ e, (w.step (.append eventId sealed room)).peeked = some e → ∃ i : Nat, l₁.entries[i]? = some e := by
    rw [(step_append_frame w eventId sealed room).1]
    intro e same
    obtain ⟨i, found⟩ := readable.peeked e same
    exact ⟨i, ext.entry found⟩
  obtain ⟨k, inside, -, bounded⟩ := written.enforceBound
  cases result : w.spool.write eventId sealed room with
  | mk s' outcome =>
    rw [result] at written bounded
    cases outcome with
    | ok =>
      have appended : (w.step (.append eventId sealed room)).spool = s'.enforceBound.1 := by
        simp only [World.step, Spool.append, result]
      exact ⟨l₁.since k inside, ⟨max (l₁.base k) next, by rw [appended]; exact bounded⟩, stays⟩
    | error e =>
      have failed : (w.step (.append eventId sealed room)).spool = s' := by
        simp only [World.step, Spool.append, result]
      exact ⟨l₁, ⟨next, by rw [failed]; exact written⟩, stays⟩

theorem peek : Readable (w.step .peek) l := by
  obtain ⟨next, reads⟩ := readable.reads
  obtain ⟨s', found, holds, -, -⟩ := Holds.peek reads
  have moved : ({ w.spool.peek.1 with headLen := l.head.size }, w.spool.peek.2) = (s', l.entries[next]?) := found
  rw [Prod.mk.injEq] at moved
  refine ⟨⟨next, ?_⟩, ?_⟩
  · rw [← moved.1] at holds
    exact holds
  · intro e same
    exact ⟨next, moved.2.symm.trans same⟩

theorem advance : ∃ l', Readable (w.step .advance) l' := by
  obtain ⟨next, reads⟩ := readable.reads
  have frame := (step_advance_frame w).2.2
  cases peeked : w.peeked with
  | none => exact ⟨l, by simpa only [World.step, peeked] using readable⟩
  | some e =>
    obtain ⟨i, found⟩ := readable.peeked e peeked
    have spool : (w.step .advance).spool = (w.spool.advance e.1).1 := by
      cases result : w.spool.advance e.1 with
      | mk s' outcome =>
        cases outcome with
        | ok => rw [step_advance peeked result]
        | error => rw [step_advance_error peeked result]
    have stays : ∀ e, (w.step .advance).peeked = some e → ∃ i : Nat, l.entries[i]? = some e := by
      rw [frame]
      exact readable.peeked
    by_cases onDisk : l.lo ≤ e.1.seg
    · obtain ⟨s', inside, advanced, holds, -⟩ := Holds.advance reads found onDisk
      rw [advance_headLen, Prod.mk.injEq] at advanced
      refine ⟨l.since e.1.seg inside, ⟨i + 1, ?_⟩, stays⟩
      rw [spool]
      rw [← advanced.1] at holds
      exact holds
    · have gone := Holds.advance_gone reads (Nat.not_le.mp onDisk)
      rw [advance_headLen, Prod.mk.injEq] at gone
      refine ⟨l, ⟨next, ?_⟩, stays⟩
      rw [spool, Reads, gone.1]
      exact reads

theorem reopen : ∃ l', Readable (w.step .reopen) l' := by
  obtain ⟨next, reads⟩ := readable.reads
  refine ⟨l.withHead l.head.cut, ⟨next, ?_⟩, ?_⟩
  · have holds := Holds.reopen reads w.spool.maxBytes
    have headLen := holds.headLen
    have same : Reads (w.step .reopen).spool (l.withHead l.head.cut) next ↔
        Holds { Spool.openDir w.spool.maxBytes w.spool.dir with headLen := (l.withHead l.head.cut).head.size }
          (l.withHead l.head.cut) next := Iff.rfl
    rw [same, ← headLen]
    exact holds
  · rw [l.withHead_entries l.head.cut rfl]
    exact readable.peeked

theorem step (op : Op) : ∃ l', Readable (w.step op) l' := by
  cases op with
  | append eventId sealed room => exact readable.append eventId sealed room
  | peek => exact ⟨l, readable.peek⟩
  | advance => exact readable.advance
  | reopen => exact readable.reopen

end Readable

theorem run_readable (maxBytes : Nat) (ops : List Op) : ∃ l, Readable ((World.start maxBytes).run ops) l := by
  have allowed : Transition.Allowed World.step (fun _ _ => True) (.start maxBytes) ops := .of_forall fun _ _ _ => trivial
  exact Transition.invariant (fun w => ∃ l, Readable w l)
    (fun w op readable _ => by obtain ⟨l, readable⟩ := readable; exact readable.step op)
    ⟨_, start_readable maxBytes⟩ allowed

theorem mem_boundaries (g : Seg) (offset : Nat) :
    offset ∈ boundaries g.bytes ↔ ∃ j ≤ g.recs.length, offset = g.offset j := by
  rw [boundaries, recordsIn_bytes, g.wholeEnd_bytes, List.mem_append, List.mem_singleton, ← g.offset_length]
  constructor
  · intro boundary
    rcases boundary with member | rfl
    · obtain ⟨placed, inside, rfl⟩ := List.mem_map.mp member
      obtain ⟨j, found⟩ := List.mem_iff_getElem?.mp inside
      rw [recordFormat.place_getElem?, Option.map_eq_some_iff] at found
      obtain ⟨r, record, rfl⟩ := found
      exact ⟨j, Nat.le_of_lt (List.getElem?_eq_some_iff.mp record).1, by simp [Seg.offset]⟩
    · exact ⟨_, Nat.le_refl _, rfl⟩
  · intro boundary
    obtain ⟨j, bound, rfl⟩ := boundary
    rcases Nat.lt_or_eq_of_le bound with inside | rfl
    · refine .inl (List.mem_map.mpr ⟨(g.offset j, g.recs[j]), ?_, rfl⟩)
      refine List.mem_iff_getElem?.mpr ⟨j, ?_⟩
      rw [recordFormat.place_getElem?, List.getElem?_eq_getElem inside]
      simp [Seg.offset]
    · exact .inr rfl

theorem Holds.atBoundary {s : Spool} {l : Layout} {next : Nat} (holds : Holds s l next) : s.AtBoundary := by
  obtain ⟨g, j, present, bound, offset, -⟩ := holds.cursor
  by_cases onDisk : l.lo ≤ s.cursor.seg
  · simp only [Spool.AtBoundary, file_present holds.files onDisk present]
    exact (mem_boundaries g _).mpr ⟨j, bound, offset⟩
  · simp only [Spool.AtBoundary, file_gone holds.files (Nat.not_le.mp onDisk)]
    intro k listed
    have := (mem_existing_iff holds.files k).mp listed
    omega

theorem Holds.tracked {s : Spool} {l : Layout} {next : Nat} (holds : Holds s l next) :
    Tracked (l.entries.take next) (.of s s.surviving) l 0 := by
  have bound := Resumes.next_le l holds.cursor
  have length : (l.entries.take next).length = next := by rw [List.length_take, Nat.min_eq_left bound]
  refine ⟨by rw [length]; exact holds, ?_, by simp [World.of], by simp [World.of], by simp [World.of], by simp [World.of]⟩
  change l.entries = l.entries.take next ++ s.surviving
  rw [Spool.surviving, holds.ahead, List.take_append_drop]

theorem step_appended (w : World) (op : Op) : (w.step op).appended.map Prod.snd =
    w.appended.map Prod.snd ++ ([op].filter fun op => decide op.Accepted).filterMap Op.record? := by
  cases op with
  | append eventId sealed room =>
    by_cases accepts : Accepts room (recordBytes eventId sealed)
    · have accepted : (Op.append eventId sealed room).Accepted := accepts
      simp [World.step, Spool.append, Spool.write, writeAll_accepted _ _ accepts, accepted, Op.record?]
    · cases room with
      | none => exact absurd trivial accepts
      | some free =>
        have refused : ¬ (Op.append eventId sealed (some free)).Accepted := accepts
        have exceeds : ¬ (recordBytes eventId sealed).length ≤ free := accepts
        simp [World.step, Spool.append, Spool.write, Dir.writeAll, exceeds, refused]
  | peek => simp [World.step, Op.Accepted, Op.record?]
  | advance => simp [(step_advance_frame w).1, Op.Accepted, Op.record?]
  | reopen => simp [World.step, Op.Accepted, Op.record?]

theorem run_appended (w : World) (ops : List Op) : (w.run ops).appended.map Prod.snd =
    w.appended.map Prod.snd ++ (ops.filter fun op => decide op.Accepted).filterMap Op.record? := by
  induction ops generalizing w with
  | nil => simp [World.run]
  | cons op ops ih =>
    have rest := ih (w.step op)
    rw [step_appended, List.append_assoc, ← List.filterMap_append, ← List.filter_append] at rest
    exact rest

theorem Holds.recovers {s : Spool} {l : Layout} {next : Nat} (holds : Holds s l next) : s.Recovers := by
  refine ⟨holds.atBoundary, fun ops allowed => ?_⟩
  obtain ⟨l', p, tracked⟩ := holds.tracked.run allowed
  exact ⟨tracked.drainsAll, tracked.accounted, run_appended _ ops⟩

theorem Layout.Resumes.kept {l : Layout} {c : Cursor} {next : Nat} (resumes : l.Resumes c next) {g : Seg}
    {keep : Nat} (shorter : g.recs <+: l.head.recs)
    (whole : ∀ j ≤ l.head.recs.length, l.head.offset j ≤ keep → j ≤ g.recs.length)
    (within : c.seg < l.rotated.length ∨ c.offset ≤ keep) : (l.withHead g).Resumes c next := by
  obtain ⟨seg, j, present, bound, offset, position⟩ := resumes
  have inside := l.seg_le present
  rw [l.base_rotated l.lo_le, l.base_rotated inside] at position
  by_cases older : c.seg < l.rotated.length
  · refine ⟨seg, j, ?_, bound, offset, position.trans ?_⟩
    · rw [segs, List.getElem?_append_left older] at present
      rw [segs, List.getElem?_append_left (by exact older)]
      exact present
    · rw [base_rotated _ (by exact l.lo_le), base_rotated _ (by exact inside)]
      rfl
  · have isHead : c.seg = l.rotated.length := by omega
    rw [isHead, l.segs_head] at present
    cases present
    have counted := whole j bound (by omega)
    obtain ⟨lost, same⟩ := shorter
    refine ⟨g, j, by rw [isHead]; exact (l.withHead g).segs_head, counted, ?_, position.trans ?_⟩
    · rw [offset, Seg.offset, Seg.offset, ← same, List.take_append_of_le_length counted]
    · rw [base_rotated _ (by exact l.lo_le), base_rotated _ (by exact inside)]
      rfl

theorem Layout.Persists.kept {l : Layout} {dir : Dir} {next : Nat} (persists : l.Persists dir.cursorFile next)
    {g : Seg} {keep : Nat} (shorter : g.recs <+: l.head.recs)
    (whole : ∀ j ≤ l.head.recs.length, l.head.offset j ≤ keep → j ≤ g.recs.length)
    (within : ∀ c, readCursor dir = some c → c.seg < l.rotated.length ∨ c.offset ≤ keep) :
    (l.withHead g).Persists dir.cursorFile next := by
  cases text : dir.cursorFile with
  | none =>
    rw [text] at persists
    change next = (l.withHead g).base l.lo
    rw [base_rotated _ (by exact l.lo_le)]
    exact persists.trans (l.base_rotated l.lo_le)
  | some written =>
    rw [text] at persists
    obtain ⟨c, rfl, resumes⟩ := persists
    exact ⟨c, rfl, resumes.kept shorter whole (within c (readCursor_cursorText dir c text))⟩

theorem Layout.Persists.cursor_le {l : Layout} {dir : Dir} {next : Nat} (persists : l.Persists dir.cursorFile next)
    {c : Cursor} (read : readCursor dir = some c) : c.seg ≤ l.rotated.length := by
  cases text : dir.cursorFile with
  | none => simp [readCursor, text] at read
  | some written =>
    rw [text] at persists
    obtain ⟨c', rfl, g, j, present, -⟩ := persists
    rw [readCursor_cursorText dir c' text] at read
    cases read
    exact l.seg_le present

theorem not_atBoundary {dir : Dir} {l : Layout} {c : Cursor} {keep : Nat} (maxBytes : Nat)
    (files : dir.segs = filesFrom l.lo (l.segs.drop l.lo)) (read : readCursor dir = some c)
    (isHead : c.seg = l.rotated.length) (short : l.head.bytes.length ≤ keep) (beyond : keep < c.offset) :
    ¬ (Spool.openDir maxBytes dir).AtBoundary := by
  obtain ⟨opened, -, -⟩ := openDir_files maxBytes files
  have headFile := file_present (l := l.withHead l.head.cut) opened l.lo_le (l.withHead l.head.cut).segs_head
  have cursor : (Spool.openDir maxBytes dir).cursor = c := by rw [openDir_cursor, read, Option.getD_some]
  simp only [Spool.AtBoundary, cursor, isHead]
  rw [show (Spool.openDir maxBytes dir).dir.file l.rotated.length = _ from headFile]
  intro member
  obtain ⟨j, bound, offset⟩ := (mem_boundaries _ _).mp member
  have last : c.offset ≤ l.head.size := by
    rw [offset]
    change (recordFormat.encodeAll (l.head.recs.take j)).length ≤ _
    rw [← l.head.offset_length]
    exact recordFormat.encodeAll_take_le l.head.recs bound
  rw [Seg.bytes, List.length_append] at short
  rw [Seg.size] at last
  omega

/-- After any run and any loss of the head's last bytes, the reopened spool picks up what survived
    exactly when the persisted cursor does not stand behind the bytes kept. -/
theorem reopened_recovers_iff (maxBytes : Nat) (ops : List Op) (keep : Nat) :
    let s := ((World.start maxBytes).run ops).spool
    (Spool.openDir s.maxBytes (s.crash keep)).Recovers ↔
      ∀ c, readCursor s.dir = some c → c.seg < s.headSeq ∨ c.offset ≤ keep := by
  obtain ⟨l, readable⟩ := run_readable maxBytes ops
  intro s
  obtain ⟨next, reads⟩ := readable.reads
  have holds : Holds { s with headLen := l.head.size } l next := reads
  have headSeq : s.headSeq = l.rotated.length := holds.headSeq
  have persisted : l.Persists s.dir.cursorFile next := holds.persisted
  obtain ⟨g, bytes, shorter, whole⟩ := l.head.exists_take keep
  have files : (s.crash keep).segs = filesFrom (l.withHead g).lo ((l.withHead g).segs.drop (l.withHead g).lo) := by
    rw [Spool.crash, headSeq]
    exact modify_head holds.files (·.take keep) g bytes
  constructor
  · intro recovers c read
    by_contra beyond
    rw [not_or, headSeq] at beyond
    have isHead : c.seg = (l.withHead g).rotated.length := Nat.le_antisymm (persisted.cursor_le read) (by simpa using beyond.1)
    have short : g.bytes.length ≤ keep := by rw [← bytes, List.length_take]; omega
    exact not_atBoundary s.maxBytes files read isHead short (Nat.not_le.mp beyond.2) recovers.1
  · intro within
    rw [headSeq] at within
    exact (openDir_holds s.maxBytes files (persisted.kept shorter whole within)).recovers

/-- One record, confirmed while its bytes were not on disk yet. -/
def confirmedRun : List Op := [.append "a" [1] none, .peek, .advance]

/-- The crash that keeps none of those bytes leaves the cursor behind the end of the log, and the
    record appended next lies before it. -/
theorem confirmedRun_not_recovered :
    ¬ ∀ (maxBytes : Nat) (ops : List Op), (∀ op ∈ ops, op.Sized ∧ op.Accepted) → ∀ keep,
      let s := ((World.start maxBytes).run ops).spool
      (Spool.openDir s.maxBytes (s.crash keep)).Recovers := by
  intro claim
  obtain ⟨-, drains⟩ := claim 1000 confirmedRun (by decide) 0
  have first := (drains [.append "b" [2] none] (by decide)).1 0
  revert first
  decide

end SpoolProof
