import AjarConnectors.Spool.Layout

namespace SpoolProof

open SpoolModel

namespace Layout

/-- Draining from `c` delivers entry `next` first: `c` stands at a record boundary, and records of
    segments no longer on disk are skipped. -/
def Resumes (l : Layout) (c : Cursor) (next : Nat) : Prop :=
  ∃ g j, l.segs[c.seg]? = some g ∧ j ≤ g.recs.length ∧ c.offset = g.offset j ∧
    next = max (l.base l.lo) (l.base c.seg + j)

def Persists (l : Layout) (cursorFile : Option String) (next : Nat) : Prop :=
  match cursorFile with
  | none => next = l.base l.lo
  | some text => ∃ c, text = cursorText c ∧ l.Resumes c next

end Layout

/-- The spool's state represents a layout whose entry `next` is the next to drain. -/
structure Holds (s : Spool) (l : Layout) (next : Nat) : Prop where
  files : s.dir.segs = filesFrom l.lo (l.segs.drop l.lo)
  headSeq : s.headSeq = l.rotated.length
  headLen : s.headLen = l.head.size
  cursor : l.Resumes s.cursor next
  persisted : l.Persists s.dir.cursorFile next

theorem file_gone {dir : Dir} {l : Layout} (files : dir.segs = filesFrom l.lo (l.segs.drop l.lo))
    {k : Nat} (gone : k < l.lo) : dir.file k = none := by
  rw [Dir.file, files, filesFrom_lookup, if_pos gone]

theorem file_present {dir : Dir} {l : Layout} (files : dir.segs = filesFrom l.lo (l.segs.drop l.lo))
    {k : Nat} {g : Seg} (onDisk : l.lo ≤ k) (present : l.segs[k]? = some g) : dir.file k = some g.bytes := by
  rw [Dir.file, files, filesFrom_lookup, if_neg (Nat.not_lt.mpr onDisk), List.getElem?_drop,
    Nat.add_sub_cancel' onDisk, present, Option.map_some]

theorem existing_of_files {dir : Dir} {l : Layout} (files : dir.segs = filesFrom l.lo (l.segs.drop l.lo)) :
    existingSegments dir = List.range' l.lo (l.rotated.length + 1 - l.lo) := by
  rw [existingSegments, files, filesFrom_map_fst, List.length_drop, l.segs_length]

theorem existing_getLast? {dir : Dir} {l : Layout} (files : dir.segs = filesFrom l.lo (l.segs.drop l.lo)) :
    (existingSegments dir).getLast? = some l.rotated.length := by
  have lo_le := l.lo_le
  rw [existing_of_files files, show l.rotated.length + 1 - l.lo = (l.rotated.length - l.lo) + 1 by omega,
    List.range'_concat, List.getLast?_append]
  simp
  omega

theorem existing_head? {dir : Dir} {l : Layout} (files : dir.segs = filesFrom l.lo (l.segs.drop l.lo)) :
    (existingSegments dir).head?.getD 0 = l.lo := by
  have lo_le := l.lo_le
  rw [existing_of_files files, show l.rotated.length + 1 - l.lo = (l.rotated.length - l.lo) + 1 by omega,
    List.range'_succ]
  rfl

theorem mem_existing_iff {dir : Dir} {l : Layout} (files : dir.segs = filesFrom l.lo (l.segs.drop l.lo))
    (k : Nat) : k ∈ existingSegments dir ↔ l.lo ≤ k ∧ k ≤ l.rotated.length := by
  have := l.lo_le
  rw [existing_of_files files, List.mem_range'_1]
  omega

namespace Layout

variable (l : Layout)

theorem seg_present {k : Nat} (inside : k ≤ l.rotated.length) : ∃ g, l.segs[k]? = some g :=
  ⟨_, List.getElem?_eq_getElem (by rw [l.segs_length]; omega)⟩

theorem seg_le {k : Nat} {g : Seg} (present : l.segs[k]? = some g) : k ≤ l.rotated.length := by
  have := (List.getElem?_eq_some_iff.mp present).1
  rw [l.segs_length] at this
  omega

theorem Resumes.next_le {c : Cursor} {next : Nat} (resumes : l.Resumes c next) : next ≤ l.entries.length := by
  obtain ⟨g, j, present, bound, -, rfl⟩ := resumes
  have last := l.base_succ present
  have := l.base_mono (l.seg_le present)
  have total := l.base_all (k := l.rotated.length + 1) (by rw [l.segs_length])
  have := l.base_mono (show c.seg + 1 ≤ l.rotated.length + 1 by have := l.seg_le present; omega)
  have := l.base_mono (show l.lo ≤ l.rotated.length + 1 by have := l.lo_le; omega)
  omega

theorem Resumes.skip {c : Cursor} {next : Nat} {g : Seg} {j : Nat} (present : l.segs[c.seg]? = some g)
    (inside : c.seg < l.rotated.length) (exhausted : c.seg < l.lo ∨ j = g.recs.length) (bound : j ≤ g.recs.length)
    (position : next = max (l.base l.lo) (l.base c.seg + j)) : l.Resumes ⟨c.seg + 1, 0⟩ next := by
  obtain ⟨g', after⟩ := l.seg_present inside
  refine ⟨g', 0, after, by omega, by simp [Seg.offset], ?_⟩
  have succ := l.base_succ present
  rcases exhausted with before | all
  · have := l.base_mono (show c.seg + 1 ≤ l.lo from before)
    change next = max _ (l.base (c.seg + 1) + 0)
    omega
  · change next = max _ (l.base (c.seg + 1) + 0)
    omega

/-- `peek` finds entry `next` and leaves the cursor on it, or finds nothing when all is drained. -/
theorem Resumes.peekLoop {dir : Dir} (files : dir.segs = filesFrom l.lo (l.segs.drop l.lo)) {next : Nat}
    (fuel : Nat) (c : Cursor) (resumes : l.Resumes c next) (enough : l.rotated.length - c.seg < fuel) :
    ∃ c', Spool.peekLoop dir l.rotated.length fuel c = (c', l.entries[next]?) ∧ l.Resumes c' next ∧
      ∀ e, l.entries[next]? = some e → c' = e.1 := by
  induction fuel generalizing c with
  | zero => omega
  | succ fuel ih =>
    obtain ⟨g, j, present, bound, offset, position⟩ := resumes
    by_cases before : c.seg < l.lo
    · -- A dropped segment does not open.
      have lo_le := l.lo_le
      have inside : c.seg < l.rotated.length := by omega
      simp only [Spool.peekLoop, file_gone files before, readRecordAt, if_pos inside]
      exact ih _ (Resumes.skip l present inside (.inl before) bound position) (by simp only; omega)
    · have file := file_present files (Nat.not_lt.mp before) present
      by_cases more : j < g.recs.length
      · have record : g.recs[j]? = some g.recs[j] := List.getElem?_eq_getElem more
        have entry := l.entries_getElem? present record
        have mono := l.base_mono (show l.lo ≤ c.seg by omega)
        have here : next = l.base c.seg + j := by omega
        rw [← here, ← offset] at entry
        refine ⟨c, ?_, ⟨g, j, present, bound, offset, position⟩, ?_⟩
        · simp only [Spool.peekLoop, file, readRecordAt_eq_readAt, offset, g.readAt_offset j _ record, entry]
          rw [← offset]
        · intro e found
          rw [entry] at found
          cases found
          rfl
      · have all : j = g.recs.length := by omega
        have atEnd : c.offset = g.size := by rw [offset, all, g.offset_length]
        simp only [Spool.peekLoop, file, readRecordAt_eq_readAt, atEnd, g.readAt_size]
        by_cases inside : c.seg < l.rotated.length
        · rw [if_pos inside]
          exact ih _ (Resumes.skip l present inside (.inr all) bound position) (by simp only; omega)
        · rw [if_neg inside]
          have last : c.seg = l.rotated.length := by have := l.seg_le present; omega
          have drained : l.entries[next]? = none := by
            rw [List.getElem?_eq_none_iff, ← l.base_all (k := c.seg + 1) (by rw [l.segs_length, last]),
              l.base_succ present]
            omega
          rw [drained]
          exact ⟨c, rfl, ⟨g, j, present, bound, offset, position⟩, by simp⟩

structure Extends (l l' : Layout) : Prop where
  lo : l'.lo = l.lo
  base : ∀ k ≤ l.rotated.length, l'.base k = l.base k
  recs : ∀ (k : Nat) (g : Seg), l.segs[k]? = some g → ∃ g', l'.segs[k]? = some g' ∧ g.recs <+: g'.recs

theorem Extends.resumes {l l' : Layout} (ext : Extends l l') {c : Cursor} {next : Nat}
    (resumes : l.Resumes c next) : l'.Resumes c next := by
  obtain ⟨g, j, present, bound, offset, position⟩ := resumes
  obtain ⟨g', present', more⟩ := ext.recs _ _ present
  have length := more.length_le
  obtain ⟨added, same⟩ := more
  refine ⟨g', j, present', by omega, ?_, ?_⟩
  · rw [offset, Seg.offset, Seg.offset, ← same, List.take_append_of_le_length bound]
  · rw [ext.lo, ext.base _ l.lo_le, ext.base _ (l.seg_le present), position]

theorem Extends.persists {l l' : Layout} (ext : Extends l l') {cursorFile : Option String} {next : Nat}
    (persists : l.Persists cursorFile next) : l'.Persists cursorFile next := by
  cases cursorFile with
  | none =>
    change next = l'.base l'.lo
    rw [ext.lo, ext.base _ l.lo_le]
    exact persists
  | some text =>
    obtain ⟨c, same, resumes⟩ := persists
    exact ⟨c, same, ext.resumes resumes⟩

def since (k : Nat) (inside : k ≤ l.rotated.length) : Layout := { l with lo := k, lo_le := inside }

theorem Resumes.since {c : Cursor} {next k : Nat} (inside : k ≤ l.rotated.length) (le : l.lo ≤ k)
    (resumes : l.Resumes c next) : (l.since k inside).Resumes c (max (l.base k) next) := by
  obtain ⟨g, j, present, bound, offset, position⟩ := resumes
  refine ⟨g, j, present, bound, offset, ?_⟩
  have mono := l.base_mono le
  change max (l.base k) next = max (l.base k) (l.base c.seg + j)
  omega

theorem Persists.since {cursorFile : Option String} {next k : Nat} (inside : k ≤ l.rotated.length)
    (le : l.lo ≤ k) (persists : l.Persists cursorFile next) :
    (l.since k inside).Persists cursorFile (max (l.base k) next) := by
  cases cursorFile with
  | none =>
    have here : next = l.base l.lo := persists
    have mono := l.base_mono le
    change max (l.base k) next = l.base k
    omega
  | some text =>
    obtain ⟨c, same, resumes⟩ := persists
    exact ⟨c, same, Resumes.since l inside le resumes⟩

theorem filesFrom_filter (segs : List Seg) {j k : Nat} (le : j ≤ k) (inside : k ≤ segs.length) :
    (filesFrom j (segs.drop j)).filter (fun file => decide (k ≤ file.1)) = filesFrom k (segs.drop k) := by
  have split : segs.drop j = (segs.drop j).take (k - j) ++ segs.drop k := by
    conv_lhs => rw [← List.take_append_drop (k - j) (segs.drop j)]
    rw [List.drop_drop, Nat.add_sub_cancel' le]
  have length : ((segs.drop j).take (k - j)).length = k - j := by simp; omega
  rw [split, filesFrom_append, length, Nat.add_sub_cancel' le, List.filter_append]
  have gone : (filesFrom j ((segs.drop j).take (k - j))).filter (fun file => decide (k ≤ file.1)) = [] := by
    rw [List.filter_eq_nil_iff]
    intro file member
    have := filesFrom_mem member
    simp only [decide_eq_true_eq]
    omega
  rw [gone, List.nil_append, List.filter_eq_self]
  intro file member
  simpa using (filesFrom_mem member).1

end Layout

open Layout

theorem Holds.floor_le {s : Spool} {l : Layout} {next : Nat} (holds : Holds s l next) : l.base l.lo ≤ next := by
  obtain ⟨g, j, -, -, -, position⟩ := holds.cursor
  omega

theorem Holds.peek {s : Spool} {l : Layout} {next : Nat} (holds : Holds s l next) :
    ∃ s', s.peek = (s', l.entries[next]?) ∧ Holds s' l next ∧
      (∃ c, s' = { s with cursor := c }) ∧ ∀ e, l.entries[next]? = some e → s'.cursor = e.1 := by
  obtain ⟨c', found, resumes, moved⟩ := Resumes.peekLoop l holds.files (s.headSeq - s.cursor.seg + 1)
    s.cursor holds.cursor (by rw [holds.headSeq]; omega)
  refine ⟨{ s with cursor := c' }, ?_, ⟨holds.files, holds.headSeq, holds.headLen, resumes, holds.persisted⟩,
    ⟨c', rfl⟩, moved⟩
  rw [← holds.headSeq] at found
  simp only [Spool.peek, found]

theorem Holds.advance_gone {s : Spool} {l : Layout} {next : Nat} (holds : Holds s l next) {c : Cursor}
    (gone : c.seg < l.lo) : s.advance c = (s, .error (.reReading .notFound)) := by
  simp only [Spool.advance, file_gone holds.files gone, readRecordAt]

theorem Holds.advance {s : Spool} {l : Layout} {next i : Nat} {e : Entry} (holds : Holds s l next)
    (found : l.entries[i]? = some e) (onDisk : l.lo ≤ e.1.seg) :
    ∃ s' inside, s.advance e.1 = (s', .ok ()) ∧ Holds s' (l.since e.1.seg inside) (i + 1) ∧
      s'.cursor = ⟨e.1.seg, e.1.offset + e.2.bytes.length⟩ := by
  obtain ⟨g, j, present, record, offset, index⟩ := l.entries_getElem?_inv found
  have inside := l.seg_le present
  have file := file_present holds.files onDisk present
  have counted := (List.getElem?_eq_some_iff.mp record).1
  have resumes : (l.since e.1.seg inside).Resumes ⟨e.1.seg, g.offset (j + 1)⟩ (i + 1) := by
    refine ⟨g, j + 1, present, by omega, rfl, ?_⟩
    change i + 1 = max (l.base e.1.seg) (l.base e.1.seg + (j + 1))
    omega
  refine ⟨s.moveTo ⟨e.1.seg, g.offset (j + 1)⟩, inside, ?_, ⟨?_, holds.headSeq, holds.headLen, resumes, ?_⟩,
    ?_⟩
  · simp only [Spool.advance, file, readRecordAt_eq_readAt, offset, g.readAt_offset j _ record]
  · rw [Spool.moveTo, removeBehind_segs]
    change s.dir.segs.filter _ = _
    rw [holds.files]
    exact filesFrom_filter l.segs onDisk (by rw [l.segs_length]; exact Nat.le_succ_of_le inside)
  · rw [Spool.moveTo, removeAll_cursorFile]
    exact ⟨_, rfl, resumes⟩
  · rw [offset, ← g.offset_succ j e.2 record]
    rfl

end SpoolProof

namespace SpoolProof

open SpoolModel Layout

theorem recordsIn_eq_walk (data : Bytes) (fuel offset : Nat) :
    recordsIn data fuel offset = (recordFormat.walk data fuel offset).1 := by
  induction fuel generalizing offset with
  | zero => rfl
  | succ fuel ih =>
    simp only [recordsIn, Framing.Format.walk, readRecord_eq_readAt]
    cases recordFormat.readAt data offset with
    | none => rfl
    | some found => simp only [ih]

theorem recordsIn_bytes (g : Seg) : recordsIn g.bytes (g.bytes.length + 1) 0 = recordFormat.place 0 g.recs := by
  have count := recordFormat.length_le_encodeAll g.recs g.sized
  rw [recordsIn_eq_walk, g.walk_bytes _ (by simp only [Seg.bytes, List.length_append]; omega)]

theorem flatMap_filesFrom (k : Nat) (segs : List Seg) :
    (filesFrom k segs).flatMap (fun seg =>
      (recordsIn seg.2 (seg.2.length + 1) 0).map fun found => ((⟨seg.1, found.1⟩, found.2) : Entry)) =
      entriesFrom k segs := by
  induction segs generalizing k with
  | nil => rfl
  | cons g segs ih =>
    rw [filesFrom, List.flatMap_cons, ih, recordsIn_bytes, entriesFrom, segEntries]

theorem onDisk_eq {dir : Dir} {l : Layout} (files : dir.segs = filesFrom l.lo (l.segs.drop l.lo)) :
    onDisk dir = l.entries.drop (l.base l.lo) := by
  have length : (l.segs.take l.lo).length = l.lo := by
    have := l.lo_le
    rw [List.length_take, l.segs_length]
    omega
  have split : l.entries = entriesFrom 0 (l.segs.take l.lo) ++ entriesFrom l.lo (l.segs.drop l.lo) := by
    conv_lhs => rw [entries, ← List.take_append_drop l.lo l.segs]
    rw [entriesFrom_append, length, Nat.zero_add]
  rw [onDisk, files, flatMap_filesFrom, split, base, List.drop_left]

theorem Layout.Resumes.le_iff {l : Layout} {c : Cursor} {next i : Nat} {e : Entry} (resumes : l.Resumes c next)
    (found : l.entries[i]? = some e) (onDisk : l.base l.lo ≤ i) : c ≤ e.1 ↔ next ≤ i := by
  obtain ⟨g, j, present, bound, offset, rfl⟩ := resumes
  obtain ⟨g', j', present', record, offset', rfl⟩ := l.entries_getElem?_inv found
  have inside := (List.getElem?_eq_some_iff.mp record).1
  change (c.seg < e.1.seg ∨ c.seg = e.1.seg ∧ c.offset ≤ e.1.offset) ↔ _
  rcases Nat.lt_trichotomy c.seg e.1.seg with lt | eq | gt
  · have succ := l.base_succ present
    have mono := l.base_mono (show c.seg + 1 ≤ e.1.seg from lt)
    omega
  · rw [eq, present'] at present
    cases present
    have order : c.offset ≤ e.1.offset ↔ j ≤ j' := by
      rw [offset, offset']
      constructor
      · intro le
        by_contra gt
        have := recordFormat.encodeAll_take_lt g.recs g.sized (Nat.not_le.mp gt) bound
        exact absurd le (Nat.not_le.mpr this)
      · exact recordFormat.encodeAll_take_le g.recs
    rw [order, eq]
    omega
  · have succ := l.base_succ present'
    have mono := l.base_mono (show e.1.seg + 1 ≤ c.seg from gt)
    omega

theorem filter_eq_drop {α : Type} (xs : List α) (n : Nat) (p : α → Bool)
    (from_n : ∀ (i : Nat) (x : α), xs[i]? = some x → (p x = true ↔ n ≤ i)) : xs.filter p = xs.drop n := by
  conv_lhs => rw [← List.take_append_drop n xs]
  rw [List.filter_append]
  have front : (xs.take n).filter p = [] := by
    rw [List.filter_eq_nil_iff]
    intro x member
    obtain ⟨i, found⟩ := List.mem_iff_getElem?.mp member
    rw [List.getElem?_take] at found
    split at found
    · rw [from_n i x found]
      omega
    · cases found
  rw [front, List.nil_append, List.filter_eq_self]
  intro x member
  obtain ⟨i, found⟩ := List.mem_iff_getElem?.mp member
  rw [List.getElem?_drop] at found
  exact (from_n _ x found).mpr (by omega)

theorem Holds.ahead {s : Spool} {l : Layout} {next : Nat} (holds : Holds s l next) :
    (onDisk s.dir).filter (fun e => decide (s.cursor ≤ e.1)) = l.entries.drop next := by
  have floor := holds.floor_le
  rw [onDisk_eq holds.files, filter_eq_drop _ (next - l.base l.lo), List.drop_drop, Nat.add_sub_cancel' floor]
  intro i e found
  rw [List.getElem?_drop] at found
  rw [decide_eq_true_eq, holds.cursor.le_iff found (by omega)]
  omega

end SpoolProof
