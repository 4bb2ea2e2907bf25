import AjarConnectors.Spool.Refinement

namespace SpoolProof

open SpoolModel Layout

namespace Layout

theorem Extends.refl (l : Layout) : Extends l l :=
  ⟨rfl, fun _ _ => rfl, fun _ g present => ⟨g, present, List.prefix_rfl⟩⟩

theorem Extends.trans {a b c : Layout} (first : Extends a b) (second : Extends b c) : Extends a c where
  lo := second.lo.trans first.lo
  base k inside := by
    obtain ⟨g, present⟩ := a.seg_present inside
    obtain ⟨g', present', -⟩ := first.recs k g present
    rw [second.base k (b.seg_le present'), first.base k inside]
  recs k g present := by
    obtain ⟨g', present', more⟩ := first.recs k g present
    obtain ⟨g'', present'', more'⟩ := second.recs k g' present'
    exact ⟨g'', present'', more.trans more'⟩

variable (l : Layout)

def withHead (g : Seg) : Layout := { l with head := g }

@[simp] theorem withHead_lo (g : Seg) : (l.withHead g).lo = l.lo := rfl

@[simp] theorem withHead_rotated (g : Seg) : (l.withHead g).rotated = l.rotated := rfl

@[simp] theorem withHead_head (g : Seg) : (l.withHead g).head = g := rfl

def rotate : Layout :=
  ⟨l.rotated ++ [l.head], .fresh, l.lo, by have := l.lo_le; simp; omega⟩

def start : Layout := ⟨[], .fresh, 0, by simp⟩

theorem base_rotated {k : Nat} (inside : k ≤ l.rotated.length) :
    l.base k = (entriesFrom 0 (l.rotated.take k)).length := by
  rw [base, segs, List.take_append_of_le_length inside]

theorem entries_split : l.entries = entriesFrom 0 l.rotated ++ segEntries l.rotated.length l.head := by
  rw [entries, segs, entriesFrom_append, Nat.zero_add, entriesFrom_singleton]

theorem files_split : filesFrom l.lo (l.segs.drop l.lo) =
    filesFrom l.lo (l.rotated.drop l.lo) ++ [(l.rotated.length, l.head.bytes)] := by
  have lo_le := l.lo_le
  rw [segs, List.drop_append_of_le_length lo_le, filesFrom_append, List.length_drop,
    Nat.add_sub_cancel' lo_le]
  rfl

theorem withHead_extends (g : Seg) (more : l.head.recs <+: g.recs) : Extends l (l.withHead g) where
  lo := rfl
  base k inside := ((l.withHead g).base_rotated inside).trans (l.base_rotated inside).symm
  recs k seg present := by
    by_cases isHead : k = l.rotated.length
    · subst isHead
      rw [l.segs_head] at present
      cases present
      exact ⟨g, (l.withHead g).segs_head, more⟩
    · have inside : k < l.rotated.length := by have := l.seg_le present; omega
      refine ⟨seg, ?_, List.prefix_rfl⟩
      rw [segs, List.getElem?_append_left inside] at present
      rw [segs, List.getElem?_append_left (by exact inside)]
      exact present

theorem rotate_extends : Extends l l.rotate where
  lo := rfl
  base k inside := by
    rw [base_rotated _ inside, base_rotated _ (by simp [rotate]; omega), rotate,
      List.take_append_of_le_length inside]
  recs k seg present := by
    refine ⟨seg, ?_, List.prefix_rfl⟩
    have inside := (List.getElem?_eq_some_iff.mp present).1
    change ((l.rotated ++ [l.head]) ++ [Seg.fresh])[k]? = some seg
    rw [List.getElem?_append_left (by exact inside)]
    exact present

theorem rotate_entries : l.rotate.entries = l.entries := by
  rw [entries_split]
  change entriesFrom 0 (l.rotated ++ [l.head]) ++ [] = l.entries
  rw [List.append_nil]
  rfl

theorem withHead_entries (g : Seg) (same : g.recs = l.head.recs) : (l.withHead g).entries = l.entries := by
  rw [entries_split, entries_split, segEntries, segEntries]
  change _ ++ (recordFormat.place 0 g.recs).map _ = _
  rw [same]
  rfl

def push (r : Record) (sized : r.Sized) : Layout :=
  l.withHead ⟨l.head.recs ++ [r], [], by
    intro record member
    rcases List.mem_append.mp member with member | member
    · exact l.head.sized record member
    · rw [List.mem_singleton.mp member]
      exact sized, recordFormat.read_nil⟩

theorem push_entries (r : Record) (sized : r.Sized) :
    (l.push r sized).entries = l.entries ++ [(⟨l.rotated.length, l.head.size⟩, r)] := by
  rw [entries_split, entries_split, List.append_assoc]
  congr 1
  change (recordFormat.place 0 (l.head.recs ++ [r])).map _ = _
  rw [recordFormat.place_append, List.map_append]
  simp only [segEntries, Framing.Format.place, Nat.zero_add, List.map_cons, List.map_nil, Seg.size]
  rfl

theorem push_extends (r : Record) (sized : r.Sized) : Extends l (l.push r sized) :=
  l.withHead_extends _ (List.prefix_append _ _)

end Layout

theorem insertSeg_append (seq : Nat) (front back : List (Nat × Bytes)) (below : ∀ seg ∈ front, seg.1 < seq) :
    Dir.insertSeg seq (front ++ back) = front ++ Dir.insertSeg seq back := by
  induction front with
  | nil => rfl
  | cons seg front ih =>
    have first := below seg (by simp)
    rw [List.cons_append, Dir.insertSeg, if_neg (by omega), if_neg (by omega),
      ih (fun seg member => below seg (List.mem_cons_of_mem _ member)), List.cons_append]

theorem older_below (l : Layout) : ∀ seg ∈ filesFrom l.lo (l.rotated.drop l.lo), seg.1 < l.rotated.length := by
  intro seg member
  have bound := (filesFrom_mem member).2
  have := l.lo_le
  rw [List.length_drop] at bound
  omega

theorem modify_head {dir : Dir} {l : Layout} (files : dir.segs = filesFrom l.lo (l.segs.drop l.lo))
    (change : Bytes → Bytes) (g : Seg) (becomes : change l.head.bytes = g.bytes) :
    (dir.modify l.rotated.length change).segs = filesFrom (l.withHead g).lo ((l.withHead g).segs.drop (l.withHead g).lo) := by
  rw [(l.withHead g).files_split]
  change dir.segs.map _ = filesFrom l.lo (l.rotated.drop l.lo) ++ [(l.rotated.length, g.bytes)]
  rw [files, l.files_split, List.map_append, List.map_singleton, if_pos rfl, becomes]
  congr 1
  conv_rhs => rw [← List.map_id (filesFrom l.lo (l.rotated.drop l.lo))]
  apply List.map_congr_left
  intro seg member
  have := older_below l seg member
  rw [if_neg (by omega)]
  rfl

theorem Holds.changeHead {s : Spool} {l : Layout} {next : Nat} (holds : Holds s l next)
    (change : Bytes → Bytes) (g : Seg) (becomes : change l.head.bytes = g.bytes)
    (more : l.head.recs <+: g.recs) :
    Holds { s with dir := s.dir.modify s.headSeq change, headLen := g.size } (l.withHead g) next where
  files := by
    simp only [holds.headSeq]
    exact modify_head holds.files change g becomes
  headSeq := holds.headSeq
  headLen := rfl
  cursor := (l.withHead_extends g more).resumes holds.cursor
  persisted := (l.withHead_extends g more).persists holds.persisted

theorem Holds.rotate {s : Spool} {l : Layout} {next : Nat} (holds : Holds s l next) :
    Holds s.rotate l.rotate next where
  files := by
    have below : ∀ seg ∈ filesFrom l.lo (l.segs.drop l.lo), seg.1 < l.rotated.length + 1 := by
      intro seg member
      have bound := (filesFrom_mem member).2
      have := l.lo_le
      rw [List.length_drop, l.segs_length] at bound
      omega
    have last : Dir.insertSeg (l.rotated.length + 1) [] = [(l.rotate.rotated.length, l.rotate.head.bytes)] := by
      simp [Dir.insertSeg, Layout.rotate, Seg.fresh, Seg.bytes]
    have inserted := insertSeg_append (l.rotated.length + 1) _ [] below
    rw [List.append_nil] at inserted
    rw [l.rotate.files_split]
    change Dir.insertSeg (s.headSeq + 1) s.dir.segs = filesFrom l.lo (l.segs.drop l.lo) ++ _
    rw [holds.headSeq, holds.files, inserted, last]
  headSeq := by simp [Spool.rotate, Layout.rotate, holds.headSeq]
  headLen := by simp [Spool.rotate, Layout.rotate, Seg.fresh, Seg.size]
  cursor := l.rotate_extends.resumes holds.cursor
  persisted := l.rotate_extends.persists holds.persisted

/-- An append never continues a torn record: the head it writes to ends with a whole one. -/
def Untorn (s : Spool) (l : Layout) : Prop := s.Full ∨ l.head.tail = []

theorem Holds.rotateIfFull {s : Spool} {l : Layout} {next : Nat} (holds : Holds s l next)
    (untorn : Untorn s l) :
    ∃ l', Holds s.rotateIfFull l' next ∧ l'.head.tail = [] ∧ l'.entries = l.entries ∧ Extends l l' ∧
      s.writtenAt = ⟨l'.rotated.length, l'.head.size⟩ := by
  by_cases full : s.Full
  · refine ⟨l.rotate, ?_, rfl, l.rotate_entries, l.rotate_extends, ?_⟩
    · simpa only [Spool.rotateIfFull, full, ↓reduceIte] using holds.rotate
    · simp [Spool.writtenAt, full, holds.headSeq, Layout.rotate, Seg.fresh, Seg.size]
  · refine ⟨l, ?_, untorn.resolve_left full, rfl, .refl l, ?_⟩
    · simpa only [Spool.rotateIfFull, full, ↓reduceIte] using holds
    · simp [Spool.writtenAt, full, holds.headSeq, holds.headLen]

theorem writeAll_accepted (dir : Dir) (seq : Nat) {buf : Bytes} {room : Option Nat} (accepts : Accepts room buf) :
    dir.writeAll seq buf room = (dir.modify seq (· ++ buf), .ok ()) := by
  cases room with
  | none => rfl
  | some free =>
    have whole : buf.length ≤ free := accepts
    simp only [Dir.writeAll, if_pos whole]

theorem Holds.write {s : Spool} {l : Layout} {next : Nat} (holds : Holds s l next) (r : Record)
    (sized : r.Sized) (untorn : Untorn s l) {room : Option Nat} (accepts : Accepts room r.bytes) :
    ∃ s' l', s.write r.eventId r.sealed room = (s', .ok ()) ∧ Holds s' l' next ∧
      l'.entries = l.entries ++ [(s.writtenAt, r)] ∧ Extends l l' ∧ l'.head.tail = [] ∧
      s.writtenAt.seg = l'.rotated.length := by
  obtain ⟨l₁, opened, clean, entries, ext, place⟩ := holds.rotateIfFull untorn
  have bytes : l₁.head.bytes ++ r.bytes = (l₁.push r sized).head.bytes := by
    simp [Layout.push, Layout.withHead, Seg.bytes, clean, recordFormat.encodeAll_append]
    rfl
  have size : s.rotateIfFull.headLen + r.bytes.length = (l₁.push r sized).head.size := by
    rw [opened.headLen]
    simp [Layout.push, Layout.withHead, Seg.size, recordFormat.encodeAll_append]
    rfl
  have written := opened.changeHead (· ++ r.bytes) _ bytes (List.prefix_append _ _)
  rw [← size] at written
  refine ⟨_, l₁.push r sized, ?_, written, ?_, ext.trans (l₁.push_extends r sized), rfl,
    congrArg Cursor.seg place⟩
  · rw [Spool.write, writeAll_accepted _ _ (show Accepts room (recordBytes r.eventId r.sealed) from accepts)]
    rfl
  · rw [l₁.push_entries, entries, place]

theorem write_frame (s : Spool) (eventId : String) (sealed : Bytes) (room : Option Nat) :
    (s.write eventId sealed room).1.maxBytes = s.maxBytes ∧ (s.write eventId sealed room).1.cursor = s.cursor := by
  have rotated : s.rotateIfFull.maxBytes = s.maxBytes ∧ s.rotateIfFull.cursor = s.cursor := by
    unfold Spool.rotateIfFull
    split <;> exact ⟨rfl, rfl⟩
  unfold Spool.write
  dsimp only
  split <;> exact rotated

theorem Holds.write_torn {s : Spool} {l : Layout} {next : Nat} (holds : Holds s l next) (r : Record)
    (sized : r.Sized) (untorn : Untorn s l) {free : Nat} (short : free < r.bytes.length) :
    ∃ s' l', s.write r.eventId r.sealed (some free) = (s', .error .storageFull) ∧ Holds s' l' next ∧
      l'.entries = l.entries ∧ l'.lo = l.lo := by
  obtain ⟨l₁, opened, clean, entries, ext, -⟩ := holds.rotateIfFull untorn
  have unread : recordFormat.read (r.bytes.take free) = none :=
    recordFormat.read_torn r sized (List.take_prefix _ _) (by simp only [List.length_take]; exact Nat.lt_of_le_of_lt (Nat.min_le_left _ _) short)
  let torn : Seg := { l₁.head with tail := r.bytes.take free, unread := unread }
  have bytes : l₁.head.bytes ++ r.bytes.take free = torn.bytes := by
    simp [torn, Seg.bytes, clean]
  have written := opened.changeHead (· ++ r.bytes.take free) torn bytes List.prefix_rfl
  have size : torn.size = s.rotateIfFull.headLen := opened.headLen.symm
  rw [size] at written
  refine ⟨_, l₁.withHead torn, ?_, written, ?_, ext.lo⟩
  · have exceeds : ¬ (recordBytes r.eventId r.sealed).length ≤ free := Nat.not_le.mpr short
    simp only [Spool.write, Dir.writeAll, if_neg exceeds]
    rfl
  · rw [l₁.withHead_entries torn rfl, entries]

theorem Holds.dropOldest {s : Spool} {l : Layout} {next : Nat} (holds : Holds s l next)
    (several : l.lo < l.rotated.length) :
    Holds (s.dropOldest l.lo) (l.since (l.lo + 1) several) (max (l.base (l.lo + 1)) next) where
  files := by
    change s.dir.segs.filter _ = filesFrom (l.lo + 1) (l.segs.drop (l.lo + 1))
    rw [← filesFrom_filter l.segs (Nat.le_succ l.lo) (by rw [l.segs_length]; omega), holds.files]
    apply List.filter_congr
    intro seg member
    have := (filesFrom_mem member).1
    simp only [decide_eq_decide]
    omega
  headSeq := holds.headSeq
  headLen := holds.headLen
  cursor := by
    obtain ⟨g, j, present, bound, offset, position⟩ := holds.cursor
    by_cases behind : s.cursor.seg ≤ l.lo
    · obtain ⟨g', after⟩ := l.seg_present several
      have mono := l.base_mono (show s.cursor.seg + 1 ≤ l.lo + 1 by omega)
      have mono' := l.base_mono (show l.lo ≤ l.lo + 1 by omega)
      have succ := l.base_succ present
      simp only [Spool.dropOldest, if_pos behind]
      refine ⟨g', 0, after, by omega, by simp [Seg.offset], ?_⟩
      change max (l.base (l.lo + 1)) next = max (l.base (l.lo + 1)) (l.base (l.lo + 1) + 0)
      omega
    · simp only [Spool.dropOldest, if_neg behind]
      exact Resumes.since l several (Nat.le_succ _) holds.cursor
  persisted := Persists.since l several (Nat.le_succ _) holds.persisted

theorem Holds.enforceBoundLoop {s : Spool} {l : Layout} {next : Nat} (holds : Holds s l next) (fuel : Nat)
    (dropped : Bool) :
    ∃ k inside, l.lo ≤ k ∧ Holds (Spool.enforceBoundLoop fuel s dropped).1 (l.since k inside) (max (l.base k) next) ∧
      (Spool.enforceBoundLoop fuel s dropped).2 = (dropped || decide (l.lo < k)) := by
  induction fuel generalizing s l next dropped with
  | zero =>
    refine ⟨l.lo, l.lo_le, Nat.le_refl _, ?_, by simp [Spool.enforceBoundLoop]⟩
    rw [Nat.max_eq_right holds.floor_le]
    exact holds
  | succ fuel ih =>
    have existing := existing_of_files holds.files
    have lo_le := l.lo_le
    simp only [Spool.enforceBoundLoop]
    split
    · refine ⟨l.lo, l.lo_le, Nat.le_refl _, ?_, by simp⟩
      rw [Nat.max_eq_right holds.floor_le]
      exact holds
    · rename_i exceeds
      rw [existing, List.length_range'] at exceeds
      have several : l.lo < l.rotated.length := by omega
      rw [existing_head? holds.files]
      obtain ⟨k, inside, le, final, flag⟩ := ih (holds.dropOldest several) true
      have after : l.lo < k := le
      have mono := l.base_mono (show l.lo + 1 ≤ k from le)
      have same : max (l.base k) (max (l.base (l.lo + 1)) next) = max (l.base k) next := by omega
      refine ⟨k, inside, Nat.le_of_lt after, ?_, by rw [flag]; simp [after]⟩
      rw [← same]
      exact final

theorem enforceBound_within {s : Spool} (within : s.dir.total ≤ s.maxBytes) : s.enforceBound = (s, false) := by
  unfold Spool.enforceBound
  cases (existingSegments s.dir).length with
  | zero => rfl
  | succ fuel => simp only [Spool.enforceBoundLoop, within, true_or, ↓reduceIte]

theorem Holds.append {s : Spool} {l : Layout} {next : Nat} (holds : Holds s l next) (r : Record)
    (sized : r.Sized) (untorn : Untorn s l) {room : Option Nat} (accepts : Accepts room r.bytes) :
    ∃ s' l', s.append r.eventId r.sealed room = (s', .ok (decide (l.lo < l'.lo))) ∧
      Holds s' l' (max (l'.base l'.lo) next) ∧ l'.entries = l.entries ++ [(s.writtenAt, r)] ∧
      l.lo ≤ l'.lo ∧ l.rotated.length ≤ l'.rotated.length ∧ l'.head.tail = [] ∧
      s.writtenAt.seg = l'.rotated.length := by
  obtain ⟨s₁, l₁, written, holds₁, entries, ext, clean, place⟩ := holds.write r sized untorn accepts
  obtain ⟨k, inside, le, final, flag⟩ := holds₁.enforceBoundLoop (existingSegments s₁.dir).length false
  rw [ext.lo] at le flag
  rw [Bool.false_or] at flag
  have kept : l.rotated.length ≤ l₁.rotated.length := by
    obtain ⟨g, present, -⟩ := ext.recs _ _ l.segs_head
    exact l₁.seg_le present
  refine ⟨_, l₁.since k inside, ?_, final, entries, le, kept, clean, place⟩
  simp only [Spool.append, written]
  congr 2

theorem Holds.append_torn {s : Spool} {l : Layout} {next : Nat} (holds : Holds s l next) (r : Record)
    (sized : r.Sized) (untorn : Untorn s l) {free : Nat} (short : free < r.bytes.length) :
    ∃ s' l', s.append r.eventId r.sealed (some free) = (s', .error .storageFull) ∧ Holds s' l' next ∧
      l'.entries = l.entries ∧ l'.lo = l.lo := by
  obtain ⟨s₁, l₁, written, holds₁, entries, lo⟩ := holds.write_torn r sized untorn short
  refine ⟨s₁, l₁, ?_, holds₁, entries, lo⟩
  simp only [Spool.append, written]

theorem truncateTornTail_head {dir : Dir} {l : Layout} (files : dir.segs = filesFrom l.lo (l.segs.drop l.lo)) :
    (truncateTornTail dir l.rotated.length).segs =
      filesFrom l.lo ((l.withHead l.head.cut).segs.drop l.lo) ∧
    (truncateTornTail dir l.rotated.length).cursorFile = dir.cursorFile := by
  have file := file_present files l.lo_le l.segs_head
  simp only [truncateTornTail, file, l.head.wholeEnd_bytes]
  split
  · exact ⟨modify_head files (·.take l.head.size) l.head.cut l.head.cut_bytes.symm, rfl⟩
  · rename_i whole
    have untouched : l.head.cut.bytes = l.head.bytes := by
      rw [l.head.cut_bytes, List.take_of_length_le (by omega)]
    refine ⟨?_, rfl⟩
    have split := (l.withHead l.head.cut).files_split
    change filesFrom l.lo ((l.withHead l.head.cut).segs.drop l.lo) =
      filesFrom l.lo (l.rotated.drop l.lo) ++ [(l.rotated.length, l.head.cut.bytes)] at split
    rw [files, l.files_split, split, untouched]

theorem create_head {dir : Dir} {l : Layout} (files : dir.segs = filesFrom l.lo (l.segs.drop l.lo)) :
    (dir.create l.rotated.length).segs = dir.segs := by
  change Dir.insertSeg _ _ = _
  rw [files, l.files_split, insertSeg_append _ _ _ (older_below l)]
  simp [Dir.insertSeg]

theorem openDir_files {dir : Dir} {l : Layout} (maxBytes : Nat)
    (files : dir.segs = filesFrom l.lo (l.segs.drop l.lo)) :
    (Spool.openDir maxBytes dir).dir.segs = filesFrom l.lo ((l.withHead l.head.cut).segs.drop l.lo) ∧
    (Spool.openDir maxBytes dir).dir.cursorFile = dir.cursorFile ∧
    (Spool.openDir maxBytes dir).headSeq = l.rotated.length := by
  obtain ⟨truncated, cursorFile⟩ := truncateTornTail_head files
  simp only [Spool.openDir, existing_getLast? files, Option.getD_some]
  exact ⟨(create_head (l := l.withHead l.head.cut) truncated).trans truncated, cursorFile, trivial⟩

theorem openDir_cursor (maxBytes : Nat) (dir : Dir) :
    (Spool.openDir maxBytes dir).cursor = (readCursor dir).getD ⟨(existingSegments dir).head?.getD 0, 0⟩ := rfl

theorem openDir_holds {dir : Dir} {l : Layout} {next : Nat} (maxBytes : Nat)
    (files : dir.segs = filesFrom l.lo (l.segs.drop l.lo)) (persisted : l.Persists dir.cursorFile next) :
    Holds (Spool.openDir maxBytes dir) (l.withHead l.head.cut) next := by
  have ext := l.withHead_extends l.head.cut List.prefix_rfl
  obtain ⟨opened, cursorFile, headSeq⟩ := openDir_files maxBytes files
  have headFile := file_present (l := l.withHead l.head.cut) opened l.lo_le (l.withHead l.head.cut).segs_head
  rw [← headSeq] at headFile
  refine ⟨opened, headSeq, ?_, ext.resumes ?_, ext.persists (by rw [cursorFile]; exact persisted)⟩
  · have length : (Spool.openDir maxBytes dir).headLen =
        (((Spool.openDir maxBytes dir).dir.file (Spool.openDir maxBytes dir).headSeq).getD []).length := rfl
    rw [length, headFile]
    simp [Seg.bytes, Seg.size, Seg.cut]
  · rw [openDir_cursor]
    cases text : dir.cursorFile with
    | none =>
      rw [text] at persisted
      have start : readCursor dir = none := by simp [readCursor, text]
      obtain ⟨g, present⟩ := l.seg_present l.lo_le
      rw [start, existing_head? files]
      exact ⟨g, 0, present, by omega, by simp [Seg.offset], by simpa [Layout.Persists] using persisted⟩
    | some written =>
      rw [text] at persisted
      obtain ⟨c, rfl, resumes⟩ := persisted
      rw [readCursor_cursorText dir c text]
      exact resumes

theorem Holds.reopen {s : Spool} {l : Layout} {next : Nat} (holds : Holds s l next) (maxBytes : Nat) :
    Holds (Spool.openDir maxBytes s.dir) (l.withHead l.head.cut) next :=
  openDir_holds maxBytes holds.files holds.persisted

theorem start_holds (maxBytes : Nat) : Holds (Spool.openDir maxBytes .empty) .start 0 := by
  refine ⟨by simp [Spool.openDir, Dir.empty, Dir.create, existingSegments, Dir.insertSeg, filesFrom, Layout.start, Layout.segs, Seg.fresh, Seg.bytes], rfl, rfl, ?_, rfl⟩
  exact ⟨.fresh, 0, rfl, by simp, rfl, rfl⟩

end SpoolProof
