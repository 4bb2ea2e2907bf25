import AjarConnectors.Spool.Operations

namespace SpoolProof

open SpoolModel

/-- Everything ever written to one segment: whole records, then bytes that read as no record. -/
structure Seg where
  recs : List Record
  tail : Bytes
  sized : ∀ r ∈ recs, r.Sized
  unread : recordFormat.read tail = none

namespace Seg

def fresh : Seg := ⟨[], [], by simp, recordFormat.read_nil⟩

def offset (g : Seg) (j : Nat) : Nat := (recordFormat.encodeAll (g.recs.take j)).length

def size (g : Seg) : Nat := (recordFormat.encodeAll g.recs).length

def bytes (g : Seg) : Bytes := recordFormat.encodeAll g.recs ++ g.tail

theorem offset_length (g : Seg) : g.offset g.recs.length = g.size := by
  rw [offset, List.take_length, size]

theorem encode_take_succ (g : Seg) (j : Nat) (r : Record) (at_j : g.recs[j]? = some r) :
    recordFormat.encodeAll (g.recs.take (j + 1)) = recordFormat.encodeAll (g.recs.take j) ++ r.bytes := by
  obtain ⟨inside, same⟩ := List.getElem?_eq_some_iff.mp at_j
  rw [← List.take_append_getElem inside, same, recordFormat.encodeAll_append]
  simp
  rfl

theorem offset_succ (g : Seg) (j : Nat) (r : Record) (at_j : g.recs[j]? = some r) :
    g.offset (j + 1) = g.offset j + r.bytes.length := by
  rw [offset, g.encode_take_succ j r at_j, List.length_append, offset]

theorem readAt_offset (g : Seg) (j : Nat) (r : Record) (at_j : g.recs[j]? = some r) :
    recordFormat.readAt g.bytes (g.offset j) = some (r, g.offset (j + 1)) := by
  have split : g.bytes = recordFormat.encodeAll (g.recs.take j) ++
      (recordFormat.encode r ++ (recordFormat.encodeAll (g.recs.drop (j + 1)) ++ g.tail)) := by
    conv_lhs => rw [bytes, ← List.take_append_drop (j + 1) g.recs, recordFormat.encodeAll_append,
      g.encode_take_succ j r at_j]
    simp only [List.append_assoc]
    rfl
  have sized : r.Sized := g.sized r (List.mem_of_getElem? at_j)
  rw [split, offset, recordFormat.readAt_append _ _ _ sized, g.offset_succ j r at_j]
  rfl

theorem readAt_size (g : Seg) : recordFormat.readAt g.bytes g.size = none :=
  recordFormat.readAt_end _ _ g.unread

theorem walk_bytes (g : Seg) (fuel : Nat) (enough : g.recs.length < fuel) :
    recordFormat.walk g.bytes fuel 0 = (recordFormat.place 0 g.recs, g.size) := by
  have walked := recordFormat.walk_frames g.recs [] g.tail g.sized g.unread fuel enough
  simpa [bytes, size] using walked

theorem wholeEnd_bytes (g : Seg) : wholeEnd g.bytes (g.bytes.length + 1) 0 = g.size := by
  have count := recordFormat.length_le_encodeAll g.recs g.sized
  rw [wholeEnd_eq_walk, g.walk_bytes _ (by simp only [bytes, List.length_append]; omega)]

def cut (g : Seg) : Seg := { g with tail := [], unread := recordFormat.read_nil }

theorem cut_bytes (g : Seg) : g.cut.bytes = g.bytes.take g.size := by
  simp [cut, bytes, size]

end Seg

abbrev Entry := Cursor × Record

def segEntries (k : Nat) (g : Seg) : List Entry :=
  (recordFormat.place 0 g.recs).map fun placed => (⟨k, placed.1⟩, placed.2)

def entriesFrom : Nat → List Seg → List Entry
  | _, [] => []
  | k, g :: gs => segEntries k g ++ entriesFrom (k + 1) gs

def filesFrom : Nat → List Seg → List (Nat × Bytes)
  | _, [] => []
  | k, g :: gs => (k, g.bytes) :: filesFrom (k + 1) gs

theorem segEntries_length (k : Nat) (g : Seg) : (segEntries k g).length = g.recs.length := by
  simp [segEntries, recordFormat.place_length]

theorem segEntries_getElem? (k : Nat) (g : Seg) (j : Nat) :
    (segEntries k g)[j]? = g.recs[j]?.map fun r => (⟨k, g.offset j⟩, r) := by
  simp [segEntries, recordFormat.place_getElem?, Seg.offset, Function.comp_def]

theorem entriesFrom_append (k : Nat) (xs ys : List Seg) :
    entriesFrom k (xs ++ ys) = entriesFrom k xs ++ entriesFrom (k + xs.length) ys := by
  induction xs generalizing k with
  | nil => rfl
  | cons x xs ih => simp [entriesFrom, ih, Nat.add_assoc, Nat.add_comm 1]

theorem entriesFrom_singleton (k : Nat) (g : Seg) : entriesFrom k [g] = segEntries k g := by
  simp [entriesFrom]

theorem filesFrom_append (k : Nat) (xs ys : List Seg) :
    filesFrom k (xs ++ ys) = filesFrom k xs ++ filesFrom (k + xs.length) ys := by
  induction xs generalizing k with
  | nil => rfl
  | cons x xs ih => simp [filesFrom, ih, Nat.add_assoc, Nat.add_comm 1]

theorem entriesFrom_getElem?_inv (k : Nat) (segs : List Seg) (i : Nat) (e : Entry)
    (found : (entriesFrom k segs)[i]? = some e) :
    ∃ m g j, segs[m]? = some g ∧ g.recs[j]? = some e.2 ∧ e.1 = ⟨k + m, g.offset j⟩ ∧
      i = (entriesFrom k (segs.take m)).length + j := by
  induction segs generalizing k i with
  | nil => simp [entriesFrom] at found
  | cons g segs ih =>
    rw [entriesFrom, List.getElem?_append] at found
    split at found
    · rw [segEntries_getElem?, Option.map_eq_some_iff] at found
      obtain ⟨r, present, rfl⟩ := found
      exact ⟨0, g, i, rfl, present, rfl, by simp [entriesFrom]⟩
    · rename_i past
      obtain ⟨m, g', j, present, record, place, index⟩ := ih (k + 1) _ found
      refine ⟨m + 1, g', j, by simpa using present, record, ?_, ?_⟩
      · rw [place, Nat.add_assoc, Nat.add_comm 1]
      · simp only [List.take_succ_cons, entriesFrom, List.length_append]
        omega

theorem filesFrom_mem {k : Nat} {segs : List Seg} {file : Nat × Bytes} (member : file ∈ filesFrom k segs) :
    k ≤ file.1 ∧ file.1 < k + segs.length := by
  induction segs generalizing k with
  | nil => simp [filesFrom] at member
  | cons g segs ih =>
    simp only [filesFrom, List.mem_cons] at member
    rcases member with rfl | member
    · simp
    · have := ih member
      simp only [List.length_cons]
      omega

theorem filesFrom_lookup (k q : Nat) (segs : List Seg) :
    (filesFrom k segs).lookup q = if q < k then none else segs[q - k]?.map Seg.bytes := by
  induction segs generalizing k with
  | nil => simp [filesFrom]
  | cons g segs ih =>
    simp only [filesFrom, List.lookup_cons, ih]
    by_cases same : q = k
    · simp [same]
    · simp only [beq_eq_false_iff_ne.mpr same]
      by_cases before : q < k
      · simp [before, Nat.lt_succ_of_lt before]
      · obtain ⟨m, rfl⟩ := Nat.exists_eq_add_of_lt (show k < q by omega)
        have index : k + m + 1 - k = m + 1 := by omega
        have index' : k + m + 1 - (k + 1) = m := by omega
        rw [if_neg (by omega), if_neg (by omega), index, index', List.getElem?_cons_succ]

theorem filesFrom_map_fst (k : Nat) (segs : List Seg) :
    (filesFrom k segs).map Prod.fst = List.range' k segs.length := by
  induction segs generalizing k with
  | nil => rfl
  | cons g segs ih => simp [filesFrom, ih, List.range'_succ]

/-- The segments of a spool over its whole life: the rotated ones, the head, and how many of the
    oldest are no longer on disk. Segment `k` is the `k`-th of them. -/
structure Layout where
  rotated : List Seg
  head : Seg
  lo : Nat
  lo_le : lo ≤ rotated.length

namespace Layout

variable (l : Layout)

def segs : List Seg := l.rotated ++ [l.head]

def entries : List Entry := entriesFrom 0 l.segs

def base (k : Nat) : Nat := (entriesFrom 0 (l.segs.take k)).length

theorem segs_length : l.segs.length = l.rotated.length + 1 := by simp [segs]

theorem segs_head : l.segs[l.rotated.length]? = some l.head := by simp [segs]

theorem base_succ {k : Nat} {g : Seg} (present : l.segs[k]? = some g) :
    l.base (k + 1) = l.base k + g.recs.length := by
  obtain ⟨inside, same⟩ := List.getElem?_eq_some_iff.mp present
  rw [base, ← List.take_append_getElem inside, entriesFrom_append, List.length_append, same,
    entriesFrom_singleton, segEntries_length, base]

theorem base_mono {j k : Nat} (le : j ≤ k) : l.base j ≤ l.base k := by
  have split : l.segs.take k = l.segs.take j ++ (l.segs.take k).drop j := by
    conv_lhs => rw [← List.take_append_drop j (l.segs.take k)]
    rw [List.take_take, Nat.min_eq_left le]
  rw [base, base, split, entriesFrom_append, List.length_append]
  omega

theorem base_all {k : Nat} (beyond : l.segs.length ≤ k) : l.base k = l.entries.length := by
  rw [base, List.take_of_length_le beyond, entries]

theorem entries_getElem? {k j : Nat} {g : Seg} {r : Record} (present : l.segs[k]? = some g)
    (record : g.recs[j]? = some r) : l.entries[l.base k + j]? = some (⟨k, g.offset j⟩, r) := by
  obtain ⟨inside, same⟩ := List.getElem?_eq_some_iff.mp present
  have split : l.segs = l.segs.take k ++ (g :: l.segs.drop (k + 1)) := by
    rw [← same, List.getElem_cons_drop inside, List.take_append_drop]
  have length : (l.segs.take k).length = k := by simp; omega
  rw [entries]
  conv_lhs => rw [split]
  rw [entriesFrom_append, List.getElem?_append_right (by simp [base]), base, Nat.add_sub_cancel_left,
    entriesFrom, length, Nat.zero_add, List.getElem?_append_left, segEntries_getElem?, record]
  · rfl
  · rw [segEntries_length]
    exact (List.getElem?_eq_some_iff.mp record).1

theorem entries_getElem?_inv {i : Nat} {e : Entry} (found : l.entries[i]? = some e) :
    ∃ g j, l.segs[e.1.seg]? = some g ∧ g.recs[j]? = some e.2 ∧ e.1.offset = g.offset j ∧
      i = l.base e.1.seg + j := by
  obtain ⟨m, g, j, present, record, place, index⟩ := entriesFrom_getElem?_inv 0 l.segs i e found
  have seg : e.1.seg = m := by rw [place, Nat.zero_add]
  exact ⟨g, j, by rw [seg]; exact present, record, by rw [place], by rw [seg]; exact index⟩

theorem lo_le_seg_iff {i : Nat} {e : Entry} (found : l.entries[i]? = some e) :
    l.lo ≤ e.1.seg ↔ l.base l.lo ≤ i := by
  obtain ⟨g, j, present, record, -, rfl⟩ := l.entries_getElem?_inv found
  constructor
  · intro le
    have := l.base_mono le
    omega
  · intro le
    by_contra before
    have next := l.base_succ present
    have := l.base_mono (show e.1.seg + 1 ≤ l.lo by omega)
    have inside := (List.getElem?_eq_some_iff.mp record).1
    omega

theorem seg_lt_lo {i : Nat} {e : Entry} (found : l.entries[i]? = some e) (under : i < l.base l.lo) : e.1.seg < l.lo := by
  by_contra onDisk
  have := (l.lo_le_seg_iff found).mp (Nat.not_lt.mp onDisk)
  omega

end Layout

end SpoolProof
