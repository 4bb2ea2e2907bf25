import Mathlib.Data.List.Infix
import AjarConnectors.Spool.Refinement

namespace SpoolModel

def recordsOf (data : Bytes) : List Record := (recordsIn data (data.length + 1) 0).map Prod.snd

/-- A sequence of whole records. -/
def Whole (data : Bytes) : Prop :=
  ∃ parts : List Bytes, (∀ part ∈ parts, ∃ r, readRecord part 0 = some (r, part.length)) ∧ parts.flatten = data

/-- The segment is cut to its longest whole front, once and for all, and nothing else in the directory changes. -/
structure CutsToWhole (dir : Dir) (seq : Nat) (data : Bytes) : Prop where
  longest : ∃ kept, (truncateTornTail dir seq).file seq = some kept ∧ kept <+: data ∧ Whole kept ∧
    ∀ front, front <+: data → Whole front → front <+: kept
  others : (∀ other, other ≠ seq → (truncateTornTail dir seq).file other = dir.file other) ∧
    (truncateTornTail dir seq).cursorFile = dir.cursorFile
  untouched : Whole data → truncateTornTail dir seq = dir
  idempotent : truncateTornTail (truncateTornTail dir seq) seq = truncateTornTail dir seq

/-- Exactly the appended records are left, and they read back. -/
def KeepsExactly (dir : Dir) (seq : Nat) (rs : List Record) : Prop :=
  (truncateTornTail dir seq).file seq = some (rs.flatMap Record.bytes) ∧ recordsOf (rs.flatMap Record.bytes) = rs

/-- The lengths a header declares are those modulo 2 to the 32. What is on disk of a record that is longer reads as a
    record itself when it is as long as the header says and the id is not cut within a character. -/
def ReadsShort (r : Record) (torn : Bytes) : Prop :=
  ¬r.Sized ∧ 8 + (idBytes r.eventId).length % 2^32 + r.sealed.length % 2^32 ≤ torn.length ∧
    (fromUtf8 ((idBytes r.eventId).take ((idBytes r.eventId).length % 2^32))).isSome = true

end SpoolModel

namespace SpoolProof

open SpoolModel

theorem exists_seg (data : Bytes) : ∃ g : Seg, g.bytes = data := by
  obtain ⟨rs, tail, fits, same, unread⟩ := recordFormat.exists_frames recordFormat_canonical data
  exact ⟨⟨rs, tail, fits, unread⟩, same.symm⟩

theorem recordsOf_bytes (g : Seg) : recordsOf g.bytes = g.recs := by
  rw [recordsOf, recordsIn_bytes]
  apply List.ext_getElem?
  intro i
  rw [List.getElem?_map, recordFormat.place_getElem?]
  cases g.recs[i]? <;> rfl

theorem whole_encodeAll {rs : List Record} (sized : ∀ r ∈ rs, r.Sized) : Whole (recordFormat.encodeAll rs) := by
  refine ⟨rs.map Record.bytes, ?_, rfl⟩
  intro part member
  obtain ⟨r, listed, rfl⟩ := List.mem_map.mp member
  exact ⟨r, readRecord_bytes r (sized r listed)⟩

theorem whole_exists {data : Bytes} (whole : Whole data) :
    ∃ rs : List Record, (∀ r ∈ rs, r.Sized) ∧ recordFormat.encodeAll rs = data := by
  obtain ⟨parts, each, rfl⟩ := whole
  induction parts with
  | nil => exact ⟨[], List.forall_mem_nil _, rfl⟩
  | cons part parts ih =>
    obtain ⟨first, later⟩ := List.forall_mem_cons.mp each
    obtain ⟨r, read⟩ := first
    obtain ⟨rs, sized, joined⟩ := ih later
    obtain ⟨fits, bytes⟩ := readRecord_canonical _ _ _ read
    rw [List.take_length] at bytes
    refine ⟨r :: rs, List.forall_mem_cons.mpr ⟨fits, sized⟩, ?_⟩
    rw [recordFormat.encodeAll_cons, joined, List.flatten_cons]
    exact congrArg (· ++ parts.flatten) bytes

/-- A whole front and what follows it: the records behind it are read after its own. -/
theorem front_inside {g : Seg} {front : Bytes} (begins : front <+: g.bytes) (whole : Whole front) :
    front <+: recordFormat.encodeAll g.recs := by
  obtain ⟨rs, sized, rfl⟩ := whole_exists whole
  obtain ⟨rest, shape⟩ := begins
  obtain ⟨h, rfl⟩ := exists_seg rest
  have joined : (⟨rs ++ h.recs, h.tail, by
      intro r member
      exact (List.mem_append.mp member).elim (sized r) (h.sized r), h.unread⟩ : Seg).bytes = g.bytes := by
    rw [← shape, Seg.bytes, Seg.bytes, recordFormat.encodeAll_append, List.append_assoc]
  have same := congrArg recordsOf joined
  rw [recordsOf_bytes, recordsOf_bytes] at same
  rw [← same, recordFormat.encodeAll_append]
  exact List.prefix_append _ _

theorem whole_tail {g : Seg} (whole : Whole g.bytes) : g.tail = [] := by
  have inside := (front_inside List.prefix_rfl whole).length_le
  rw [Seg.bytes, List.length_append] at inside
  exact List.eq_nil_of_length_eq_zero (by omega)

section

variable {dir : Dir} {seq : Nat}

theorem file_modify (dir : Dir) (seq : Nat) (change : Bytes → Bytes) (other : Nat) :
    (dir.modify seq change).file other = (dir.file other).map fun data => if other = seq then change data else data := by
  unfold Dir.modify Dir.file
  dsimp only
  induction dir.segs with
  | nil => rfl
  | cons seg segs ih =>
    rw [List.map_cons, List.lookup_cons, List.lookup_cons]
    by_cases here : other = seg.1
    · subst here
      simp
    · rw [beq_eq_false_iff_ne.mpr here]
      exact ih

/-- What is cut off is what no record is read from. -/
theorem truncate_seg {g : Seg} (file : dir.file seq = some g.bytes) :
    truncateTornTail dir seq =
      if g.tail = [] then dir else dir.modify seq (·.take g.size) := by
  unfold truncateTornTail
  rw [file]
  dsimp only
  rw [g.wholeEnd_bytes]
  have length : g.bytes.length = g.size + g.tail.length := List.length_append
  by_cases none : g.tail = []
  · rw [if_pos none, if_neg]
    rw [length, none]
    exact Nat.lt_irrefl _
  · rw [if_neg none, if_pos]
    have some := List.length_pos_iff.mpr none
    omega

theorem truncate_file {g : Seg} (file : dir.file seq = some g.bytes) :
    (truncateTornTail dir seq).file seq = some (recordFormat.encodeAll g.recs) := by
  rw [truncate_seg file]
  by_cases none : g.tail = []
  · rw [if_pos none, file, Seg.bytes, none, List.append_nil]
  · rw [if_neg none, file_modify, file, Option.map_some, if_pos rfl, Seg.bytes, Seg.size, List.take_left]

theorem cuts_to_whole {data : Bytes} (file : dir.file seq = some data) : CutsToWhole dir seq data := by
  obtain ⟨g, rfl⟩ := exists_seg data
  constructor
  · exact ⟨_, truncate_file file, List.prefix_append _ _, whole_encodeAll g.sized, fun _ => front_inside⟩
  · rw [truncate_seg file]
    split
    · exact ⟨fun _ _ => rfl, rfl⟩
    · refine ⟨fun other different => ?_, rfl⟩
      rw [file_modify]
      cases dir.file other with
      | none => rfl
      | some data => rw [Option.map_some, if_neg different]
  · intro whole
    rw [truncate_seg file, if_pos (whole_tail whole)]
  · have kept := truncate_file file
    have bytes : g.cut.bytes = recordFormat.encodeAll g.recs := List.append_nil _
    rw [← bytes] at kept
    rw [truncate_seg kept, if_pos (show g.cut.tail = [] from rfl)]

theorem u32BeBytes_mod (len : Nat) : u32FromBeBytes (u32BeBytes len) = len % 2^32 := by
  simp only [u32FromBeBytes, u32BeBytes, List.foldl_cons, List.foldl_nil, UInt8.toNat_ofNat']
  omega

/-- What is on disk of a record reads as one only when the header's lengths are not the record's. -/
theorem torn_read_iff {r : Record} {torn : Bytes} (begins : torn <+: r.bytes) (short : torn.length < r.bytes.length) :
    recordFormat.read torn = none ↔ ¬ReadsShort r torn := by
  by_cases sized : r.Sized
  · exact ⟨fun _ reads => reads.1 sized, fun _ => recordFormat.read_torn r sized begins short⟩
  · have shape : torn = r.bytes.take torn.length := (List.prefix_iff_eq_take).mp begins
    by_cases header : torn.length < 8
    · constructor
      · intro _ reads
        have long := reads.2.1
        omega
      · intro _
        change readRecord torn 0 = none
        rw [readRecord, if_neg (Nat.not_lt_zero _), List.drop_zero, if_pos header]
    · have idLen : u32FromBeBytes (torn.take 4) = (idBytes r.eventId).length % 2^32 := by
        rw [shape, List.take_take, Nat.min_eq_left (by omega), bytes_idLen, u32BeBytes_mod]
      have payloadLen : u32FromBeBytes ((torn.drop 4).take 4) = r.sealed.length % 2^32 := by
        rw [shape, List.drop_take, List.take_take, Nat.min_eq_left (by omega), bytes_payloadLen, u32BeBytes_mod]
      have fewer : (idBytes r.eventId).length % 2^32 ≤ (idBytes r.eventId).length := Nat.mod_le _ _
      have read : recordFormat.read torn = readRecord torn 0 := rfl
      rw [read, readRecord, if_neg (Nat.not_lt_zero _), List.drop_zero, if_neg header]
      dsimp only
      rw [idLen, payloadLen]
      by_cases whole : torn.length < 8 + (idBytes r.eventId).length % 2^32 + r.sealed.length % 2^32
      · rw [if_pos whole]
        exact ⟨fun _ reads => absurd reads.2.1 (Nat.not_le.mpr whole), fun _ => rfl⟩
      · have id : (torn.drop 8).take ((idBytes r.eventId).length % 2^32) =
            (idBytes r.eventId).take ((idBytes r.eventId).length % 2^32) := by
          rw [shape, List.drop_take, List.take_take, Nat.min_eq_left (by omega), bytes_body,
            List.take_append_of_le_length fewer]
        rw [if_neg whole, id]
        constructor
        · intro unread reads
          obtain ⟨eventId, valid⟩ := Option.isSome_iff_exists.mp reads.2.2
          rw [valid] at unread
          cases unread
        · intro apart
          cases valid : fromUtf8 ((idBytes r.eventId).take ((idBytes r.eventId).length % 2^32)) with
          | none => rfl
          | some eventId =>
            refine absurd ⟨sized, Nat.not_lt.mp whole, ?_⟩ apart
            rw [valid]
            rfl

theorem keeps_exactly_iff {rs : List Record} {torn : Bytes} (file : dir.file seq = some (rs.flatMap Record.bytes ++ torn)) :
    KeepsExactly dir seq rs ↔ (∀ r ∈ rs, r.Sized) ∧ recordFormat.read torn = none := by
  constructor
  · rintro ⟨kept, back⟩
    obtain ⟨g, same⟩ := exists_seg (rs.flatMap Record.bytes ++ torn)
    rw [← same] at file
    have bytes : rs.flatMap Record.bytes = recordFormat.encodeAll g.recs :=
      Option.some.inj (kept.symm.trans (truncate_file file))
    have cut : g.cut.bytes = rs.flatMap Record.bytes := (List.append_nil _).trans bytes.symm
    have recs : g.recs = rs := (recordsOf_bytes g.cut).symm.trans ((congrArg recordsOf cut).trans back)
    have tail : g.tail = torn := by
      rw [bytes, Seg.bytes] at same
      exact List.append_cancel_left same
    rw [← recs, ← tail]
    exact ⟨g.sized, g.unread⟩
  · rintro ⟨sized, unread⟩
    have cut : (Seg.cut ⟨rs, torn, sized, unread⟩).bytes = rs.flatMap Record.bytes := List.append_nil _
    refine ⟨truncate_file (g := ⟨rs, torn, sized, unread⟩) file, ?_⟩
    rw [← cut]
    exact recordsOf_bytes _

/-- The readers agree and the cut is exact on every file; appended records and a torn one behind them are told apart
    exactly when no length goes past the four bytes it is written in, or the torn one breaks off before it shows. -/
theorem spool_parsing_iff {rs : List Record} {r : Record} {torn : Bytes}
    (file : dir.file seq = some (rs.flatMap Record.bytes ++ torn)) (begins : torn <+: r.bytes)
    (short : torn.length < r.bytes.length) :
    ((∀ content offset, readRecordAt (some content) offset = .ok (readRecord content offset)) ∧
      (∀ dir seq data, Dir.file dir seq = some data → CutsToWhole dir seq data) ∧ KeepsExactly dir seq rs) ↔
      (∀ x ∈ rs, x.Sized) ∧ ¬ReadsShort r torn := by
  rw [keeps_exactly_iff file, torn_read_iff begins short]
  constructor
  · exact fun holds => holds.2.2
  · intro fits
    refine ⟨fun content offset => ?_, fun _ _ _ => cuts_to_whole, fits⟩
    rw [readRecordAt_eq_readAt, readRecord_eq_readAt]

end

def oneFile (data : Bytes) : Dir := ⟨[(0, data)], none, List.pairwise_singleton _ _⟩

/-- One record, and ten bytes of another. -/
theorem torn_pair_is_cut : KeepsExactly (oneFile (Record.bytes ⟨"a", [1, 2, 3]⟩ ++ (Record.bytes ⟨"b", [4, 5]⟩).take 10)) 0
    [⟨"a", [1, 2, 3]⟩] := by
  have begins : (Record.bytes ⟨"b", [4, 5]⟩).take 10 <+: Record.bytes ⟨"b", [4, 5]⟩ := List.take_prefix _ _
  have file : (oneFile (Record.bytes ⟨"a", [1, 2, 3]⟩ ++ (Record.bytes ⟨"b", [4, 5]⟩).take 10)).file 0 =
      some ([(⟨"a", [1, 2, 3]⟩ : Record)].flatMap Record.bytes ++ (Record.bytes ⟨"b", [4, 5]⟩).take 10) := rfl
  refine ((spool_parsing_iff file begins (by decide)).mpr ⟨?_, ?_⟩).2.2
  · decide
  · intro reads
    exact reads.1 (by decide)

/-- No id and 2 to the 32 bytes. -/
def longRecord : Record := ⟨"", List.replicate (2^32) 0⟩

/-- The first eight bytes of the long record are kept: a record of no bytes that nobody appended. -/
theorem long_record_leaves_another : List.replicate 8 0 <+: longRecord.bytes ∧ 8 < longRecord.bytes.length ∧
    ¬KeepsExactly (oneFile (List.replicate 8 0)) 0 [] := by
  have header : u32BeBytes (idBytes longRecord.eventId).length ++ u32BeBytes longRecord.sealed.length =
      List.replicate 8 0 := by
    rw [longRecord, List.length_replicate]
    decide
  refine ⟨?_, ?_, ?_⟩
  · rw [← header, Record.bytes, recordBytes, List.append_assoc _ (idBytes _)]
    exact List.prefix_append _ _
  · rw [Record.bytes, recordBytes_length, longRecord, List.length_replicate]
    omega
  · rintro ⟨kept, -⟩
    exact absurd kept (by decide)

end SpoolProof
