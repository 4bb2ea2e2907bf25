import Mathlib.Data.List.Nodup
import Mathlib.Data.List.Perm.Subperm
import AjarConnectors.Spool.Appending
import AjarConnectors.Spool.Refinement
import AjarConnectors.Transition.Run

namespace SpoolModel

/-- One call on the spool. `advance` takes the cursor the latest `peek` returned; `reopen` drops the
    spool and opens the same directory again. -/
inductive Op where
  | append (eventId : String) (sealed : Bytes) (room : Option Nat)
  | peek
  | advance
  | reopen
  deriving DecidableEq

/-- The spool with what a caller has seen of it: the records whose append returned `Ok` and where
    they went, the ones `advance` confirmed, the segments the bound removed, the latest `peek`. -/
structure World where
  spool : Spool
  appended : List (Cursor × Record)
  confirmed : List (Cursor × Record)
  dropped : List Nat
  peeked : Option (Cursor × Record)

namespace World

def of (spool : Spool) (appended : List (Cursor × Record)) : World := ⟨spool, appended, [], [], none⟩

def start (maxBytes : Nat) : World := of (.openDir maxBytes .empty) []

def step (w : World) : Op → World
  | .append eventId sealed room =>
    match w.spool.append eventId sealed room with
    | (spool, .ok _) =>
      { w with
        spool
        appended := w.appended ++ [(w.spool.writtenAt, ⟨eventId, sealed⟩)]
        dropped := w.dropped ++ (existingSegments w.spool.dir).filter (· ∉ existingSegments spool.dir) }
    | (spool, .error _) => { w with spool }
  | .peek => { w with spool := w.spool.peek.1, peeked := w.spool.peek.2 }
  | .advance =>
    match w.peeked with
    | none => w
    | some e =>
      match w.spool.advance e.1 with
      -- Confirming a record again is no new confirmation.
      | (spool, .ok ()) => { w with spool, confirmed := if e ∈ w.confirmed then w.confirmed else w.confirmed ++ [e] }
      | (spool, .error _) => { w with spool }
  | .reopen => { w with spool := .openDir w.spool.maxBytes w.spool.dir }

def run (w : World) (ops : List Op) : World := ops.foldl step w

/-- What a reader still has to get: appended, not confirmed, and not in a segment the bound removed. -/
def outstanding (w : World) : List (Cursor × Record) :=
  w.appended.filter fun e => decide (e ∉ w.confirmed) && decide (e.1.seg ∉ w.dropped)

end World

/-- The next append does not write behind bytes its own length count does not know: it rotates, or
    the head file is as long as `head_len` says. -/
def Spool.HeadWhole (s : Spool) : Prop := s.Full ∨ (s.dir.file s.headSeq).map List.length = some s.headLen

instance (s : Spool) : Decidable s.HeadWhole := inferInstanceAs (Decidable (_ ∨ _))

def Op.Sized : Op → Prop
  | .append eventId sealed _ => Record.Sized ⟨eventId, sealed⟩
  | _ => True

instance (op : Op) : Decidable op.Sized :=
  match op with
  | .append eventId sealed _ => inferInstanceAs (Decidable (Record.Sized ⟨eventId, sealed⟩))
  | .peek | .advance | .reopen => isTrue trivial

def Op.Accepted : Op → Prop
  | .append eventId sealed room => Accepts room (recordBytes eventId sealed)
  | _ => True

instance (op : Op) : Decidable op.Accepted :=
  match op with
  | .append eventId sealed room => inferInstanceAs (Decidable (Accepts room (recordBytes eventId sealed)))
  | .peek | .advance | .reopen => isTrue trivial

def Op.WithinBound (s : Spool) : Op → Prop
  | .append eventId sealed room => (s.write eventId sealed room).1.dir.total ≤ s.maxBytes
  | _ => True

instance (s : Spool) (op : Op) : Decidable (op.WithinBound s) :=
  match op with
  | .append _ _ _ => inferInstanceAs (Decidable (_ ≤ _))
  | .peek | .advance | .reopen => isTrue trivial

def Op.record? : Op → Option Record
  | .append eventId sealed _ => some ⟨eventId, sealed⟩
  | _ => none

end SpoolModel

namespace SpoolProof

open SpoolModel Layout

theorem step_append_frame (w : World) (eventId : String) (sealed : Bytes) (room : Option Nat) :
    (w.step (.append eventId sealed room)).peeked = w.peeked ∧
    (w.step (.append eventId sealed room)).confirmed = w.confirmed ∧
    (w.step (.append eventId sealed room)).spool = (w.spool.append eventId sealed room).1 ∧
    ∀ e ∈ (w.step (.append eventId sealed room)).appended, e ∈ w.appended ∨ e.2 = ⟨eventId, sealed⟩ := by
  simp only [World.step]
  split
  · rename_i s' _ same
    refine ⟨rfl, rfl, by rw [same], fun e member => (List.mem_append.mp member).imp_right fun last => ?_⟩
    rw [List.mem_singleton.mp last]
  · rename_i s' _ same
    exact ⟨rfl, rfl, by rw [same], fun e member => .inl member⟩

theorem step_advance {w : World} {e : Entry} {s' : Spool} (peeked : w.peeked = some e)
    (advanced : w.spool.advance e.1 = (s', .ok ())) :
    w.step .advance =
      { w with spool := s', confirmed := if e ∈ w.confirmed then w.confirmed else w.confirmed ++ [e] } := by
  simp only [World.step, peeked, advanced]

theorem step_advance_error {w : World} {e : Entry} {s' : Spool} {error : AdvanceError} (peeked : w.peeked = some e)
    (failed : w.spool.advance e.1 = (s', .error error)) : w.step .advance = { w with spool := s' } := by
  simp only [World.step, peeked, failed]

theorem step_advance_frame (w : World) : (w.step .advance).appended = w.appended ∧
    (w.step .advance).dropped = w.dropped ∧ (w.step .advance).peeked = w.peeked := by
  cases peeked : w.peeked with
  | none => simp only [World.step, peeked, and_self]
  | some e =>
    cases result : w.spool.advance e.1 with
    | mk s' outcome =>
      cases outcome with
      | ok => simp only [step_advance peeked result, peeked, and_self]
      | error error => simp only [step_advance_error peeked result, peeked, and_self]

theorem entries_inj (l : Layout) {i j : Nat} {e : Entry} (first : l.entries[i]? = some e)
    (second : l.entries[j]? = some e) : i = j := by
  obtain ⟨g, m, present, record, offset, rfl⟩ := l.entries_getElem?_inv first
  obtain ⟨g', n, present', record', offset', rfl⟩ := l.entries_getElem?_inv second
  rw [present] at present'
  cases present'
  have inside := (List.getElem?_eq_some_iff.mp record).1
  have inside' := (List.getElem?_eq_some_iff.mp record').1
  have same : g.offset m = g.offset n := offset.symm.trans offset'
  rcases Nat.lt_trichotomy m n with lt | eq | gt
  · exact absurd same (Nat.ne_of_lt (recordFormat.encodeAll_take_lt g.recs g.sized lt (by omega)))
  · rw [eq]
  · exact absurd same.symm (Nat.ne_of_lt (recordFormat.encodeAll_take_lt g.recs g.sized gt (by omega)))

theorem untorn_of_headWhole {s : Spool} {l : Layout} {next : Nat} (holds : Holds s l next)
    (whole : s.HeadWhole) : Untorn s l := by
  apply whole.imp_right
  intro length
  rw [holds.headSeq, file_present holds.files l.lo_le l.segs_head, Option.map_some, holds.headLen,
    Option.some.injEq] at length
  simp only [Seg.bytes, List.length_append, Seg.size] at length
  exact List.eq_nil_of_length_eq_zero (by omega)

theorem headWhole_of_clean {s : Spool} {l : Layout} {next : Nat} (holds : Holds s l next)
    (clean : l.head.tail = []) : s.HeadWhole := by
  apply Or.inr
  rw [holds.headSeq, file_present holds.files l.lo_le l.segs_head, holds.headLen]
  simp [Seg.bytes, Seg.size, clean]

theorem Holds.vanished_iff {s s' : Spool} {l l' : Layout} {next next' : Nat} (holds : Holds s l next)
    (holds' : Holds s' l' next') (grown : l.rotated.length ≤ l'.rotated.length) (k : Nat) :
    k ∈ (existingSegments s.dir).filter (· ∉ existingSegments s'.dir) ↔
      l.lo ≤ k ∧ k ≤ l.rotated.length ∧ k < l'.lo := by
  rw [List.mem_filter, mem_existing_iff holds.files, decide_eq_true_eq, mem_existing_iff holds'.files]
  omega

/-- What links a world to the layout of its spool. `before` are the records that were already
    settled when the history starts; entry `p` of the history is the next one to drain. -/
structure Tracked (before : List Entry) (w : World) (l : Layout) (p : Nat) : Prop where
  holds : Holds w.spool l (before.length + p)
  entries : l.entries = before ++ w.appended
  confirmed : w.confirmed.Sublist (w.appended.take p)
  settled : ∀ e ∈ w.appended.take p, e ∈ w.confirmed ∨ e.1.seg ∈ w.dropped
  gone : ∀ k ∈ w.dropped, k < l.lo
  peeked : ∀ e, w.peeked = some e → ∃ i, w.appended[i]? = some e ∧ (e.1.seg < l.lo ∨ i = p ∨ i + 1 = p)

theorem start_tracked (maxBytes : Nat) : Tracked [] (.start maxBytes) .start 0 where
  holds := start_holds maxBytes
  entries := rfl
  confirmed := .slnil
  settled := by simp [World.start, World.of]
  gone := by simp [World.start, World.of]
  peeked := by simp [World.start, World.of]

namespace Tracked

variable {before : List Entry} {w : World} {l : Layout} {p : Nat} (tracked : Tracked before w l p)

include tracked

theorem getElem? (i : Nat) : l.entries[before.length + i]? = w.appended[i]? := by
  rw [tracked.entries, List.getElem?_append_right (by omega), Nat.add_sub_cancel_left]

theorem position_le : p ≤ w.appended.length := by
  have bound := Resumes.next_le l tracked.holds.cursor
  rw [tracked.entries, List.length_append] at bound
  omega

theorem peek_eq : w.spool.peek.2 = w.appended[p]? := by
  obtain ⟨s', found, -⟩ := tracked.holds.peek
  rw [found]
  exact tracked.getElem? p

theorem ahead {i : Nat} {e : Entry} (found : w.appended[i]? = some e) (le : p ≤ i) :
    e ∉ w.confirmed ∧ e.1.seg ∉ w.dropped := by
  have entry := (tracked.getElem? i).trans found
  constructor
  · intro member
    obtain ⟨j, inside, same⟩ := List.mem_iff_getElem.mp (tracked.confirmed.subset member)
    have earlier : w.appended[j]? = some e := by
      rw [List.getElem_take] at same
      rw [List.length_take] at inside
      exact List.getElem?_eq_some_iff.mpr ⟨by omega, same⟩
    have := entries_inj l entry ((tracked.getElem? j).trans earlier)
    rw [List.length_take] at inside
    omega
  · intro member
    have := tracked.gone _ member
    have floor := tracked.holds.floor_le
    have := (l.lo_le_seg_iff entry).mpr (by omega)
    omega

theorem outstanding_eq : w.outstanding = w.appended.drop p := by
  apply filter_eq_drop
  intro i e found
  by_cases before : i < p
  · have settled := tracked.settled e (List.mem_iff_getElem?.mpr ⟨i, by rw [List.getElem?_take_of_lt before, found]⟩)
    rcases settled with done | lost
    · simp [done, before]
    · simp [lost, before]
  · have ahead := tracked.ahead found (Nat.not_lt.mp before)
    simp [ahead, Nat.not_lt.mp before]

theorem peek_outstanding : w.spool.peek.2 = w.outstanding.head? := by
  rw [tracked.peek_eq, tracked.outstanding_eq, List.head?_drop]

theorem appended_nodup : w.appended.Nodup := by
  rw [List.nodup_iff_getElem?_ne_getElem?]
  intro i j lt bound same
  have found : w.appended[j]? = some w.appended[j] := List.getElem?_eq_getElem bound
  have := entries_inj l ((tracked.getElem? i).trans (same.trans found)) ((tracked.getElem? j).trans found)
  omega

theorem confirmed_eq (kept : w.dropped = []) : w.confirmed = w.appended.take p := by
  apply tracked.confirmed.eq_of_length_le
  apply List.Subperm.length_le
  apply List.subperm_of_subset (tracked.appended_nodup.sublist (List.take_sublist p _))
  intro e member
  apply (tracked.settled e member).resolve_right
  intro lost
  rw [kept] at lost
  cases lost

theorem next_onDisk {e : Entry} (found : w.appended[p]? = some e) : l.lo ≤ e.1.seg :=
  (l.lo_le_seg_iff ((tracked.getElem? p).trans found)).mpr tracked.holds.floor_le

theorem peek : Tracked before (w.step .peek) l p := by
  obtain ⟨s', found, holds, -, -⟩ := tracked.holds.peek
  refine ⟨by simpa only [World.step, found] using holds, tracked.entries, tracked.confirmed, tracked.settled,
    tracked.gone, ?_⟩
  intro e same
  exact ⟨p, tracked.peek_eq.symm.trans same, .inr (.inl rfl)⟩

theorem reopen : ∃ l', Tracked before (w.step .reopen) l' p ∧ l'.head.tail = [] ∧ l'.lo = l.lo :=
  ⟨l.withHead l.head.cut, ⟨tracked.holds.reopen w.spool.maxBytes, (l.withHead_entries l.head.cut rfl).trans tracked.entries,
    tracked.confirmed, tracked.settled, tracked.gone, tracked.peeked⟩, rfl, rfl⟩

theorem advance_next {e : Entry} {s' : Spool} {l' : Layout} (peeked : w.peeked = some e)
    (found : w.appended[p]? = some e) (advanced : w.spool.advance e.1 = (s', .ok ()))
    (holds : Holds s' l' (before.length + (p + 1))) (entries : l'.entries = l.entries) (lo : l'.lo = e.1.seg) :
    Tracked before (w.step .advance) l' (p + 1) := by
  have fresh := (tracked.ahead found (Nat.le_refl _)).1
  have onDisk := tracked.next_onDisk found
  have next : w.appended.take (p + 1) = w.appended.take p ++ [e] := by
    rw [List.take_add_one, found]
    rfl
  rw [step_advance peeked advanced, if_neg fresh]
  refine ⟨holds, entries.trans tracked.entries, ?_, ?_, ?_, ?_⟩
  · rw [next]
    exact tracked.confirmed.append (List.Sublist.refl [e])
  · rw [next]
    intro e' member
    rcases List.mem_append.mp member with member | member
    · exact (tracked.settled e' member).imp_left (List.mem_append_left _)
    · exact .inl (List.mem_append_right _ member)
  · intro k member
    have := tracked.gone k member
    omega
  · intro e' same
    rw [peeked] at same
    cases same
    exact ⟨p, found, .inr (.inr rfl)⟩

theorem advance_again {i : Nat} {e : Entry} {s' : Spool} {l' : Layout} (peeked : w.peeked = some e)
    (found : w.appended[i]? = some e) (last : i + 1 = p) (onDisk : l.lo ≤ e.1.seg)
    (advanced : w.spool.advance e.1 = (s', .ok ())) (holds : Holds s' l' (before.length + p))
    (entries : l'.entries = l.entries) (lo : l'.lo = e.1.seg) : Tracked before (w.step .advance) l' p := by
  have member : e ∈ w.appended.take p := by
    rw [← last, List.take_add_one, found]
    simp
  have settled : e ∈ w.confirmed := by
    apply (tracked.settled e member).resolve_right
    intro lost
    have := tracked.gone _ lost
    omega
  rw [step_advance peeked advanced, if_pos settled]
  refine ⟨holds, entries.trans tracked.entries, tracked.confirmed, tracked.settled, ?_, ?_⟩
  · intro k member
    have := tracked.gone k member
    omega
  · intro e' same
    rw [peeked] at same
    cases same
    exact ⟨i, found, .inr (.inr last)⟩

theorem advance : ∃ l' p', Tracked before (w.step .advance) l' p' ∧ l'.head = l.head ∧
    (w.peeked = none → l' = l ∧ p' = p) ∧
    ∀ e, w.peeked = some e → l.lo ≤ e.1.seg →
      (w.spool.advance e.1).2 = .ok () ∧ l'.lo = e.1.seg ∧ ∀ i, w.appended[i]? = some e → p' = i + 1 := by
  cases peeked : w.peeked with
  | none => exact ⟨l, p, by simpa only [World.step, peeked] using tracked, rfl, by simp, by simp⟩
  | some e =>
    obtain ⟨i, found, position⟩ := tracked.peeked e peeked
    have entry := (tracked.getElem? i).trans found
    by_cases onDisk : l.lo ≤ e.1.seg
    · obtain ⟨s', inside, advanced, holds, -⟩ := tracked.holds.advance entry onDisk
      refine ⟨l.since e.1.seg inside, i + 1, ?_, rfl, by simp, ?_⟩
      · -- Still on disk, it is the record to drain next or the one confirmed last.
        rcases position with off | rfl | last
        · omega
        · exact tracked.advance_next peeked found advanced holds rfl rfl
        · subst last
          exact tracked.advance_again peeked found rfl onDisk advanced holds rfl rfl
      · intro e' same _
        cases same
        refine ⟨by rw [advanced], rfl, fun i' found' => ?_⟩
        have := entries_inj l entry ((tracked.getElem? i').trans found')
        omega
    · have off := tracked.holds.advance_gone (Nat.not_le.mp onDisk)
      refine ⟨l, p, by rw [step_advance_error peeked off]; exact tracked, rfl, by simp, ?_⟩
      intro e' same le
      cases same
      exact absurd le onDisk

theorem append_torn (r : Record) (sized : r.Sized) (whole : w.spool.HeadWhole) {free : Nat}
    (short : free < r.bytes.length) :
    ∃ l', Tracked before (w.step (.append r.eventId r.sealed (some free))) l' p ∧ l'.lo = l.lo := by
  obtain ⟨s', l', failed, holds, entries, lo⟩ :=
    tracked.holds.append_torn r sized (untorn_of_headWhole tracked.holds whole) short
  refine ⟨l', ?_, lo⟩
  simp only [World.step, failed]
  exact ⟨holds, entries.trans tracked.entries, tracked.confirmed, tracked.settled, by rw [lo]; exact tracked.gone,
    by rw [lo]; exact tracked.peeked⟩

theorem index_append {l' : Layout} {e : Entry} (entries : l'.entries = l.entries ++ [e]) (i : Nat) :
    l'.entries[before.length + i]? = (w.appended ++ [e])[i]? := by
  rw [entries, tracked.entries, List.append_assoc, List.getElem?_append_right (by omega), Nat.add_sub_cancel_left]

/-- What the position jumps over when the bound removes segments lies in those segments. -/
theorem settled_append {s' : Spool} {l' : Layout} {e : Entry} {p' : Nat}
    (holds : Holds s' l' (before.length + p')) (entries : l'.entries = l.entries ++ [e])
    (grown : l.rotated.length ≤ l'.rotated.length) (place : e.1.seg = l'.rotated.length)
    (position : max (l'.base l'.lo) (before.length + p) = before.length + p') :
    ∀ e' ∈ (w.appended ++ [e]).take p', e' ∈ w.confirmed ∨
      e'.1.seg ∈ w.dropped ++ (existingSegments w.spool.dir).filter (· ∉ existingSegments s'.dir) := by
  intro e' member
  obtain ⟨i, found⟩ := List.mem_iff_getElem?.mp member
  have before_p' : i < p' := by
    have := (List.getElem?_eq_some_iff.mp found).1
    rw [List.length_take] at this
    omega
  rw [List.getElem?_take_of_lt before_p'] at found
  have entry := (tracked.index_append entries i).trans found
  have bound := tracked.position_le
  by_cases old : i < p
  · rw [List.getElem?_append_left (by omega)] at found
    have kept := tracked.settled e' (List.mem_iff_getElem?.mpr ⟨i, by rw [List.getElem?_take_of_lt old, found]⟩)
    exact kept.imp_right (List.mem_append_left _)
  · have removed := l'.seg_lt_lo entry (by omega)
    apply Or.inr
    apply List.mem_append_right
    by_cases earlier : i < w.appended.length
    · rw [List.getElem?_append_left earlier] at found
      have entry := (tracked.getElem? i).trans found
      have floor := tracked.holds.floor_le
      obtain ⟨g, -, present, -⟩ := l.entries_getElem?_inv entry
      exact (tracked.holds.vanished_iff holds grown e'.1.seg).mpr
        ⟨(l.lo_le_seg_iff entry).mpr (by omega), l.seg_le present, removed⟩
    · -- The record just written lies in the head, which the bound never removes.
      have last : i = w.appended.length := by
        have := (List.getElem?_eq_some_iff.mp found).1
        rw [List.length_append, List.length_singleton] at this
        omega
      rw [last, List.getElem?_concat_length] at found
      cases found
      have := l'.lo_le
      omega

theorem append (r : Record) (sized : r.Sized) (whole : w.spool.HeadWhole) {room : Option Nat}
    (accepts : Accepts room r.bytes) :
    ∃ l' p', Tracked before (w.step (.append r.eventId r.sealed room)) l' p' ∧ l'.head.tail = [] ∧
      l.lo ≤ l'.lo ∧ (w.spool.append r.eventId r.sealed room).2 = .ok (decide (l.lo < l'.lo)) ∧
      (l'.lo = l.lo → (w.step (.append r.eventId r.sealed room)).dropped = w.dropped) ∧
      (w.step (.append r.eventId r.sealed room)).appended = w.appended ++ [(w.spool.writtenAt, r)] := by
  obtain ⟨s', l', appended, holds, entries, le, grown, clean, place⟩ :=
    tracked.holds.append r sized (untorn_of_headWhole tracked.holds whole) accepts
  have bound := tracked.position_le
  obtain ⟨p', position⟩ : ∃ p', max (l'.base l'.lo) (before.length + p) = before.length + p' :=
    ⟨max (l'.base l'.lo) (before.length + p) - before.length, by omega⟩
  rw [position] at holds
  have vanished := tracked.holds.vanished_iff holds grown
  refine ⟨l', p', ?_, clean, le, by rw [appended], ?_, by simp only [World.step, appended]⟩
  · simp only [World.step, appended]
    refine ⟨holds, by rw [entries, tracked.entries, List.append_assoc], ?_,
      tracked.settled_append holds entries grown place position, ?_, ?_⟩
    · apply tracked.confirmed.trans
      rw [← List.take_append_of_le_length bound]
      exact (List.take_prefix_take_left (show p ≤ p' by omega)).sublist
    · intro k member
      rcases List.mem_append.mp member with member | member
      · exact Nat.lt_of_lt_of_le (tracked.gone k member) le
      · exact ((vanished k).mp member).2.2
    · intro e same
      obtain ⟨i, found, where_⟩ := tracked.peeked e same
      have kept : (w.appended ++ [(w.spool.writtenAt, r)])[i]? = some e :=
        (List.getElem?_append_left (List.getElem?_eq_some_iff.mp found).1).trans found
      refine ⟨i, kept, ?_⟩
      by_cases stays : p = p'
      · omega
      · have removed := l'.seg_lt_lo ((tracked.index_append entries i).trans kept)
        omega
  · intro same
    simp only [World.step, appended]
    have nothing : (existingSegments w.spool.dir).filter (· ∉ existingSegments s'.dir) = [] := by
      rw [List.eq_nil_iff_forall_not_mem]
      intro k member
      have := (vanished k).mp member
      omega
    rw [nothing, List.append_nil]

end Tracked

end SpoolProof
