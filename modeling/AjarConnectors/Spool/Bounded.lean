import AjarConnectors.Spool.FailedAppends
import AjarConnectors.Spool.Removals

namespace SpoolModel

/-- The calls of a run in which a reopening may change the bound. -/
inductive Call where
  | append (eventId : String) (sealed : Bytes) (room : Option Nat)
  | peek
  | advance
  | reopen (maxBytes : Nat)

namespace World

def call (w : World) : Call → World
  | .append eventId sealed room => w.step (.append eventId sealed room)
  | .peek => w.step .peek
  | .advance => w.step .advance
  | .reopen maxBytes => { w with spool := .openDir maxBytes w.spool.dir }

def calls (w : World) (calls : List Call) : World := calls.foldl call w

/-- The call is an append that returns `Ok`. -/
def Appends (w : World) : Call → Prop
  | .append eventId sealed room => (w.spool.write eventId sealed room).2 = .ok ()
  | _ => False

/-- An append meets `WholeHeadStep`; every other call is free. -/
def WholeHeadCall (w : World) : Call → Prop
  | .append eventId sealed room => WholeHeadStep w (.append eventId sealed room)
  | _ => True

instance WholeHeadCall.decidable (w : World) (call : Call) : Decidable (w.WholeHeadCall call) :=
  match call with
  | .append eventId sealed room => inferInstanceAs (Decidable (WholeHeadStep w (.append eventId sealed room)))
  | .peek | .advance | .reopen _ => isTrue trivial

/-- At most `max_bytes` on disk, or nothing but the head. -/
def Bounded (w : World) : Prop :=
  w.spool.dir.total ≤ w.spool.maxBytes ∨ existingSegments w.spool.dir = [w.spool.headSeq]

def HeadExists (w : World) : Prop := w.spool.headSeq ∈ existingSegments w.spool.dir

/-- From one state to the next at most one segment is created, behind all others, and what goes is at the front. -/
def RemovesPrefix (w next : World) : Prop :=
  ∃ created removed, existingSegments w.spool.dir ++ created = removed ++ existingSegments next.spool.dir ∧
    (created = [] ∨ created = [w.spool.headSeq + 1])

instance : LawfulBEq (Cursor × Record) := inferInstance

/-- What `peek` is for: the first record that is not confirmed and whose segment is still there. -/
def firstSurviving (w : World) : Option (Cursor × Record) :=
  w.appended.find? fun e => decide (e ∉ w.confirmed ∧ e.1.seg ∈ existingSegments w.spool.dir)

end World

end SpoolModel

namespace SpoolProof

open SpoolModel Layout

theorem enforceBoundLoop_headSeq (fuel : Nat) (s : Spool) (dropped : Bool) :
    (Spool.enforceBoundLoop fuel s dropped).1.headSeq = s.headSeq := by
  induction fuel generalizing s dropped with
  | zero => rfl
  | succ fuel ih =>
    rw [Spool.enforceBoundLoop]
    split
    · rfl
    · exact ih _ true

theorem write_headSeq (s : Spool) (eventId : String) (sealed : Bytes) (room : Option Nat) :
    (s.write eventId sealed room).1.headSeq = s.headSeq ∨ (s.write eventId sealed room).1.headSeq = s.headSeq + 1 := by
  have rotated : s.rotateIfFull.headSeq = s.headSeq ∨ s.rotateIfFull.headSeq = s.headSeq + 1 := by
    unfold Spool.rotateIfFull
    split
    · exact Or.inr rfl
    · exact Or.inl rfl
  unfold Spool.write
  dsimp only
  split <;> exact rotated

theorem append_headSeq (s : Spool) (eventId : String) (sealed : Bytes) (room : Option Nat) :
    (s.append eventId sealed room).1.headSeq = s.headSeq ∨ (s.append eventId sealed room).1.headSeq = s.headSeq + 1 := by
  have written := write_headSeq s eventId sealed room
  unfold Spool.append
  split
  · rename_i found
    rw [found] at written
    dsimp only at written ⊢
    rw [Spool.enforceBound, enforceBoundLoop_headSeq]
    exact written
  · rename_i found
    rw [found] at written
    exact written

theorem advance_headSeq (w : World) : (w.step .advance).spool.headSeq = w.spool.headSeq := by
  unfold World.step
  dsimp only
  split
  · rfl
  · rename_i e _
    have kept : (w.spool.advance e.1).1.headSeq = w.spool.headSeq := by
      unfold Spool.advance
      split <;> rfl
    split
    · rename_i advanced
      rw [advanced] at kept
      exact kept
    · rename_i advanced
      rw [advanced] at kept
      exact kept

/-- `advance` creates no segment. -/
theorem advance_existing {w : World} {k : Nat} (member : k ∈ existingSegments (w.step .advance).spool.dir) :
    k ∈ existingSegments w.spool.dir := by
  unfold World.step at member
  dsimp only at member
  split at member
  · exact member
  · rename_i e _
    have fewer : ∀ k ∈ existingSegments (w.spool.advance e.1).1.dir, k ∈ existingSegments w.spool.dir := by
      unfold Spool.advance
      split
      · exact fun _ member => member
      · exact fun _ member => member
      · intro k member
        unfold Spool.moveTo at member
        dsimp only at member
        rw [existingSegments, removeBehind_segs] at member
        obtain ⟨seg, found, rfl⟩ := List.mem_map.mp member
        exact List.mem_map_of_mem (List.mem_filter.mp found).1
    split at member
    · rename_i advanced
      rw [advanced] at fewer
      exact fewer k member
    · rename_i advanced
      rw [advanced] at fewer
      exact fewer k member

/-- A call keeps the history in step with the disk. The oldest segment and the head only move forward, the head by no
    more than one. -/
theorem Tracked.call {before : List Entry} {w : World} {l : Layout} {p : Nat} (tracked : Tracked before w l p)
    (call : Call) (ok : w.WholeHeadCall call) :
    ∃ l' p', Tracked before (w.call call) l' p' ∧ l.lo ≤ l'.lo ∧
      (l'.rotated.length = l.rotated.length ∨ l'.rotated.length = l.rotated.length + 1) := by
  have head := tracked.holds.headSeq
  cases call with
  | append eventId sealed room =>
    obtain ⟨l', p', next, lo⟩ := tracked.tryAppend eventId sealed room ok
    refine ⟨l', p', next, lo, ?_⟩
    have moved := append_headSeq w.spool eventId sealed room
    rw [← (step_append_frame w eventId sealed room).2.2.1, next.holds.headSeq, head] at moved
    exact moved
  | peek => exact ⟨l, p, tracked.peek, Nat.le_refl _, Or.inl rfl⟩
  | advance =>
    obtain ⟨l', p', next, -⟩ := tracked.advance
    have oldest : l'.lo ∈ existingSegments (w.step .advance).spool.dir :=
      (mem_existing_iff next.holds.files l'.lo).mpr ⟨Nat.le_refl _, l'.lo_le⟩
    have kept := (mem_existing_iff tracked.holds.files l'.lo).mp (advance_existing oldest)
    refine ⟨l', p', next, kept.1, Or.inl ?_⟩
    rw [← next.holds.headSeq, ← head]
    exact advance_headSeq w
  | reopen maxBytes =>
    refine ⟨l.withHead l.head.cut, p, ?_, Nat.le_refl _, Or.inl rfl⟩
    exact ⟨tracked.holds.reopen maxBytes, (l.withHead_entries l.head.cut rfl).trans tracked.entries, tracked.confirmed,
      tracked.settled, tracked.gone, tracked.peeked⟩

theorem Tracked.calls {before : List Entry} {w : World} {l : Layout} {p : Nat} (tracked : Tracked before w l p)
    {calls : List Call} (allowed : Transition.Allowed World.call World.WholeHeadCall w calls) :
    ∃ l' p', Tracked before (w.calls calls) l' p' := by
  apply Transition.invariant (fun w => ∃ l p, Tracked before w l p) ?_ ⟨l, p, tracked⟩ allowed
  rintro w call ⟨l, p, tracked⟩ ok
  obtain ⟨l', p', next, -⟩ := tracked.call call ok
  exact ⟨l', p', next⟩

theorem Tracked.headExists {before : List Entry} {w : World} {l : Layout} {p : Nat} (tracked : Tracked before w l p) :
    w.HeadExists := by
  unfold World.HeadExists
  rw [mem_existing_iff tracked.holds.files, tracked.holds.headSeq]
  exact ⟨l.lo_le, Nat.le_refl _⟩

/-- A record is outstanding exactly if it is not confirmed and its segment is there. -/
theorem Tracked.surviving_iff {before : List Entry} {w : World} {l : Layout} {p : Nat} (tracked : Tracked before w l p)
    {e : Entry} (member : e ∈ w.appended) :
    (e ∉ w.confirmed ∧ e.1.seg ∉ w.dropped) ↔ (e ∉ w.confirmed ∧ e.1.seg ∈ existingSegments w.spool.dir) := by
  apply and_congr_right
  intro unconfirmed
  obtain ⟨i, found⟩ := List.mem_iff_getElem?.mp member
  have entry := (tracked.getElem? i).trans found
  rw [mem_existing_iff tracked.holds.files]
  constructor
  · intro kept
    obtain ⟨g, -, present, -⟩ := l.entries_getElem?_inv entry
    refine ⟨?_, l.seg_le present⟩
    -- Whatever lies before the position was settled, and this record was not.
    by_cases ahead : p ≤ i
    · have floor := tracked.holds.floor_le
      exact (l.lo_le_seg_iff entry).mpr (by omega)
    · have early : e ∈ w.appended.take p := List.mem_iff_getElem?.mpr ⟨i, by rw [List.getElem?_take_of_lt (by omega), found]⟩
      rcases tracked.settled e early with done | lost
      · exact absurd done unconfirmed
      · exact absurd lost kept
  · rintro ⟨present, -⟩ lost
    have := tracked.gone e.1.seg lost
    omega

theorem Tracked.peek_firstSurviving {before : List Entry} {w : World} {l : Layout} {p : Nat}
    (tracked : Tracked before w l p) : w.spool.peek.2 = w.firstSurviving := by
  rw [tracked.peek_outstanding, World.outstanding, World.firstSurviving, ← List.head?_filter]
  congr 1
  apply List.filter_congr
  intro e member
  rw [← Bool.decide_and, decide_eq_decide]
  exact tracked.surviving_iff member

theorem Tracked.removesPrefix {before : List Entry} {w next : World} {l l' : Layout} {p p' : Nat}
    (tracked : Tracked before w l p) (after : Tracked before next l' p') (lo : l.lo ≤ l'.lo)
    (head : l'.rotated.length = l.rotated.length ∨ l'.rotated.length = l.rotated.length + 1) : w.RemovesPrefix next := by
  have lo_le := l.lo_le
  have lo_le' := l'.lo_le
  have split : List.range' l.lo (l'.rotated.length + 1 - l.lo) =
      List.range' l.lo (l'.lo - l.lo) ++ List.range' l'.lo (l'.rotated.length + 1 - l'.lo) := by
    have front : l.lo + 1 * (l'.lo - l.lo) = l'.lo := by omega
    have whole : l'.rotated.length + 1 - l.lo = l'.lo - l.lo + (l'.rotated.length + 1 - l'.lo) := by omega
    rw [whole, ← List.range'_append, front]
  unfold World.RemovesPrefix
  rw [existing_of_files tracked.holds.files, existing_of_files after.holds.files, tracked.holds.headSeq]
  rcases head with same | one
  · refine ⟨[], List.range' l.lo (l'.lo - l.lo), ?_, Or.inl rfl⟩
    rw [List.append_nil, ← split, same]
  · refine ⟨[l.rotated.length + 1], List.range' l.lo (l'.lo - l.lo), ?_, Or.inr rfl⟩
    have place : l.lo + 1 * (l.rotated.length + 1 - l.lo) = l.rotated.length + 1 := by omega
    have longer : l'.rotated.length + 1 - l.lo = l.rotated.length + 1 - l.lo + 1 := by omega
    rw [← split, longer, List.range'_concat, place]

theorem append_settled {s : Spool} {eventId : String} {sealed : Bytes} {room : Option Nat}
    (written : (s.write eventId sealed room).2 = .ok ()) : (s.append eventId sealed room).1.Settled := by
  unfold Spool.append
  split
  · exact enforceBound_settled _
  · rename_i failed
    rw [failed] at written
    cases written

theorem Tracked.bounded {before : List Entry} {w : World} {l : Layout} {p : Nat} {eventId : String} {sealed : Bytes}
    {room : Option Nat} (after : Tracked before (w.call (.append eventId sealed room)) l p)
    (written : (w.spool.write eventId sealed room).2 = .ok ()) : (w.call (.append eventId sealed room)).Bounded := by
  have settled := append_settled written
  rw [← (step_append_frame w eventId sealed room).2.2.1] at settled
  refine settled.imp_right fun few => ?_
  have lo_le := l.lo_le
  have existing := existing_of_files after.holds.files
  have length : (existingSegments (w.call (.append eventId sealed room)).spool.dir).length = l.rotated.length + 1 - l.lo := by
    rw [existing, List.length_range']
  have one : l.rotated.length + 1 - l.lo = 1 := by
    have : (existingSegments (w.call (.append eventId sealed room)).spool.dir).length ≤ 1 := few
    omega
  rw [existing, one, List.range'_one, after.holds.headSeq]
  congr 1
  omega

/-- In every run whose appends are sized and find the head free of what a failed append left: an append that returns
    `Ok` leaves the spool bounded, the head is always there, segments go from the front only, and `peek` returns the
    first record that is unconfirmed and still there. -/
theorem whole_head_run_is_bounded (maxBytes : Nat) (calls : List Call)
    (allowed : Transition.Allowed World.call World.WholeHeadCall (.start maxBytes) calls) :
    ((World.start maxBytes).calls calls).HeadExists ∧
      ((World.start maxBytes).calls calls).spool.peek.2 = ((World.start maxBytes).calls calls).firstSurviving ∧
      ∀ call, ((World.start maxBytes).calls calls).WholeHeadCall call →
        ((World.start maxBytes).calls calls).RemovesPrefix (((World.start maxBytes).calls calls).call call) ∧
          (((World.start maxBytes).calls calls).Appends call → (((World.start maxBytes).calls calls).call call).Bounded) := by
  obtain ⟨l, p, tracked⟩ := (start_tracked maxBytes).calls allowed
  refine ⟨tracked.headExists, tracked.peek_firstSurviving, fun call ok => ?_⟩
  obtain ⟨l', p', after, lo, head⟩ := tracked.call call ok
  refine ⟨tracked.removesPrefix after lo head, fun appends => ?_⟩
  cases call with
  | append eventId sealed room => exact after.bounded appends
  | peek => cases appends
  | advance => cases appends
  | reopen maxBytes => cases appends

/-- Two records, the first confirmed, and the spool reopened with a bound that holds only one of them. -/
def shrunkCalls : List Call :=
  [.append "a" [1, 2, 3] none, .append "b" [4, 5, 6] none, .peek, .advance, .reopen 12]

theorem shrunkCalls_peeks : ((World.start 1000).calls shrunkCalls).spool.peek.2 = some (⟨0, 12⟩, ⟨"b", [4, 5, 6]⟩) :=
  (whole_head_run_is_bounded 1000 shrunkCalls (by decide)).2.1.trans (by decide)

/-- A failed append and one that returns `Ok`. -/
def tornCalls : List Call := [.append "a" [1, 2, 3] (some 9), .append "b" [4, 5, 6] none]

/-- The record `peek` returns was never appended. -/
theorem tornCalls_peek :
    ¬ ∀ (maxBytes : Nat) (calls : List Call),
      ((World.start maxBytes).calls calls).spool.peek.2 = ((World.start maxBytes).calls calls).firstSurviving := by
  intro claim
  have read : ((World.start 1000).calls tornCalls).spool.peek.2 = some (⟨0, 0⟩, ⟨"a", [0, 0, 0]⟩) := by decide
  have first : ((World.start 1000).calls tornCalls).firstSurviving = some (⟨0, 0⟩, ⟨"b", [4, 5, 6]⟩) := by decide
  have same := claim 1000 tornCalls
  rw [read, first] at same
  exact absurd same (by decide)

end SpoolProof
