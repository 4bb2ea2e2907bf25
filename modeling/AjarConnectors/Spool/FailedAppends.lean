import AjarConnectors.Spool.Runs

namespace SpoolModel

def World.drained (w : World) : Nat → World
  | 0 => w
  | n + 1 => ((w.step .peek).step .advance).drained n

/-- Peeking and confirming over and over returns every outstanding record, in the order appended. -/
def World.DrainsAll (w : World) : Prop := ∀ n, (w.drained n).spool.peek.2 = w.outstanding[n]?

/-- A sized append that finds the head segment free of bytes a failed append left behind. Any append
    may itself fail with whatever part of its record the device took. -/
def WholeHeadStep (w : World) (op : Op) : Prop := op.Sized ∧ (op.record? ≠ none → w.spool.HeadWhole)

instance (w : World) (op : Op) : Decidable (WholeHeadStep w op) := inferInstanceAs (Decidable (_ ∧ _))

end SpoolModel

namespace SpoolProof

open SpoolModel Layout

/-- An append keeps the history in step with the disk, whether it fails or not, as long as it does
    not write behind a torn record. -/
theorem Tracked.tryAppend {before : List Entry} {w : World} {l : Layout} {p : Nat} (tracked : Tracked before w l p)
    (eventId : String) (sealed : Bytes) (room : Option Nat) (ok : WholeHeadStep w (.append eventId sealed room)) :
    ∃ l' p', Tracked before (w.step (.append eventId sealed room)) l' p' ∧ l.lo ≤ l'.lo := by
  have sized : Record.Sized ⟨eventId, sealed⟩ := ok.1
  have whole := ok.2 (by simp [Op.record?])
  by_cases accepts : Accepts room (recordBytes eventId sealed)
  · obtain ⟨l', p', next, -, le, -⟩ := tracked.append ⟨eventId, sealed⟩ sized whole accepts
    exact ⟨l', p', next, le⟩
  · cases room with
    | none => exact absurd trivial accepts
    | some free =>
      obtain ⟨l', next, lo⟩ := tracked.append_torn ⟨eventId, sealed⟩ sized whole (Nat.not_le.mp accepts)
      exact ⟨l', p, next, Nat.le_of_eq lo.symm⟩

theorem Tracked.step {before : List Entry} {w : World} {l : Layout} {p : Nat} (tracked : Tracked before w l p)
    (op : Op) (ok : WholeHeadStep w op) : ∃ l' p', Tracked before (w.step op) l' p' := by
  cases op with
  | append eventId sealed room =>
    obtain ⟨l', p', next, -⟩ := tracked.tryAppend eventId sealed room ok
    exact ⟨l', p', next⟩
  | peek => exact ⟨l, p, tracked.peek⟩
  | advance =>
    obtain ⟨l', p', next, -⟩ := tracked.advance
    exact ⟨l', p', next⟩
  | reopen =>
    obtain ⟨l', next, -⟩ := tracked.reopen
    exact ⟨l', p, next⟩

theorem Tracked.drain {before : List Entry} {w : World} {l : Layout} {p : Nat} (tracked : Tracked before w l p) :
    ∃ l' p', Tracked before ((w.step .peek).step .advance) l' p' ∧
      ((w.step .peek).step .advance).outstanding = w.outstanding.tail := by
  have peeked := tracked.peek
  have same : (w.step .peek).appended = w.appended := rfl
  have item : (w.step .peek).peeked = w.appended[p]? := tracked.peek_eq
  obtain ⟨l', p', next, -, idle, moved⟩ := peeked.advance
  refine ⟨l', p', next, ?_⟩
  rw [next.outstanding_eq, tracked.outstanding_eq, (step_advance_frame _).1, same, List.tail_drop]
  cases found : w.appended[p]? with
  | none =>
    obtain ⟨-, rfl⟩ := idle (item.trans found)
    have all := List.getElem?_eq_none_iff.mp found
    rw [List.drop_of_length_le all, List.drop_of_length_le (by omega)]
  | some e =>
    obtain ⟨-, -, after⟩ := moved e (item.trans found) (tracked.next_onDisk found)
    rw [after p found]

theorem Tracked.drainsAll {before : List Entry} {w : World} {l : Layout} {p : Nat}
    (tracked : Tracked before w l p) : w.DrainsAll := by
  intro n
  induction n generalizing w l p with
  | zero => rw [World.drained, tracked.peek_outstanding, List.head?_eq_getElem?]
  | succ n ih =>
    obtain ⟨l', p', next, rest⟩ := tracked.drain
    rw [World.drained, ih next, rest, List.getElem?_tail]

theorem Tracked.run {before : List Entry} {w : World} {l : Layout} {p : Nat} (tracked : Tracked before w l p)
    {ops : List Op} (allowed : Transition.Allowed World.step WholeHeadStep w ops) :
    ∃ l' p', Tracked before (w.run ops) l' p' :=
  Transition.invariant (fun w => ∃ l p, Tracked before w l p)
    (fun w op tracked ok => by obtain ⟨l, p, tracked⟩ := tracked; exact tracked.step op ok) ⟨l, p, tracked⟩ allowed

theorem Tracked.accounted {before : List Entry} {w : World} {l : Layout} {p : Nat} (tracked : Tracked before w l p)
    (kept : w.dropped = []) : w.confirmed ++ w.outstanding = w.appended := by
  rw [tracked.confirmed_eq kept, tracked.outstanding_eq, List.take_append_drop]

/-- Appends may fail at any byte of their record: as long as the next append does not write behind
    what a failed one left, every record whose append returned `Ok` is confirmed, or drained whole
    and in order, or was in a segment the bound removed. -/
theorem whole_head_run_drains_all (maxBytes : Nat) (ops : List Op)
    (allowed : Transition.Allowed World.step WholeHeadStep (.start maxBytes) ops) :
    let w := (World.start maxBytes).run ops
    w.DrainsAll ∧ (w.dropped = [] → w.confirmed ++ w.outstanding = w.appended) := by
  obtain ⟨l, p, tracked⟩ := (start_tracked maxBytes).run allowed
  exact ⟨tracked.drainsAll, tracked.accounted⟩

def recoveredRun : List Op :=
  [.append "a" [1, 2, 3] (some 9), .reopen, .append "b" [4, 5, 6] none]

theorem recoveredRun_drains : ((World.start 1000).run recoveredRun).DrainsAll :=
  (whole_head_run_drains_all 1000 recoveredRun (by decide)).1

/-- The same without the reopening: the second record is read from inside what the first one left. -/
def tornRun : List Op := [.append "a" [1, 2, 3] (some 9), .append "b" [4, 5, 6] none]

theorem tornRun_loses_a_record :
    ¬ ∀ (maxBytes : Nat) (ops : List Op), (∀ op ∈ ops, op.Sized) → ((World.start maxBytes).run ops).DrainsAll := by
  intro claim
  have first := claim 1000 tornRun (by decide) 0
  have read : ((World.start 1000).run tornRun).spool.peek.2 = some (⟨0, 0⟩, ⟨"a", [0, 0, 0]⟩) := by decide
  have written : ((World.start 1000).run tornRun).outstanding[0]? = some (⟨0, 0⟩, ⟨"b", [4, 5, 6]⟩) := by
    decide
  rw [World.drained, read, written] at first
  exact absurd first (by decide)

end SpoolProof
