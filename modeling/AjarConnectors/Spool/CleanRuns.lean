import AjarConnectors.Spool.Runs

namespace SpoolModel

/-- A call without an I/O error on a spool that stays within its bound. -/
def CleanStep (w : World) (op : Op) : Prop := op.Sized ∧ op.Accepted ∧ op.WithinBound w.spool

instance (w : World) (op : Op) : Decidable (CleanStep w op) := inferInstanceAs (Decidable (_ ∧ _ ∧ _))

end SpoolModel

namespace SpoolProof

open SpoolModel Layout

theorem append_within {s : Spool} {eventId : String} {sealed : Bytes} {room : Option Nat} {dropped : Bool}
    (within : (s.write eventId sealed room).1.dir.total ≤ s.maxBytes)
    (ok : (s.append eventId sealed room).2 = .ok dropped) : dropped = false := by
  rw [← (write_frame s eventId sealed room).1] at within
  unfold Spool.append at ok
  split at ok
  · rename_i written same
    rw [same] at within
    rw [enforceBound_within within] at ok
    cases ok
    rfl
  · cases ok

structure Clean (past : List Op) (w : World) (l : Layout) (p : Nat) : Prop extends Tracked [] w l p where
  whole : l.head.tail = []
  kept : w.dropped = []
  held : ∀ e, w.peeked = some e → l.lo ≤ e.1.seg
  history : w.appended.map Prod.snd = past.filterMap Op.record?

theorem start_clean (maxBytes : Nat) : Clean [] (.start maxBytes) .start 0 where
  toTracked := start_tracked maxBytes
  whole := rfl
  kept := rfl
  held := by simp [World.start, World.of]
  history := rfl

theorem past_without {past : List Op} {op : Op} (silent : op.record? = none) :
    past.filterMap Op.record? = (past ++ [op]).filterMap Op.record? := by
  simp [List.filterMap_append, silent]

theorem Clean.step {past : List Op} {w : World} {l : Layout} {p : Nat} (clean : Clean past w l p) (op : Op)
    (ok : CleanStep w op) : ∃ l' p', Clean (past ++ [op]) (w.step op) l' p' := by
  have tracked := clean.toTracked
  have headWhole := headWhole_of_clean clean.holds clean.whole
  cases op with
  | append eventId sealed room =>
    obtain ⟨sized, accepted, within⟩ := ok
    obtain ⟨l', p', next, whole, le, result, kept, grown⟩ :=
      tracked.append ⟨eventId, sealed⟩ sized headWhole accepted
    have same : l'.lo = l.lo := by
      have none_dropped := append_within within result
      rw [decide_eq_false_iff_not] at none_dropped
      omega
    refine ⟨l', p', ⟨next, whole, (kept same).trans clean.kept, ?_, ?_⟩⟩
    · rw [same, (step_append_frame w eventId sealed room).1]
      exact clean.held
    · rw [grown, List.map_append, clean.history, List.filterMap_append]
      rfl
  | peek =>
    refine ⟨l, p, ⟨tracked.peek, clean.whole, clean.kept, ?_, ?_⟩⟩
    · intro e found
      exact tracked.next_onDisk (tracked.peek_eq.symm.trans found)
    · exact clean.history.trans (past_without rfl)
  | advance =>
    obtain ⟨l', p', next, head, idle, moved⟩ := tracked.advance
    refine ⟨l', p', ⟨next, by rw [head]; exact clean.whole, ?_, ?_, ?_⟩⟩
    · rw [(step_advance_frame w).2.1]
      exact clean.kept
    · rw [(step_advance_frame w).2.2]
      intro e peeked
      rw [(moved e peeked (clean.held e peeked)).2.1]
    · rw [(step_advance_frame w).1]
      exact clean.history.trans (past_without rfl)
  | reopen =>
    obtain ⟨l', next, whole, lo⟩ := tracked.reopen
    exact ⟨l', p, ⟨next, whole, clean.kept, by rw [lo]; exact clean.held,
      clean.history.trans (past_without rfl)⟩⟩

theorem clean_run {maxBytes : Nat} {ops : List Op}
    (allowed : Transition.Allowed World.step CleanStep (.start maxBytes) ops) :
    ∃ l p, Clean ops ((World.start maxBytes).run ops) l p := by
  have final := Transition.invariant_of_past (fun past w => ∃ l p, Clean past w l p)
    (fun past w op clean ok => by obtain ⟨l, p, clean⟩ := clean; exact clean.step op ok)
    ⟨_, _, start_clean maxBytes⟩ allowed
  rwa [List.nil_append] at final

/-- Clean runs of appends, peeks, confirmations and reopenings, whatever they append and wherever
    the records fall across segments: what is confirmed is a prefix of what was appended, the next
    `peek` is the first record after it, everything not confirmed is still on disk, and confirming
    the record `peek` returned never fails. -/
theorem clean_run_drains_in_order (maxBytes : Nat) (ops : List Op)
    (allowed : Transition.Allowed World.step CleanStep (.start maxBytes) ops) :
    let w := (World.start maxBytes).run ops
    let records := ops.filterMap Op.record?
    w.confirmed.map Prod.snd <+: records ∧
    w.spool.peek.2.map Prod.snd = records[w.confirmed.length]? ∧
    (w.spool.peek.2 = none ↔ w.confirmed.map Prod.snd = records) ∧
    records.drop w.confirmed.length <:+ (onDisk w.spool.dir).map Prod.snd ∧
    ∀ e, w.peeked = some e → (w.spool.advance e.1).2 = .ok () := by
  obtain ⟨l, p, clean⟩ := clean_run allowed
  intro w records
  have history : w.appended.map Prod.snd = records := clean.history
  have confirmed : w.confirmed = w.appended.take p := clean.confirmed_eq clean.kept
  have bound : p ≤ w.appended.length := clean.position_le
  have count : w.confirmed.length = p := by rw [confirmed, List.length_take, Nat.min_eq_left bound]
  have peek : w.spool.peek.2 = w.appended[p]? := clean.peek_eq
  refine ⟨?_, ?_, ?_, ?_, ?_⟩
  · rw [confirmed, ← history]
    exact (List.take_prefix p _).map _
  · rw [peek, count, ← history, List.getElem?_map]
  · rw [peek, List.getElem?_eq_none_iff, confirmed, ← history]
    constructor
    · intro all
      rw [List.take_of_length_le all]
    · intro same
      have := congrArg List.length same
      simp only [List.length_map, List.length_take] at this
      omega
  · have floor : l.base l.lo ≤ p := by simpa using clean.holds.floor_le
    have disk : onDisk w.spool.dir = w.appended.drop (l.base l.lo) := by
      rw [onDisk_eq clean.holds.files, clean.entries]
      rfl
    rw [disk, count, ← history, ← List.map_drop]
    apply List.IsSuffix.map
    rw [← Nat.add_sub_cancel' floor, ← List.drop_drop]
    exact List.drop_suffix _ _
  · intro e peeked
    obtain ⟨_, _, _, _, _, moved⟩ := clean.toTracked.advance
    exact (moved e peeked (clean.held e peeked)).1

def twoRecordRun : List Op :=
  [.append "a" [1, 2] none, .peek, .append "b" [3] none, .advance, .reopen, .peek, .advance]

theorem twoRecordRun_drains :
    ((World.start 100).run twoRecordRun).confirmed.map Prod.snd <+: twoRecordRun.filterMap Op.record? ∧
    ((World.start 100).run twoRecordRun).spool.peek.2 = none :=
  have drains := clean_run_drains_in_order 100 twoRecordRun (by decide)
  ⟨drains.1, drains.2.2.1.mpr (by decide)⟩

end SpoolProof
