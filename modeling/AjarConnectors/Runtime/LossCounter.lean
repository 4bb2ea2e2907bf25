import AjarConnectors.Spool.Removals

namespace RuntimeModel

open SpoolModel Spool

/-- The counters that `spool_append` moves. -/
structure SpoolMetrics where
  spooled : Nat := 0
  spoolDroppedSegments : Nat := 0
  spoolFailed : Nat := 0

structure Spooling where
  spool : Spool
  metrics : SpoolMetrics := {}

/-- One call of `spool_append`, with the room on the device and what the file system does in each pass. -/
structure AppendCall where
  eventId : String
  sealed : Bytes
  room : Option Nat
  fs : Nat → Pass

namespace Spooling

/-- A spool opened on whatever is there. -/
def start (maxBytes : Nat) (dir : Dir) : Spooling := { spool := Spool.openDir maxBytes dir }

/-- What `spool_append` counts when `append` returns. -/
def record (s : Spooling) : Spool × Except AppendError Bool → Spooling
  | (spool, .ok dropped) =>
    { spool := spool
      metrics :=
        { s.metrics with
          spooled := s.metrics.spooled + 1
          spoolDroppedSegments := if dropped then s.metrics.spoolDroppedSegments + 1 else s.metrics.spoolDroppedSegments } }
  | (spool, .error _) =>
    { spool := spool, metrics := { s.metrics with spoolFailed := s.metrics.spoolFailed + 1 } }

/-- The call returns and leaves this behind. -/
def Appends (s : Spooling) (call : AppendCall) (t : Spooling) : Prop :=
  ∃ fuel result, s.spool.appendWith call.fs fuel call.eventId call.sealed call.room = some result ∧ t = s.record result

/-- The states a run of calls gets to, each of which meets `ok` where it is made. -/
inductive Reaches (ok : Spooling → AppendCall → Prop) (s : Spooling) : Spooling → Prop where
  | start : Reaches ok s s
  | call {t u : Spooling} {c : AppendCall} : Reaches ok s t → ok t c → t.Appends c u → Reaches ok s u

/-- The published counter is the spool's own. -/
def Exact (s : Spooling) : Prop := s.metrics.spoolDroppedSegments = s.spool.droppedSegments

/-- The record fits under the bound at once, or as soon as the oldest segment is gone and the directory is listed
    again; or it is not written, or the directory is not even listed. -/
def DropsAtMostOne (s : Spooling) (call : AppendCall) : Prop :=
  (s.spool.write call.eventId call.sealed call.room).2 = .ok () → (call.fs 0).lists = true →
    (s.spool.write call.eventId call.sealed call.room).1.Settled ∨
      ((call.fs 1).lists = true ∧
        ((s.spool.write call.eventId call.sealed call.room).1.tryDropOldest (call.fs 0).removes).Settled)

instance DropsAtMostOne.decidable (s : Spooling) (call : AppendCall) : Decidable (s.DropsAtMostOne call) :=
  inferInstanceAs (Decidable (_ → _ → _ ∨ _))

end Spooling

end RuntimeModel

namespace RuntimeProof

open RuntimeModel SpoolModel Spool Spooling SpoolProof

theorem write_droppedSegments (s : Spool) (eventId : String) (sealed : Bytes) (room : Option Nat) :
    (s.write eventId sealed room).1.droppedSegments = s.droppedSegments := by
  have rotated : s.rotateIfFull.droppedSegments = s.droppedSegments := by
    unfold Spool.rotateIfFull
    split <;> rfl
  unfold Spool.write
  dsimp only
  split <;> exact rotated

/-- What the caller counts of a result. -/
def counted : Except AppendError Bool → Nat
  | .ok true => 1
  | _ => 0

theorem record_spoolDroppedSegments (s : Spooling) (spool : Spool) (result : Except AppendError Bool) :
    (s.record (spool, result)).metrics.spoolDroppedSegments = s.metrics.spoolDroppedSegments + counted result := by
  rcases result with e | dropped
  · rfl
  · cases dropped <;> rfl

theorem record_spool (s : Spooling) (spool : Spool) (result : Except AppendError Bool) :
    (s.record (spool, result)).spool = spool := by
  cases result <;> rfl

/-- The caller never counts more than one. -/
theorem counted_le_one (result : Except AppendError Bool) : counted result ≤ 1 := by
  rcases result with e | dropped
  · exact Nat.zero_le 1
  · cases dropped
    · exact Nat.zero_le 1
    · exact Nat.le_refl 1

/-- The caller counts what one enforcement dropped exactly if that is no more than one segment, and the enforcement
    goes on to its end. -/
theorem enforceBoundWith_counted_iff {fs : Nat → Pass} {fuel : Nat} {s s' : Spool} {result : Except AppendError Bool}
    (returned : enforceBoundWith fs fuel 0 s false = some (s', result)) :
    s'.droppedSegments = s.droppedSegments + counted result ↔
      ((fs 0).lists = true → s.Settled ∨ ((fs 1).lists = true ∧ (s.tryDropOldest (fs 0).removes).Settled)) := by
  have once := (tryDropOldest_frame s (fs 0).removes).2.1
  cases fuel with
  | zero => cases returned
  | succ fuel =>
    rw [enforceBoundWith] at returned
    split at returned
    · rename_i unlisted
      cases returned
      rw [unlisted]
      exact iff_of_true rfl fun impossible => by cases impossible
    · rename_i listed
      rw [Bool.not_eq_false] at listed
      rw [forall_prop_of_true listed]
      split at returned
      · rename_i settled
        cases returned
        exact iff_of_true rfl (Or.inl settled)
      · rename_i unsettled
        rw [or_iff_right unsettled]
        cases fuel with
        | zero => cases returned
        | succ fuel =>
          rw [enforceBoundWith] at returned
          split at returned
          · rename_i unlisted
            cases returned
            apply iff_of_false
            · dsimp only [counted]
              omega
            · rw [unlisted]
              exact fun impossible => by cases impossible.1
          · rename_i listedAgain
            rw [Bool.not_eq_false] at listedAgain
            rw [and_iff_right listedAgain]
            split at returned
            · rename_i settled
              cases returned
              exact iff_of_true once settled
            · rename_i again
              have more := (enforceBoundWith_spec returned).1
              have twice := (tryDropOldest_frame (s.tryDropOldest (fs 0).removes) (fs (0 + 1)).removes).2.1
              have few := counted_le_one result
              exact iff_of_false (by omega) again

/-- A call keeps the counter exact exactly if it drops no more than one segment. -/
theorem appends_exact_iff {s t : Spooling} {call : AppendCall} (exact : s.Exact) (appends : s.Appends call t) :
    t.Exact ↔ s.DropsAtMostOne call := by
  obtain ⟨fuel, ⟨spool, result⟩, returned, rfl⟩ := appends
  have kept := write_droppedSegments s.spool call.eventId call.sealed call.room
  unfold Exact at exact ⊢
  unfold DropsAtMostOne
  unfold appendWith at returned
  rw [record_spoolDroppedSegments, record_spool, exact]
  generalize s.spool.write call.eventId call.sealed call.room = write at kept returned ⊢
  rcases write with ⟨written, e | _⟩
  · cases returned
    apply iff_of_true
    · exact kept.symm
    · intro impossible
      cases impossible
  · dsimp only at kept returned ⊢
    rw [forall_prop_of_true rfl, ← enforceBoundWith_counted_iff returned, kept]
    exact eq_comm

theorem start_exact (maxBytes : Nat) (dir : Dir) : (Spooling.start maxBytes dir).Exact := rfl

theorem reaches_exact {s t : Spooling} (exact : s.Exact) (reached : Reaches DropsAtMostOne s t) : t.Exact := by
  induction reached with
  | start => exact exact
  | call _ once appends ih => exact (appends_exact_iff ih appends).mpr once

/-- The counter is exact after every run whose calls each drop at most one segment; no other call keeps it so. -/
theorem loss_counter_is_exact (maxBytes : Nat) (dir : Dir) :
    (∀ t, Reaches DropsAtMostOne (Spooling.start maxBytes dir) t → t.Exact) ∧
      ∀ ok t u call, Reaches ok (Spooling.start maxBytes dir) t → t.Exact → t.Appends call u →
        (u.Exact ↔ t.DropsAtMostOne call) :=
  ⟨fun _ => reaches_exact (start_exact maxBytes dir), fun _ _ _ _ _ => appends_exact_iff⟩

/-- Three segments, left by a spool with a larger bound. -/
def outgrownDir : Dir := ⟨[(0, [0, 0, 0, 0]), (1, [0, 0, 0, 0]), (2, [])], none, by decide⟩

/-- A small record: under a bound of ten bytes it has to push out two segments. -/
def smallCall : AppendCall := ⟨"a", [1], none, fun _ => {}⟩

/-- One append drops two segments, and the metric counts one. -/
theorem two_dropped_one_counted :
    ¬ ∀ (maxBytes : Nat) (dir : Dir) (t : Spooling),
      Reaches (fun _ _ => True) (Spooling.start maxBytes dir) t → t.Exact := by
  intro claim
  have returned : ((Spooling.start 10 outgrownDir).spool.appendWith smallCall.fs 3 smallCall.eventId smallCall.sealed
      smallCall.room).isSome = true := by decide
  have appends : (Spooling.start 10 outgrownDir).Appends smallCall
      ((Spooling.start 10 outgrownDir).record (Option.get _ returned)) := ⟨3, _, (Option.some_get returned).symm, rfl⟩
  have exact := claim 10 outgrownDir _ (.call .start trivial appends)
  have once := (appends_exact_iff (start_exact 10 outgrownDir) appends).mp exact
  exact absurd once (by decide)

end RuntimeProof
