import Mathlib.Algebra.Ring.Nat
import Mathlib.Data.List.Basic

namespace CarryForward

variable {α : Type*}

/-- How many frames and how many bytes may wait. -/
structure Caps where
  frames : Nat
  bytes : Nat

/-- Frames that wait for the next event, and whether one was dropped since the last. -/
structure Buffer (α : Type*) where
  pending : List α := []
  pendingBytes : Nat := 0
  droppedSinceEmit : Bool := false

namespace Buffer

/-- The oldest frames go while there are too many or they are too long. -/
def dropOver (caps : Caps) (size : α → Nat) : List α → Nat → Bool → Nat → Buffer α × Nat
  | [], pendingBytes, droppedSinceEmit, dropped => (⟨[], pendingBytes, droppedSinceEmit⟩, dropped)
  | old :: rest, pendingBytes, droppedSinceEmit, dropped =>
    if caps.frames < rest.length + 1 ∨ caps.bytes < pendingBytes then
      dropOver caps size rest (pendingBytes - size old) true (dropped + 1)
    else (⟨old :: rest, pendingBytes, droppedSinceEmit⟩, dropped)

def pushRaw (caps : Caps) (size : α → Nat) (b : Buffer α) (raw : α) : Buffer α × Nat :=
  dropOver caps size (b.pending ++ [raw]) (b.pendingBytes + size raw) b.droppedSinceEmit 0

/-- What waits, whether frames are missing from it, and the empty buffer. -/
def drain (b : Buffer α) : List α × Bool × Buffer α := (b.pending, b.droppedSinceEmit, {})

end Buffer

section

variable (caps : Caps) (size : α → Nat)

theorem dropOver_spec (frames : List α) (pendingBytes dropped : Nat) (droppedSinceEmit : Bool) :
    ∃ lost, frames = lost ++ (Buffer.dropOver caps size frames pendingBytes droppedSinceEmit dropped).1.pending ∧
      (Buffer.dropOver caps size frames pendingBytes droppedSinceEmit dropped).2 = dropped + lost.length ∧
      (Buffer.dropOver caps size frames pendingBytes droppedSinceEmit dropped).1.droppedSinceEmit =
        (droppedSinceEmit || !lost.isEmpty) := by
  induction frames generalizing pendingBytes dropped droppedSinceEmit with
  | nil => exact ⟨[], rfl, rfl, by simp [Buffer.dropOver]⟩
  | cons old rest ih =>
    rw [Buffer.dropOver]
    split
    · rcases ih (pendingBytes - size old) (dropped + 1) true with ⟨lost, parts, count, flag⟩
      refine ⟨old :: lost, ?_, ?_, ?_⟩
      · rw [List.cons_append, ← parts]
      · rw [count, List.length_cons]
        omega
      · rw [flag]
        simp
    · exact ⟨[], rfl, rfl, by simp⟩

/-- A push loses some of the oldest frames, counts them and says so. -/
theorem pushRaw_spec (b : Buffer α) (raw : α) :
    ∃ lost, b.pending ++ [raw] = lost ++ (b.pushRaw caps size raw).1.pending ∧
      (b.pushRaw caps size raw).2 = lost.length ∧
      (b.pushRaw caps size raw).1.droppedSinceEmit = (b.droppedSinceEmit || !lost.isEmpty) := by
  rcases dropOver_spec caps size (b.pending ++ [raw]) (b.pendingBytes + size raw) 0 b.droppedSinceEmit with
    ⟨lost, parts, count, flag⟩
  exact ⟨lost, parts, count.trans (Nat.zero_add _), flag⟩

def totalSize (frames : List α) : Nat := (frames.map size).sum

theorem dropOver_bytes {frames : List α} {pendingBytes : Nat} (counted : pendingBytes = totalSize size frames)
    (droppedSinceEmit : Bool) (dropped : Nat) :
    (Buffer.dropOver caps size frames pendingBytes droppedSinceEmit dropped).1.pendingBytes =
      totalSize size (Buffer.dropOver caps size frames pendingBytes droppedSinceEmit dropped).1.pending := by
  induction frames generalizing pendingBytes droppedSinceEmit dropped with
  | nil => exact counted
  | cons old rest ih =>
    rw [Buffer.dropOver]
    split
    · apply ih
      rw [counted, totalSize, totalSize, List.map_cons, List.sum_cons]
      omega
    · exact counted

theorem pushRaw_bytes {b : Buffer α} (counted : b.pendingBytes = totalSize size b.pending) (raw : α) :
    (b.pushRaw caps size raw).1.pendingBytes = totalSize size (b.pushRaw caps size raw).1.pending := by
  apply dropOver_bytes
  rw [counted]
  simp [totalSize]

variable {caps} {size}

theorem dropOver_keeps_last {frames : List α} {raw : α} {pendingBytes : Nat} (some : 1 ≤ caps.frames)
    (counted : pendingBytes = totalSize size (frames ++ [raw])) (fits : size raw ≤ caps.bytes)
    (droppedSinceEmit : Bool) (dropped : Nat) :
    ∃ before, (Buffer.dropOver caps size (frames ++ [raw]) pendingBytes droppedSinceEmit dropped).1.pending =
      before ++ [raw] := by
  induction frames generalizing pendingBytes droppedSinceEmit dropped with
  | nil =>
    have small : ¬ (caps.frames < ([] : List α).length + 1 ∨ caps.bytes < pendingBytes) := by
      rw [counted]
      simp only [totalSize, List.nil_append, List.map_cons, List.map_nil, List.sum_cons, List.sum_nil, List.length_nil]
      omega
    refine ⟨[], ?_⟩
    rw [List.nil_append, Buffer.dropOver, if_neg small]
  | cons old rest ih =>
    rw [List.cons_append, Buffer.dropOver]
    split
    · apply ih
      rw [counted, List.cons_append, totalSize, totalSize, List.map_cons, List.sum_cons]
      omega
    · exact ⟨old :: rest, rfl⟩

/-- A frame that fits is not dropped by its own push. -/
theorem pushRaw_keeps {b : Buffer α} {raw : α} (some : 1 ≤ caps.frames)
    (counted : b.pendingBytes = totalSize size b.pending) (fits : size raw ≤ caps.bytes) :
    ∃ before, (b.pushRaw caps size raw).1.pending = before ++ [raw] := by
  apply dropOver_keeps_last some _ fits
  rw [counted]
  simp [totalSize]

/-- A frame that is longer than the cap is dropped with all that waits. -/
theorem dropOver_too_long {frames : List α} {raw : α} {pendingBytes : Nat}
    (counted : pendingBytes = totalSize size (frames ++ [raw])) (long : caps.bytes < size raw)
    (droppedSinceEmit : Bool) (dropped : Nat) :
    (Buffer.dropOver caps size (frames ++ [raw]) pendingBytes droppedSinceEmit dropped).1.pending = [] := by
  induction frames generalizing pendingBytes droppedSinceEmit dropped with
  | nil =>
    have above : caps.frames < ([] : List α).length + 1 ∨ caps.bytes < pendingBytes := by
      rw [counted]
      simp only [totalSize, List.nil_append, List.map_cons, List.map_nil, List.sum_cons, List.sum_nil]
      omega
    rw [List.nil_append, Buffer.dropOver, if_pos above]
    rfl
  | cons old rest ih =>
    have above : caps.frames < (rest ++ [raw]).length + 1 ∨ caps.bytes < pendingBytes := by
      rw [counted]
      simp only [totalSize, List.cons_append, List.map_cons, List.map_append, List.map_nil, List.sum_cons,
        List.sum_append, List.sum_nil]
      omega
    rw [List.cons_append, Buffer.dropOver, if_pos above]
    apply ih
    rw [counted, List.cons_append, totalSize, totalSize, List.map_cons, List.sum_cons]
    omega

theorem pushRaw_too_long {b : Buffer α} {raw : α} (counted : b.pendingBytes = totalSize size b.pending)
    (long : caps.bytes < size raw) : (b.pushRaw caps size raw).1.pending = [] := by
  apply dropOver_too_long _ long
  rw [counted]
  simp [totalSize]

end

end CarryForward
