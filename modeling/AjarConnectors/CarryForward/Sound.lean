import AjarConnectors.CarryForward.Buffer

namespace CarryForward

variable {α : Type*}

namespace Buffer

/-- `dropOver`, which fails where a size below zero would be left. -/
def dropOverChecked (caps : Caps) (size : α → Nat) : List α → Nat → Bool → Nat → Option (Buffer α × Nat)
  | [], pendingBytes, droppedSinceEmit, dropped => some (⟨[], pendingBytes, droppedSinceEmit⟩, dropped)
  | old :: rest, pendingBytes, droppedSinceEmit, dropped =>
    if caps.frames < rest.length + 1 ∨ caps.bytes < pendingBytes then
      if size old ≤ pendingBytes then dropOverChecked caps size rest (pendingBytes - size old) true (dropped + 1)
      else none
    else some (⟨old :: rest, pendingBytes, droppedSinceEmit⟩, dropped)

def pushRawChecked (caps : Caps) (size : α → Nat) (b : Buffer α) (raw : α) : Option (Buffer α × Nat) :=
  dropOverChecked caps size (b.pending ++ [raw]) (b.pendingBytes + size raw) b.droppedSinceEmit 0

end Buffer

/-- The count of bytes is right, and neither cap is passed. -/
structure Sound (caps : Caps) (size : α → Nat) (b : Buffer α) : Prop where
  counted : b.pendingBytes = totalSize size b.pending
  frames : b.pending.length ≤ caps.frames
  bytes : b.pendingBytes ≤ caps.bytes

/-- The caps are kept, and the next push will not subtract below zero. -/
structure Capped (caps : Caps) (size : α → Nat) (b : Buffer α) : Prop extends Sound caps size b where
  safe : ∀ raw, b.pushRawChecked caps size raw = some (b.pushRaw caps size raw)

section

variable {caps : Caps} {size : α → Nat}

theorem sound_empty : Sound caps size {} where
  counted := rfl
  frames := Nat.zero_le _
  bytes := Nat.zero_le _

theorem dropOver_capped {frames : List α} {pendingBytes : Nat} (counted : pendingBytes = totalSize size frames)
    (droppedSinceEmit : Bool) (dropped : Nat) :
    (Buffer.dropOver caps size frames pendingBytes droppedSinceEmit dropped).1.pending.length ≤ caps.frames ∧
    (Buffer.dropOver caps size frames pendingBytes droppedSinceEmit dropped).1.pendingBytes ≤ caps.bytes := by
  induction frames generalizing pendingBytes droppedSinceEmit dropped with
  | nil =>
    subst counted
    exact ⟨Nat.zero_le _, Nat.zero_le _⟩
  | cons old rest ih =>
    rw [Buffer.dropOver]
    split
    · apply ih
      rw [counted, totalSize, totalSize, List.map_cons, List.sum_cons]
      omega
    · rename_i fits
      dsimp only
      rw [List.length_cons]
      omega

theorem dropOver_safe {frames : List α} {pendingBytes : Nat} (counted : pendingBytes = totalSize size frames)
    (droppedSinceEmit : Bool) (dropped : Nat) :
    Buffer.dropOverChecked caps size frames pendingBytes droppedSinceEmit dropped =
      some (Buffer.dropOver caps size frames pendingBytes droppedSinceEmit dropped) := by
  induction frames generalizing pendingBytes droppedSinceEmit dropped with
  | nil => rfl
  | cons old rest ih =>
    have parts : pendingBytes = size old + totalSize size rest := by
      rw [counted, totalSize, totalSize, List.map_cons, List.sum_cons]
    rw [Buffer.dropOverChecked, Buffer.dropOver]
    split
    · rw [if_pos (by omega)]
      apply ih
      omega
    · rfl

theorem push_counted {b : Buffer α} (sound : Sound caps size b) (raw : α) :
    b.pendingBytes + size raw = totalSize size (b.pending ++ [raw]) := by
  rw [sound.counted]
  simp [totalSize]

/-- Any push restores the count and both caps, also of a frame that is longer than the cap. -/
theorem pushRaw_sound {b : Buffer α} (sound : Sound caps size b) (raw : α) : Sound caps size (b.pushRaw caps size raw).1 where
  counted := pushRaw_bytes caps size sound.counted raw
  frames := (dropOver_capped (push_counted sound raw) _ _).1
  bytes := (dropOver_capped (push_counted sound raw) _ _).2

/-- The subtractions of a push never go below zero. -/
theorem pushRaw_safe {b : Buffer α} (sound : Sound caps size b) (raw : α) :
    b.pushRawChecked caps size raw = some (b.pushRaw caps size raw) :=
  dropOver_safe (push_counted sound raw) _ _

theorem capped_empty : Capped caps size {} := ⟨sound_empty, pushRaw_safe sound_empty⟩

theorem pushRaw_capped {b : Buffer α} (capped : Capped caps size b) (raw : α) : Capped caps size (b.pushRaw caps size raw).1 :=
  ⟨pushRaw_sound capped.toSound raw, pushRaw_safe (pushRaw_sound capped.toSound raw)⟩

end

end CarryForward
