import AjarConnectors.File.Source

namespace FileProof

open FileModel

/-- What is held and what the file still gives are the frames not yet delivered. -/
structure Pending (P : Framing.LengthPrefix UInt8) (s : FileSource) (frames : List Bytes)
    (readings : List Reading) : Prop where
  framing : lengthPrefix? s.framing = some P
  fits : ∀ frame ∈ frames, frame.length ≤ P.limit ∧ frame.length ≤ maxFrameBytes
  stream : s.held ++ allBytes readings = P.format.encodeAll frames
  unrotated : Unrotated s.pos readings

variable {P : Framing.LengthPrefix UInt8} {s : FileSource} {frame : Bytes} {frames : List Bytes}
  {readings : List Reading}

theorem pending_start (kind : FileModel.Framing) (lengths : lengthPrefix? kind = some P)
    (fits : ∀ frame ∈ frames, frame.length ≤ P.limit ∧ frame.length ≤ maxFrameBytes)
    (whole : allBytes readings = P.format.encodeAll frames) (unrotated : Unrotated 0 readings) :
    Pending P (FileSource.openFromStart kind) frames readings := ⟨lengths, fits, whole, unrotated⟩

theorem declared_eq (framing : lengthPrefix? s.framing = some P) :
    s.declared = (P.declared s.held).map fun n => (P.width, n) := by
  obtain ⟨kind, held, pos⟩ := s
  cases kind with
  | line => cases framing
  | lengthDelimited =>
    cases framing
    rcases held with _ | ⟨a, _ | ⟨b, rest⟩⟩
    · rfl
    · rfl
    · rw [Framing.LengthPrefix.declared, if_neg (by simp [Framing.u16Be])]
      simp [FileSource.declared, Framing.u16Be]
  | lengthU32le =>
    cases framing
    rcases held with _ | ⟨a, _ | ⟨b, _ | ⟨c, _ | ⟨d, rest⟩⟩⟩⟩
    · rfl
    · rfl
    · rfl
    · rfl
    · rw [Framing.LengthPrefix.declared, if_neg (by simp [Framing.u32Le])]
      simp [FileSource.declared, Framing.u32Le]
      omega

theorem takeFrame_eq (pending : Pending P s (frame :: frames) readings) :
    s.takeFrame maxFrameBytes =
      if s.held.length < P.width + frame.length then .ok none
      else .ok (some (frame, { s with held := s.held.drop (P.width + frame.length) })) := by
  have fits := pending.fits frame (by simp)
  have stream := pending.stream
  rw [Framing.Format.encodeAll_cons] at stream
  unfold FileSource.takeFrame
  rw [declared_eq pending.framing, Framing.LengthPrefix.declared_of_stream fits.1 stream]
  by_cases short : s.held.length < P.width
  · rw [if_pos short, if_pos (by omega)]
    rfl
  · rw [if_neg short]
    simp only [Option.map_some]
    rw [if_neg (Nat.not_lt.mpr fits.2)]
    split
    · rfl
    · rename_i whole
      rw [(Framing.LengthPrefix.split_of_stream stream (Nat.not_lt.mp whole)).1]

theorem takeFrame_empty (framing : lengthPrefix? s.framing = some P) (empty : s.held = []) :
    s.takeFrame maxFrameBytes = .ok none := by
  have pos := P.width_pos
  unfold FileSource.takeFrame
  rw [declared_eq framing, empty, Framing.LengthPrefix.declared, if_pos (by simpa using pos)]
  rfl

theorem reopenIfRotated_eq {size : Option Nat} {later : List Reading} (unrotated : Unrotated s.pos (.atEnd size :: later)) :
    s.reopenIfRotated size = s := by
  unfold FileSource.reopenIfRotated
  cases size with
  | none => rfl
  | some len =>
    have long := unrotated.1 len rfl
    dsimp only
    rw [if_neg (by omega)]

/-- Frames that have been delivered do not count against later reads. -/
theorem neverOverfull_cons (n : Nat) (whole : P.width + frame.length ≤ n) :
    NeverOverfull P (frame :: frames) n readings ↔
      NeverOverfull P frames (n - (P.width + frame.length)) readings := by
  induction readings generalizing n with
  | nil => exact Iff.rfl
  | cons reading later ih =>
    cases reading with
    | atEnd size => exact ih n whole
    | chunk first rest =>
      have next := ih (n + (rest.length + 1)) (by omega)
      have moved : n + (rest.length + 1) - (P.width + frame.length) =
          n - (P.width + frame.length) + (rest.length + 1) := by omega
      rw [moved] at next
      rw [NeverOverfull, NeverOverfull, next, unfinished, if_pos whole]

theorem pending_delivered (pending : Pending P s (frame :: frames) readings)
    (whole : P.width + frame.length ≤ s.held.length) :
    Pending P { s with held := s.held.drop (P.width + frame.length) } frames readings where
  framing := pending.framing
  fits := fun other member => pending.fits other (List.mem_cons_of_mem _ member)
  stream := by
    have stream := pending.stream
    rw [Framing.Format.encodeAll_cons] at stream
    exact (Framing.LengthPrefix.split_of_stream stream whole).2
  unrotated := pending.unrotated

theorem pending_read {first : UInt8} {rest : Bytes} {later : List Reading}
    (pending : Pending P s frames (.chunk first rest :: later)) :
    Pending P { s with held := s.held ++ first :: rest, pos := s.pos + (rest.length + 1) } frames later where
  framing := pending.framing
  fits := pending.fits
  stream := by
    have stream := pending.stream
    rw [allBytes, List.flatMap_cons, ← List.append_assoc] at stream
    exact stream
  unrotated := pending.unrotated

/-- One call of `recv` delivers the next frame, or it fails because a read overfills what is held. -/
theorem recv_step (pending : Pending P s (frame :: frames) readings) :
    (∃ s' later, s.recv maxFrameBytes readings = (some (.ok frame), s', later) ∧ Pending P s' frames later ∧
      (NeverOverfull P (frame :: frames) s.held.length readings ↔ NeverOverfull P frames s'.held.length later)) ∨
    (∃ e s' later, s.recv maxFrameBytes readings = (some (.error e), s', later) ∧
      ¬ NeverOverfull P (frame :: frames) s.held.length readings) := by
  induction readings generalizing s with
  | nil =>
    have whole : P.width + frame.length ≤ s.held.length := by
      have length := congrArg List.length pending.stream
      have first := P.encode_length frame
      rw [Framing.Format.encodeAll_cons] at length
      simp only [allBytes, List.flatMap_nil, List.append_nil, List.length_append] at length
      omega
    left
    refine ⟨{ s with held := s.held.drop (P.width + frame.length) }, [], ?_, pending_delivered pending whole, ?_⟩
    · rw [FileSource.recv.eq_def, takeFrame_eq pending, if_neg (by omega)]
    · exact Iff.rfl
  | cons reading later ih =>
    by_cases whole : P.width + frame.length ≤ s.held.length
    · left
      refine ⟨{ s with held := s.held.drop (P.width + frame.length) }, reading :: later, ?_,
        pending_delivered pending whole, ?_⟩
      · rw [FileSource.recv.eq_def, takeFrame_eq pending, if_neg (by omega)]
      · rw [List.length_drop]
        exact neverOverfull_cons s.held.length whole
    · rw [FileSource.recv.eq_def, takeFrame_eq pending, if_pos (by omega)]
      cases reading with
      | atEnd size =>
        dsimp only
        rw [reopenIfRotated_eq pending.unrotated]
        exact ih ⟨pending.framing, pending.fits, pending.stream, pending.unrotated.2⟩
      | chunk first rest =>
        have waiting : unfinished P (frame :: frames) s.held.length = s.held.length := by
          rw [unfinished, if_neg whole]
        dsimp only
        rw [NeverOverfull, waiting]
        by_cases overfull : maxHeld < s.held.length + (rest.length + 1)
        · right
          rw [if_pos overfull]
          exact ⟨_, _, _, rfl, fun room => absurd room.1 (Nat.not_le.mpr overfull)⟩
        · rw [if_neg overfull]
          have next := ih (pending_read pending)
          simp only [List.length_append, List.length_cons] at next
          simpa only [Nat.not_lt.mp overfull, true_and] using next

theorem recv_idle (framing : lengthPrefix? s.framing = some P) (empty : s.held ++ allBytes readings = [])
    (unrotated : Unrotated s.pos readings) : (s.recv maxFrameBytes readings).1 = none := by
  induction readings generalizing s with
  | nil => rw [FileSource.recv.eq_def, takeFrame_empty framing (List.append_eq_nil_iff.mp empty).1]
  | cons reading later ih =>
    have held := (List.append_eq_nil_iff.mp empty).1
    rw [FileSource.recv.eq_def, takeFrame_empty framing held]
    cases reading with
    | atEnd size =>
      dsimp only
      rw [reopenIfRotated_eq unrotated]
      exact ih framing empty unrotated.2
    | chunk first rest => simp [allBytes, Reading.bytes] at empty

theorem neverOverfull_idle (n : Nat) (empty : allBytes readings = []) : NeverOverfull P frames n readings := by
  induction readings generalizing n with
  | nil => trivial
  | cons reading later ih =>
    cases reading with
    | atEnd size => exact ih n empty
    | chunk first rest => simp [allBytes, Reading.bytes] at empty

theorem received_iff (pending : Pending P s frames readings) :
    (∀ calls, s.received calls readings = (frames.take calls).map .ok) ↔
      NeverOverfull P frames s.held.length readings := by
  induction frames generalizing s readings with
  | nil =>
    have empty : s.held ++ allBytes readings = [] := pending.stream
    apply iff_of_true
    · intro calls
      cases calls with
      | zero => rfl
      | succ calls =>
        have idle := recv_idle pending.framing empty pending.unrotated
        rw [FileSource.received]
        split
        · rfl
        · rename_i found
          rw [found] at idle
          cases idle
    · exact neverOverfull_idle _ (List.append_eq_nil_iff.mp empty).2
  | cons frame frames ih =>
    rcases recv_step pending with ⟨s', later, found, next, same⟩ | ⟨e, s', later, found, overfull⟩
    · rw [same, ← ih next]
      constructor
      · intro all calls
        have more := all (calls + 1)
        rw [FileSource.received, found] at more
        exact List.tail_eq_of_cons_eq more
      · intro all calls
        cases calls with
        | zero => rfl
        | succ calls =>
          rw [FileSource.received, found]
          dsimp only
          rw [all calls]
          rfl
    · apply iff_of_false
      · intro all
        have first := all 1
        rw [FileSource.received, found] at first
        cases first
      · exact overfull

/-- Calls of `recv` on a file of whole frames return exactly those frames, in order and without an
    error, if and only if no read ever overfills what is held. -/
theorem frames_arrive_iff (framing : FileModel.Framing) (P : Framing.LengthPrefix UInt8)
    (lengths : lengthPrefix? framing = some P) (frames : List Bytes)
    (fits : ∀ frame ∈ frames, frame.length ≤ P.limit ∧ frame.length ≤ maxFrameBytes) (readings : List Reading)
    (whole : allBytes readings = P.format.encodeAll frames) (unrotated : Unrotated 0 readings) :
    (∀ calls, (FileSource.openFromStart framing).received calls readings = (frames.take calls).map .ok) ↔
      NeverOverfull P frames 0 readings :=
  received_iff (pending_start framing lengths fits whole unrotated)

/-- A frame that reaches the reader in two pieces, with an empty read in between, is delivered whole. -/
theorem split_frame_arrives :
    Unrotated 0 [.chunk 0 [2, 7], .atEnd (some 3), .chunk 8 [0, 1, 9]] ∧
    ∀ calls, (FileSource.openFromStart .lengthDelimited).received calls
      [.chunk 0 [2, 7], .atEnd (some 3), .chunk 8 [0, 1, 9]] = ([[7, 8], [9]].take calls).map .ok := by
  have unrotated : Unrotated 0 [.chunk 0 [2, 7], .atEnd (some 3), .chunk 8 [0, 1, 9]] := by simp [Unrotated]
  have arrive := frames_arrive_iff .lengthDelimited Framing.u16Be rfl [[7, 8], [9]] (by decide)
    [.chunk 0 [2, 7], .atEnd (some 3), .chunk 8 [0, 1, 9]] (by decide) unrotated
  exact ⟨unrotated, arrive.mpr (by decide)⟩

end FileProof

namespace FileModel

/-- The largest frame, followed by a frame of one byte. -/
def largeThenSmall : List Bytes := [List.replicate maxFrameBytes 0, [0]]

def fullChunks : List Reading :=
  .chunk 0 ([0, 1, 0] ++ List.replicate 8188 0) :: List.replicate 7 (.chunk 0 (List.replicate 8191 0))

/-- Those two frames in eight full reads and one of nine bytes. -/
def largeThenSmallReadings : List Reading := fullChunks ++ [.chunk 0 [0, 0, 0, 1, 0, 0, 0, 0]]

end FileModel

namespace FileProof

open FileModel

theorem neverOverfull_at (n : Nat) (before : List Reading) (first : UInt8) (rest : Bytes) (later : List Reading)
    (room : NeverOverfull P frames n (before ++ .chunk first rest :: later)) :
    unfinished P frames (n + (allBytes before).length) + (rest.length + 1) ≤ maxHeld := by
  induction before generalizing n with
  | nil => exact room.1
  | cons reading before ih =>
    cases reading with
    | atEnd size => exact ih n room
    | chunk a others =>
      have next := ih (n + (others.length + 1)) room.2
      have length : (allBytes (.chunk a others :: before)).length = others.length + 1 + (allBytes before).length := by
        rw [allBytes, List.flatMap_cons, List.length_append]
        rfl
      rw [length, ← Nat.add_assoc n]
      exact next

theorem allBytes_fullChunks : allBytes fullChunks = [0, 0, 1, 0] ++ List.replicate 65532 0 := by
  have chunk : Reading.bytes (.chunk 0 (List.replicate 8191 0)) = List.replicate 8192 0 := List.replicate_succ.symm
  have sevens : (List.replicate 7 (Reading.chunk 0 (List.replicate 8191 0))).flatMap Reading.bytes =
      List.replicate (7 * 8192) 0 := by
    rw [List.flatMap_replicate, chunk, List.flatten_replicate_replicate]
  rw [allBytes, fullChunks, List.flatMap_cons, sevens, Reading.bytes]
  change ([0, 0, 1, 0] ++ List.replicate 8188 0 : Bytes) ++ List.replicate (7 * 8192) 0 = _
  rw [List.append_assoc, List.replicate_append_replicate]

theorem largeThenSmall_fits :
    ∀ frame ∈ largeThenSmall, frame.length ≤ Framing.u32Le.limit ∧ frame.length ≤ maxFrameBytes := by
  intro frame member
  rcases List.mem_pair.mp member with rfl | rfl
  · rw [List.length_replicate]
    decide
  · decide

theorem largeThenSmall_bytes :
    allBytes largeThenSmallReadings = Framing.u32Le.format.encodeAll largeThenSmall := by
  have split : List.replicate maxFrameBytes (0 : UInt8) = List.replicate 65532 0 ++ List.replicate 4 0 := by
    rw [List.replicate_append_replicate, maxFrameBytes]
  have front : Framing.u32Le.put maxFrameBytes = [0, 0, 1, 0] := by decide
  have last : allBytes [.chunk 0 [0, 0, 0, 1, 0, 0, 0, 0]] =
      List.replicate 4 0 ++ Framing.u32Le.format.encodeAll [[0]] := by decide
  have coded : Framing.u32Le.format.encodeAll largeThenSmall =
      [0, 0, 1, 0] ++ List.replicate maxFrameBytes 0 ++ Framing.u32Le.format.encodeAll [[0]] := by
    rw [largeThenSmall, Framing.Format.encodeAll_cons, Framing.LengthPrefix.format_encode,
      List.length_replicate, front]
  have read : allBytes largeThenSmallReadings =
      allBytes fullChunks ++ allBytes [.chunk 0 [0, 0, 0, 1, 0, 0, 0, 0]] := List.flatMap_append
  rw [read, allBytes_fullChunks, last, coded, split, List.append_assoc, List.append_assoc, List.append_assoc]

theorem largeThenSmall_chunks : ∀ reading ∈ largeThenSmallReadings, reading.bytes.length ≤ 8192 := by
  intro reading member
  simp only [largeThenSmallReadings, fullChunks, List.cons_append, List.mem_cons, List.mem_append,
    List.mem_replicate, List.not_mem_nil, or_false] at member
  rcases member with rfl | ⟨_, rfl⟩ | rfl
  · simp only [Reading.bytes, List.length_cons, List.length_append, List.length_replicate, List.length_nil]
    omega
  · simp only [Reading.bytes, List.length_cons, List.length_replicate]
    omega
  · decide

theorem largeThenSmall_unrotated : Unrotated 0 largeThenSmallReadings := True.intro

theorem largeThenSmall_overfull : ¬ NeverOverfull Framing.u32Le largeThenSmall 0 largeThenSmallReadings := by
  intro room
  have length : (allBytes fullChunks).length = 65536 := by
    rw [allBytes_fullChunks, List.length_append, List.length_replicate]
    simp only [List.length_cons, List.length_nil, Nat.reduceAdd]
  have waiting : unfinished Framing.u32Le largeThenSmall 65536 = 65536 := by
    rw [largeThenSmall, unfinished, List.length_replicate, if_neg (by decide)]
  have ninth := neverOverfull_at 0 fullChunks 0 [0, 0, 0, 1, 0, 0, 0, 0] [] room
  rw [length, Nat.zero_add, waiting, maxHeld, maxFrameBytes] at ninth
  simp only [List.length_cons, List.length_nil] at ninth
  omega

/-- The ninth read finds the large frame four bytes short and is refused, although the file is in
    the configured framing. -/
theorem largest_frame_is_lost :
    (∀ frame ∈ largeThenSmall, frame.length ≤ Framing.u32Le.limit ∧ frame.length ≤ maxFrameBytes) ∧
    (∀ reading ∈ largeThenSmallReadings, reading.bytes.length ≤ 8192) ∧
    allBytes largeThenSmallReadings = Framing.u32Le.format.encodeAll largeThenSmall ∧
    ¬ ∀ calls, (FileSource.openFromStart .lengthU32le).received calls largeThenSmallReadings =
      (largeThenSmall.take calls).map .ok := by
  have pending := pending_start .lengthU32le rfl largeThenSmall_fits largeThenSmall_bytes
    largeThenSmall_unrotated
  apply And.intro largeThenSmall_fits (And.intro largeThenSmall_chunks (And.intro largeThenSmall_bytes _))
  intro all
  exact largeThenSmall_overfull ((received_iff pending).mp all)

end FileProof
