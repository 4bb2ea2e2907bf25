import AjarConnectors.File.Source

namespace FileModel

namespace FileSource

/-- What `calls` calls of `recv` with a buffer of `bufLen` bytes return, and the source they leave. A call that waits
    is the last one. -/
def repeated (bufLen : Nat) (s : FileSource) : Nat → List Reading → List (Except ReadError Bytes) × FileSource
  | 0, _ => ([], s)
  | calls + 1, readings => match s.recv bufLen readings with
    | (none, s, _) => ([], s)
    | (some result, s, later) => (result :: (s.repeated bufLen calls later).1, (s.repeated bufLen calls later).2)

/-- The frames among the results. -/
def delivered (bufLen : Nat) (s : FileSource) (calls : Nat) (readings : List Reading) : List Bytes :=
  (s.repeated bufLen calls readings).1.filterMap Except.toOption

/-- Repeated calls deliver these frames, and from then on nothing else. -/
def Delivers (bufLen : Nat) (s : FileSource) (frames : List Bytes) (readings : List Reading) : Prop :=
  ∃ enough, ∀ calls, enough ≤ calls → s.delivered bufLen calls readings = frames

/-- The held bytes start with a length prefix that exceeds the buffer. -/
def Stuck (bufLen : Nat) (s : FileSource) : Prop := ∃ n, s.takeFrame bufLen = .error (.exceedsBuffer n bufLen)

end FileSource

/-- What the reader is given once the file is replaced: the rest of the old file, then its end where the path names a
    shorter file, then that file, which holds these frames and nothing else. -/
structure Replaced (P : Framing.LengthPrefix UInt8) (bufLen : Nat) (s : FileSource) (frames : List Bytes)
    (readings : List Reading) : Prop where
  fits : ∀ frame ∈ frames, frame.length ≤ P.limit ∧ frame.length ≤ bufLen
  shorter : (P.format.encodeAll frames).length < s.pos
  parts : ∃ rest contents, readings = rest ++ .atEnd (some (P.format.encodeAll frames).length) :: contents ∧
    Unrotated s.pos rest ∧ allBytes contents = P.format.encodeAll frames ∧ Unrotated 0 contents

end FileModel

namespace FileProof

open FileModel

/-- An oversize prefix is reported from what is held, and it stays there. -/
theorem takeFrame_error {bufLen : Nat} {s : FileSource} {e : ReadError} (failed : s.takeFrame bufLen = .error e) :
    s.Stuck bufLen := by
  unfold FileSource.Stuck
  rw [failed]
  unfold FileSource.takeFrame at failed
  split at failed
  · cases failed
  · rename_i width n _
    split at failed
    · cases failed
      exact ⟨n, rfl⟩
    · split at failed <;> cases failed

theorem recv_reports {bufLen n : Nat} {s s' : FileSource} {readings later : List Reading}
    (reported : s.recv bufLen readings = (some (.error (.exceedsBuffer n bufLen)), s', later)) : s'.Stuck bufLen := by
  induction readings generalizing s with
  | nil =>
    rw [FileSource.recv.eq_def] at reported
    split at reported
    · rename_i failed
      cases reported
      exact takeFrame_error failed
    · cases reported
    · cases reported
  | cons reading readings ih =>
    rw [FileSource.recv.eq_def] at reported
    split at reported
    · rename_i failed
      cases reported
      exact takeFrame_error failed
    · cases reported
    · cases reading with
      | atEnd size => exact ih reported
      | chunk first rest =>
        dsimp only at reported
        split at reported
        · cases reported
        · exact ih reported

/-- The file is not looked at again. -/
theorem recv_stuck {bufLen : Nat} {s : FileSource} (stuck : s.Stuck bufLen) (readings : List Reading) :
    ∃ e, s.recv bufLen readings = (some (.error e), s, readings) := by
  obtain ⟨n, failed⟩ := stuck
  refine ⟨.exceedsBuffer n bufLen, ?_⟩
  rw [FileSource.recv.eq_def, failed]

theorem delivered_stuck {bufLen : Nat} {s : FileSource} (stuck : s.Stuck bufLen) (calls : Nat) (readings : List Reading) :
    s.delivered bufLen calls readings = [] := by
  induction calls with
  | zero => rfl
  | succ calls ih =>
    obtain ⟨e, same⟩ := recv_stuck stuck readings
    unfold FileSource.delivered at ih ⊢
    rw [FileSource.repeated, same]
    exact ih

theorem repeated_stuck {bufLen : Nat} {s : FileSource} (stuck : s.Stuck bufLen) (calls : Nat) (readings : List Reading) :
    (s.repeated bufLen calls readings).2 = s := by
  induction calls with
  | zero => rfl
  | succ calls ih =>
    obtain ⟨e, same⟩ := recv_stuck stuck readings
    rw [FileSource.repeated, same]
    exact ih

/-- Whatever came after the report, the source is still where the report left it. -/
theorem reported_stuck {bufLen calls n : Nat} {s : FileSource} {history : List Reading}
    (reported : .error (.exceedsBuffer n bufLen) ∈ (s.repeated bufLen calls history).1) :
    (s.repeated bufLen calls history).2.Stuck bufLen := by
  induction calls generalizing s history with
  | zero => cases reported
  | succ calls ih =>
    rw [FileSource.repeated] at reported ⊢
    split at reported
    · cases reported
    · rename_i result s' later called
      rcases List.mem_cons.mp reported with now | before
      · rw [← now] at called
        have stuck := recv_reports called
        dsimp only
        rw [repeated_stuck stuck]
        exact stuck
      · exact ih before

theorem stuck_delivers_iff {bufLen : Nat} {s : FileSource} (stuck : s.Stuck bufLen) (frames : List Bytes)
    (readings : List Reading) : s.Delivers bufLen frames readings ↔ frames = [] := by
  constructor
  · rintro ⟨enough, all⟩
    rw [← all enough (Nat.le_refl _), delivered_stuck stuck]
  · intro none
    refine ⟨0, fun calls _ => ?_⟩
    rw [delivered_stuck stuck, none]

/-- After an oversize length prefix has been reported, whatever the reader is given next, a replaced file among it, not
    one frame of it is delivered. -/
theorem replaced_file_arrives_iff (framing : FileModel.Framing) (bufLen pos calls n : Nat) (history : List Reading)
    (reported : .error (.exceedsBuffer n bufLen) ∈ (FileSource.repeated bufLen ⟨framing, [], pos⟩ calls history).1)
    (frames : List Bytes) (readings : List Reading) :
    (FileSource.repeated bufLen ⟨framing, [], pos⟩ calls history).2.Delivers bufLen frames readings ↔ frames = [] :=
  stuck_delivers_iff (reported_stuck reported) frames readings

/-- A prefix of all ones, and two more bytes. -/
def oversizeHistory : List Reading := [.chunk 255 [255, 255, 255, 0, 0]]

/-- The end of that file, where the path now names one that holds a single frame of one byte. -/
def rotatedReadings : List Reading := [.atEnd (some 5), .chunk 1 [0, 0, 0, 7]]

theorem oversizeHistory_reported : .error (.exceedsBuffer 4294967295 maxFrameBytes) ∈
    (FileSource.repeated maxFrameBytes (.openFromStart .lengthU32le) 1 oversizeHistory).1 := by
  decide

theorem rotatedReadings_replaced : Replaced Framing.u32Le maxFrameBytes
    (FileSource.repeated maxFrameBytes (.openFromStart .lengthU32le) 1 oversizeHistory).2 [[7]] rotatedReadings where
  fits := by decide
  shorter := by decide
  parts := ⟨[], [.chunk 1 [0, 0, 0, 7]], by decide, trivial, by decide, trivial⟩

theorem rotated_frame_never_arrives :
    ¬ (FileSource.repeated maxFrameBytes (.openFromStart .lengthU32le) 1 oversizeHistory).2.Delivers maxFrameBytes [[7]]
      rotatedReadings := by
  rw [FileSource.openFromStart,
    replaced_file_arrives_iff .lengthU32le maxFrameBytes 0 1 4294967295 oversizeHistory oversizeHistory_reported]
  exact List.cons_ne_nil _ _

theorem rotation_does_not_recover :
    ¬ ∀ (framing : FileModel.Framing) (P : Framing.LengthPrefix UInt8), lengthPrefix? framing = some P →
      ∀ (bufLen pos calls n : Nat) (history : List Reading),
        .error (.exceedsBuffer n bufLen) ∈ (FileSource.repeated bufLen ⟨framing, [], pos⟩ calls history).1 →
          ∀ (frames : List Bytes) (readings : List Reading),
            Replaced P bufLen (FileSource.repeated bufLen ⟨framing, [], pos⟩ calls history).2 frames readings →
              (FileSource.repeated bufLen ⟨framing, [], pos⟩ calls history).2.Delivers bufLen frames readings := by
  intro claim
  have delivers := claim .lengthU32le Framing.u32Le rfl maxFrameBytes 0 1 4294967295 oversizeHistory
    oversizeHistory_reported [[7]] rotatedReadings rotatedReadings_replaced
  have none := (stuck_delivers_iff (reported_stuck oversizeHistory_reported) [[7]] rotatedReadings).mp delivers
  cases none

end FileProof
