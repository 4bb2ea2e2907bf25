import AjarConnectors.Channel.Fanin
import AjarConnectors.File.Source
import AjarConnectors.Stream.Lines
import Mathlib.Data.List.TakeWhile

namespace StreamModel

open Buffered

def channelFrames : Nat := 256

def maxFrameBytes : Nat := 64 * 1024

/-- A byte stream as its reader sees it: what it delivers, and whether it then ends in a read that fails
    rather than in a close. -/
structure Incoming where
  reader : Reader
  fails : Bool

/-- After an error of the socket nothing more is read. `unexpectedEof` stands for every error but `InvalidData`. -/
def lost : Except ReadError Bytes × Reader := (.error .unexpectedEof, ⟨[], []⟩)

def Incoming.readLine (cap : Nat) (s : Incoming) : Except ReadError Bytes × Reader :=
  if s.fails = true ∧ 10 ∉ s.reader.flat then lost else StreamModel.readLine cap s.reader

def readPayload (cap n : Nat) (r : Reader) : Except ReadError Bytes × Reader :=
  if cap < n then (.error .invalidData, r)
  else match r.readExact n with
    | none => lost
    | some (payload, r) => (.ok payload, r)

def readFrame (framing : FileModel.Framing) (cap : Nat) (s : Incoming) : Except ReadError Bytes × Reader :=
  match framing with
  | .line => s.readLine cap
  | .lengthDelimited => match s.reader.readExact 2 with
    | none => lost
    | some (len, r) => readPayload cap (len.foldl (fun n b => n * 256 + b.toNat) 0) r
  | .lengthU32le => match s.reader.readExact 4 with
    | none => lost
    | some (len, r) => readPayload cap (len.foldr (fun b n => n * 256 + b.toNat) 0) r

/-- The `await` at which a connection's loop stands. -/
inductive Phase where
  | reading
  | sending (frame : Bytes)
  | ended (refused : Bool)
  deriving DecidableEq

structure Connection where
  stream : Incoming
  phase : Phase

/-- A turn of `connection_loop`: its read completes. -/
def Connection.turn (framing : FileModel.Framing) (conn : Connection) : Connection :=
  match conn.phase with
  | .reading => match readFrame framing maxFrameBytes conn.stream with
    | (.ok frame, r) => ⟨{ conn.stream with reader := r }, .sending frame⟩
    -- A long line was drained; an oversize prefix left its payload unread.
    | (.error .invalidData, r) => ⟨{ conn.stream with reader := r }, .reading⟩
    | (.error .unexpectedEof, r) => ⟨{ conn.stream with reader := r }, .ended false⟩
  | _ => conn

/-- `connection_loop` on what its peer delivers, as a task that sends frames. -/
def connectionLoop (framing : FileModel.Framing) : Channel.Task Incoming Unit Connection Unit Bytes where
  start stream := ⟨stream, .reading⟩
  step _ conn _ := ((), conn.turn framing)
  offer conn := match conn.phase with
    | .sending frame => some frame
    | _ => none
  sent conn := { conn with phase := .reading }
  refused conn := { conn with phase := .ended true }

abbrev TcpServerSource := Channel.World Unit Connection Bytes

/-- The source after a run of its accept loop, its connections and the runtime's `recv` calls. -/
def serve (framing : FileModel.Framing) (events : List (Channel.Event Incoming Unit)) : TcpServerSource :=
  events.foldl (Channel.World.apply (connectionLoop framing) channelFrames) (Channel.World.start ())

/-- What `recv` leaves of a frame in a buffer of `size` bytes. -/
def recvInto (size : Nat) (frame : Bytes) : Bytes := frame.take (min frame.length size)

/-- A source that opens its stream again when it is lost, with the streams it will get. -/
structure Reconnecting where
  current : Option Incoming
  later : List Incoming

section

variable (read : Incoming → Except ReadError Bytes × Reader) (passes : ReadError → Bool)

/-- The loop of `recv` with a stream open. No result means that it waits for a stream. -/
def recvFrom (stream : Incoming) : List Incoming → Option (Except ReadError Bytes) × Reconnecting
  | [] => match read stream with
    | (.ok frame, r) => (some (.ok frame), ⟨some { stream with reader := r }, []⟩)
    | (.error e, r) =>
      if passes e then (some (.error e), ⟨some { stream with reader := r }, []⟩) else (none, ⟨none, []⟩)
  | next :: later => match read stream with
    | (.ok frame, r) => (some (.ok frame), ⟨some { stream with reader := r }, next :: later⟩)
    | (.error e, r) =>
      if passes e then (some (.error e), ⟨some { stream with reader := r }, next :: later⟩) else recvFrom next later

def Reconnecting.recv (s : Reconnecting) : Option (Except ReadError Bytes) × Reconnecting :=
  match s.current, s.later with
  | some stream, later => recvFrom read passes stream later
  | none, next :: later => recvFrom read passes next later
  | none, [] => (none, s)

/-- What so many calls return, up to one that waits. -/
def Reconnecting.calls : Nat → Reconnecting → List (Except ReadError Bytes)
  | 0, _ => []
  | n + 1, s => match s.recv read passes with
    | (none, _) => []
    | (some result, s) => result :: Reconnecting.calls n s

end

/-- `TcpSource`: every error drops the connection, an oversize frame among them. -/
def TcpSource.calls (framing : FileModel.Framing) (n : Nat) (feeds : List Incoming) : List (Except ReadError Bytes) :=
  Reconnecting.calls (readFrame framing maxFrameBytes) (fun _ => false) n ⟨none, feeds⟩

/-- `ExecSource`: every error drops the command's output and spawns it again. -/
def ExecSource.calls (n : Nat) (outputs : List Incoming) : List (Except ReadError Bytes) :=
  Reconnecting.calls (Incoming.readLine maxFrameBytes) (fun _ => false) n ⟨none, outputs⟩

/-- `SerialSource`: an overlong line is handed on as an error, every other error reopens the port. -/
def SerialSource.calls (n : Nat) (ports : List Incoming) : List (Except ReadError Bytes) :=
  Reconnecting.calls (Incoming.readLine maxFrameBytes) (· == .invalidData) n ⟨none, ports⟩

end StreamModel

namespace StreamProof

open Buffered StreamModel

/-- What the bytes of a stream give at the next read, and what it leaves. -/
def payloadResult (P : Framing.LengthPrefix UInt8) (cap : Nat) (s : Bytes) : Except ReadError Bytes × Bytes :=
  match P.declared s with
  | none => (.error .unexpectedEof, [])
  | some n =>
    if cap < n then (.error .invalidData, s.drop P.width)
    else if s.length < P.width + n then (.error .unexpectedEof, [])
    else (.ok ((s.drop P.width).take n), s.drop (P.width + n))

def nextResult (framing : FileModel.Framing) (cap : Nat) (fails : Bool) (s : Bytes) : Except ReadError Bytes × Bytes :=
  match framing with
  | .line =>
    if s = [] ∨ (fails = true ∧ 10 ∉ s) then (.error .unexpectedEof, [])
    else (lineResult cap (pieceOf 10 (takeThrough 10 s).1), (takeThrough 10 s).2)
  | .lengthDelimited => payloadResult Framing.u16Be cap s
  | .lengthU32le => payloadResult Framing.u32Le cap s

theorem readExact_none {count : Nat} {r : Reader} (short : r.readExact count = none) : r.flat.length < count := by
  by_contra enough
  have found := readExact_isSome (r := r) (Nat.le_of_not_lt enough)
  rw [short] at found
  cases found

theorem readPayload_flat (P : Framing.LengthPrefix UInt8) (cap : Nat) {r r' : Reader} {len : Bytes}
    (found : r.readExact P.width = some (len, r')) :
    (readPayload cap (P.get len) r').1 = (payloadResult P cap r.flat).1 ∧
      (readPayload cap (P.get len) r').2.flat = (payloadResult P cap r.flat).2 := by
  obtain ⟨enough, rfl, left⟩ := readExact_flat found
  have declared : P.declared r.flat = some (P.get (r.flat.take P.width)) := if_neg (Nat.not_lt.mpr enough)
  unfold readPayload payloadResult
  rw [declared]
  dsimp only
  by_cases long : cap < P.get (r.flat.take P.width)
  · rw [if_pos long, if_pos long]
    exact ⟨rfl, left⟩
  · rw [if_neg long, if_neg long]
    cases body : r'.readExact (P.get (r.flat.take P.width)) with
    | none =>
      have short := readExact_none body
      rw [left, List.length_drop] at short
      rw [if_pos (by omega)]
      exact ⟨rfl, rfl⟩
    | some taken =>
      obtain ⟨payload, r''⟩ := taken
      obtain ⟨whole, rfl, rest⟩ := readExact_flat body
      rw [left, List.length_drop] at whole
      rw [if_neg (by omega), left]
      refine ⟨rfl, ?_⟩
      rw [rest, left, List.drop_drop]

theorem readLine_flat (cap : Nat) (s : Incoming) :
    (s.readLine cap).1 = (nextResult .line cap s.fails s.reader.flat).1 ∧
      (s.readLine cap).2.flat = (nextResult .line cap s.fails s.reader.flat).2 := by
  unfold Incoming.readLine nextResult
  by_cases broken : s.fails = true ∧ 10 ∉ s.reader.flat
  · rw [if_pos broken, if_pos (Or.inr broken)]
    exact ⟨rfl, rfl⟩
  · rw [if_neg broken]
    obtain ⟨result, left⟩ := readLine_eq cap s.reader
    by_cases empty : s.reader.flat = []
    · rw [if_pos (Or.inl empty)]
      rw [if_pos empty] at result
      rw [empty] at left
      exact ⟨result, left⟩
    · rw [if_neg (fun either => either.elim empty broken)]
      rw [if_neg empty] at result
      exact ⟨result, left⟩

/-- How a stream cuts its bytes does not matter to `read_frame`. -/
theorem readFrame_flat (framing : FileModel.Framing) (cap : Nat) (s : Incoming) :
    (readFrame framing cap s).1 = (nextResult framing cap s.fails s.reader.flat).1 ∧
      (readFrame framing cap s).2.flat = (nextResult framing cap s.fails s.reader.flat).2 := by
  have lengths : ∀ P : Framing.LengthPrefix UInt8, s.reader.readExact P.width = none →
      (lost.1 = (payloadResult P cap s.reader.flat).1 ∧ lost.2.flat = (payloadResult P cap s.reader.flat).2) := by
    intro P short
    have none : P.declared s.reader.flat = none := if_pos (readExact_none short)
    unfold payloadResult
    rw [none]
    exact ⟨rfl, rfl⟩
  cases framing with
  | line => exact readLine_flat cap s
  | lengthDelimited =>
    unfold readFrame nextResult
    dsimp only
    cases found : s.reader.readExact 2 with
    | none => exact lengths Framing.u16Be found
    | some taken => exact readPayload_flat Framing.u16Be cap found
  | lengthU32le =>
    unfold readFrame nextResult
    dsimp only
    cases found : s.reader.readExact 4 with
    | none => exact lengths Framing.u32Le found
    | some taken => exact readPayload_flat Framing.u32Le cap found

theorem payloadResult_shorter (P : Framing.LengthPrefix UInt8) (cap : Nat) {s : Bytes}
    (going : (payloadResult P cap s).1 ≠ .error .unexpectedEof) : (payloadResult P cap s).2.length < s.length := by
  have wide := P.width_pos
  unfold payloadResult at going ⊢
  cases declared : P.declared s with
  | none => exact absurd (by rw [declared]) going
  | some n =>
    have enough : P.width ≤ s.length := by
      unfold Framing.LengthPrefix.declared at declared
      split at declared
      · cases declared
      · omega
    rw [declared] at going
    dsimp only at going ⊢
    split
    · rw [List.length_drop]
      omega
    · rename_i fits
      rw [if_neg fits] at going
      split
      · rename_i short
        exact absurd (by rw [if_pos short]) going
      · rw [List.length_drop]
        omega

/-- A read that is not the last takes bytes. -/
theorem nextResult_shorter (framing : FileModel.Framing) (cap : Nat) (fails : Bool) {s : Bytes}
    (going : (nextResult framing cap fails s).1 ≠ .error .unexpectedEof) :
    (nextResult framing cap fails s).2.length < s.length := by
  cases framing with
  | line =>
    unfold nextResult at going ⊢
    dsimp only at going ⊢
    split
    · rename_i ended
      exact absurd (by rw [if_pos ended]) going
    · rename_i filled
      have some_bytes : s ≠ [] := fun empty => filled (Or.inl empty)
      obtain ⟨line, rest, rfl, absent⟩ | absent := delimiter_cases 10 s
      · rw [takeThrough_line absent, List.length_append, List.length_cons]
        dsimp only
        omega
      · rw [takeThrough_absent absent]
        exact List.length_pos_of_ne_nil some_bytes
  | lengthDelimited => exact payloadResult_shorter _ _ going
  | lengthU32le => exact payloadResult_shorter _ _ going

/-- What the reads of a stream's bytes give, up to the one that finds the end. -/
def resultsLoop (framing : FileModel.Framing) (cap : Nat) (fails : Bool) : Nat → Bytes → List (Except ReadError Bytes)
  | 0, _ => []
  | fuel + 1, s => match nextResult framing cap fails s with
    | (.error .unexpectedEof, _) => []
    | (result, rest) => result :: resultsLoop framing cap fails fuel rest

def results (framing : FileModel.Framing) (cap : Nat) (fails : Bool) (s : Bytes) : List (Except ReadError Bytes) :=
  resultsLoop framing cap fails (s.length + 1) s

section

variable (framing : FileModel.Framing) (cap : Nat) (fails : Bool)

theorem resultsLoop_enough (s : Bytes) (fuel more : Nat) (enough : s.length < fuel) :
    resultsLoop framing cap fails (fuel + more) s = resultsLoop framing cap fails fuel s := by
  induction fuel generalizing s with
  | zero => omega
  | succ fuel ih =>
    have shorter := nextResult_shorter framing cap fails (s := s)
    rw [Nat.add_right_comm, resultsLoop, resultsLoop]
    split
    · rfl
    · rename_i result rest going found
      rw [found] at shorter
      have less := shorter going
      rw [ih rest (by dsimp only at less; omega)]

variable {framing cap fails}

variable (framing cap fails) in
theorem results_ended {s : Bytes} (ended : (nextResult framing cap fails s).1 = .error .unexpectedEof) :
    results framing cap fails s = [] := by
  rw [results, resultsLoop]
  cases found : nextResult framing cap fails s with
  | mk result rest =>
    rw [found] at ended
    dsimp only at ended
    rw [ended]

variable (framing cap fails) in
theorem results_next {s : Bytes} (going : (nextResult framing cap fails s).1 ≠ .error .unexpectedEof) :
    results framing cap fails s =
      (nextResult framing cap fails s).1 :: results framing cap fails (nextResult framing cap fails s).2 := by
  have shorter := nextResult_shorter framing cap fails going
  rw [results, resultsLoop]
  cases found : nextResult framing cap fails s with
  | mk result rest =>
    rw [found] at going shorter
    have enough := resultsLoop_enough framing cap fails rest (rest.length + 1) (s.length - (rest.length + 1)) (by omega)
    dsimp only at going shorter
    rw [Nat.add_sub_cancel' (by omega)] at enough
    split
    · rename_i ended same
      cases same
      exact absurd rfl going
    · rename_i first later _ same
      cases same
      rw [enough]
      rfl

end

/-- A frame as its sender writes it. -/
def encodeFrame (framing : FileModel.Framing) (frame : Bytes) : Bytes :=
  match framing with
  | .line => frame ++ [10]
  | .lengthDelimited => Framing.u16Be.format.encode frame
  | .lengthU32le => Framing.u32Le.format.encode frame

/-- A frame that its framing can carry. -/
def Fits (framing : FileModel.Framing) (cap : Nat) (frame : Bytes) : Prop :=
  frame.length ≤ cap ∧ match framing with
    | .line => 10 ∉ frame ∧ stripCr frame = frame
    | .lengthDelimited => frame.length < 2^16
    | .lengthU32le => frame.length < 2^32

theorem payloadResult_encoded (P : Framing.LengthPrefix UInt8) {cap : Nat} {frame : Bytes} (fits : frame.length ≤ cap)
    (limit : frame.length ≤ P.limit) (rest : Bytes) :
    payloadResult P cap (P.format.encode frame ++ rest) = (.ok frame, rest) := by
  have declared : P.declared (P.format.encode frame ++ rest) = some frame.length := by
    rw [Framing.LengthPrefix.format_encode, List.append_assoc]
    exact P.declared_put frame (frame ++ rest) limit
  unfold payloadResult
  rw [declared]
  dsimp only
  rw [if_neg (Nat.not_lt.mpr fits), if_neg (by rw [List.length_append, P.encode_length]; omega)]
  rw [Framing.LengthPrefix.format_encode, List.append_assoc, List.drop_left' (P.put_length _), List.take_left' rfl,
    ← List.drop_drop, List.drop_left' (P.put_length _), List.drop_left' rfl]

theorem nextResult_encoded {framing : FileModel.Framing} {cap : Nat} {frame : Bytes} (fits : Fits framing cap frame)
    (fails : Bool) (rest : Bytes) : nextResult framing cap fails (encodeFrame framing frame ++ rest) = (.ok frame, rest) := by
  cases framing with
  | line =>
    obtain ⟨short, absent, whole⟩ := fits
    unfold nextResult encodeFrame
    dsimp only
    rw [List.append_assoc, List.singleton_append, if_neg, takeThrough_line absent]
    · have piece : pieceOf 10 (frame ++ [10]) = frame := by
        rw [pieceOf_append absent]
        exact List.append_nil frame
      rw [piece, lineResult, if_pos short, whole]
    · rintro (empty | ⟨_, none⟩)
      · exact absurd empty (by simp)
      · exact none (List.mem_append_right _ List.mem_cons_self)
  | lengthDelimited => exact payloadResult_encoded Framing.u16Be fits.1 (Nat.le_of_lt_succ fits.2) rest
  | lengthU32le => exact payloadResult_encoded Framing.u32Le fits.1 (Nat.le_of_lt_succ fits.2) rest

/-- Frames as they are written are read back, one result each, whatever follows them. -/
theorem results_encoded {framing : FileModel.Framing} {cap : Nat} {frames : List Bytes}
    (fits : ∀ frame ∈ frames, Fits framing cap frame) (fails : Bool) (tail : Bytes) :
    results framing cap fails (frames.flatMap (encodeFrame framing) ++ tail) =
      frames.map .ok ++ results framing cap fails tail := by
  induction frames with
  | nil => rfl
  | cons frame frames ih =>
    have next := nextResult_encoded (fits frame List.mem_cons_self) fails (frames.flatMap (encodeFrame framing) ++ tail)
    rw [List.flatMap_cons, List.append_assoc, results_next _ _ _ (by rw [next]; simp), next, List.map_cons, List.cons_append,
      ih fun later member => fits later (List.mem_cons_of_mem _ member)]

def received : Except ReadError Bytes → Option Bytes
  | .ok frame => some frame
  | .error _ => none

/-- The frames a stream's bytes carry. -/
def carried (framing : FileModel.Framing) (s : Incoming) : List Bytes :=
  (results framing maxFrameBytes s.fails s.reader.flat).filterMap received

theorem carried_encoded {framing : FileModel.Framing} {s : Incoming} {frames : List Bytes} {tail : Bytes}
    (fits : ∀ frame ∈ frames, Fits framing maxFrameBytes frame)
    (bytes : s.reader.flat = frames.flatMap (encodeFrame framing) ++ tail)
    (torn : results framing maxFrameBytes s.fails tail = []) : carried framing s = frames := by
  rw [carried, bytes, results_encoded fits, torn, List.append_nil, List.filterMap_map]
  exact List.filterMap_some

/-- Everything a turn at the read can do. -/
theorem turn_cases (framing : FileModel.Framing) {conn : Connection} (reading : conn.phase = .reading) :
    ∃ r, (∃ frame, conn.turn framing = ⟨{ conn.stream with reader := r }, .sending frame⟩ ∧
        r.flat.length < conn.stream.reader.flat.length ∧
        carried framing conn.stream = frame :: carried framing { conn.stream with reader := r }) ∨
      (conn.turn framing = ⟨{ conn.stream with reader := r }, .reading⟩ ∧
        r.flat.length < conn.stream.reader.flat.length ∧
        carried framing conn.stream = carried framing { conn.stream with reader := r }) ∨
      (conn.turn framing = ⟨{ conn.stream with reader := r }, .ended false⟩ ∧ carried framing conn.stream = []) := by
  obtain ⟨result, left⟩ := readFrame_flat framing maxFrameBytes conn.stream
  have next := results_next framing maxFrameBytes conn.stream.fails (s := conn.stream.reader.flat)
  have shorter := nextResult_shorter framing maxFrameBytes conn.stream.fails (s := conn.stream.reader.flat)
  have ended := results_ended framing maxFrameBytes conn.stream.fails (s := conn.stream.reader.flat)
  rw [← result] at next shorter ended
  rw [← left] at next shorter
  unfold Connection.turn carried
  rw [reading]
  generalize readFrame framing maxFrameBytes conn.stream = outcome at next shorter ended ⊢
  obtain ⟨given, r⟩ := outcome
  dsimp only at next shorter ended ⊢
  refine ⟨r, ?_⟩
  cases given with
  | ok frame =>
    left
    refine ⟨frame, rfl, shorter (by simp), ?_⟩
    rw [next (by simp)]
    rfl
  | error e =>
    cases e with
    | invalidData =>
      right
      left
      refine ⟨rfl, shorter (by simp), ?_⟩
      rw [next (by simp)]
      rfl
    | unexpectedEof =>
      right
      right
      refine ⟨rfl, ?_⟩
      rw [ended rfl]
      rfl

/-- What a connection has done with its stream once it has sent `out`. -/
def Pushes (framing : FileModel.Framing) (stream : Incoming) (conn : Connection) (out : List Bytes) : Prop :=
  match conn.phase with
  | .reading => carried framing stream = out ++ carried framing conn.stream
  | .sending frame => carried framing stream = out ++ frame :: carried framing conn.stream
  | .ended false => carried framing stream = out
  | .ended true => out <+: carried framing stream

section

variable {framing : FileModel.Framing} {stream : Incoming} {conn : Connection} {out : List Bytes}

theorem Pushes.turn (pushes : Pushes framing stream conn out) : Pushes framing stream (conn.turn framing) out := by
  have before := pushes
  unfold Pushes at pushes
  cases phase : conn.phase with
  | sending frame =>
    rw [Connection.turn, phase]
    exact before
  | ended refused =>
    rw [Connection.turn, phase]
    exact before
  | reading =>
    rw [phase] at pushes
    dsimp only at pushes
    obtain ⟨r, ⟨frame, moved, _, more⟩ | ⟨moved, _, more⟩ | ⟨moved, none⟩⟩ := turn_cases framing phase
    · rw [moved]
      rw [more] at pushes
      exact pushes
    · rw [moved]
      rw [more] at pushes
      exact pushes
    · rw [moved]
      rw [none, List.append_nil] at pushes
      exact pushes

theorem Pushes.front (pushes : Pushes framing stream conn out) : out <+: carried framing stream := by
  unfold Pushes at pushes
  split at pushes
  · exact ⟨_, pushes.symm⟩
  · exact ⟨_, pushes.symm⟩
  · rw [pushes]
  · exact pushes

theorem offer_sending {frame : Bytes} (offered : (connectionLoop framing).offer conn = some frame) :
    conn.phase = .sending frame := by
  unfold connectionLoop at offered
  cases phase : conn.phase with
  | reading => simp [phase] at offered
  | ended refused => simp [phase] at offered
  | sending held =>
    simp only [phase, Option.some.injEq] at offered
    rw [offered]

theorem pushes_keeps (framing : FileModel.Framing) (allowed : Channel.Event Incoming Unit → Prop) :
    Channel.Keeps (connectionLoop framing) allowed (Pushes framing) where
  start stream := rfl
  turn _ _ _ _ _ _ _ pushes := pushes.turn
  sent stream conn frame out pushes offered := by
    have sending := offer_sending offered
    unfold Pushes at pushes ⊢
    rw [sending] at pushes
    dsimp only [connectionLoop] at pushes ⊢
    rw [pushes, List.append_cons]
  refused _ stream conn frame out pushes _ := pushes.front

theorem undropped_keeps (framing : FileModel.Framing) :
    Channel.Keeps (connectionLoop framing) (fun event => event ≠ .dropReceiver)
      fun stream conn out => Pushes framing stream conn out ∧ conn.phase ≠ .ended true where
  start stream := ⟨rfl, by simp [connectionLoop]⟩
  turn _ _ _ _ _ conn _ kept := by
    refine ⟨kept.1.turn, ?_⟩
    change (conn.turn framing).phase ≠ .ended true
    cases phase : conn.phase with
    | sending frame =>
      rw [Connection.turn, phase]
      exact kept.2
    | ended refused =>
      rw [Connection.turn, phase]
      exact kept.2
    | reading =>
      obtain ⟨r, ⟨frame, moved, _⟩ | ⟨moved, _⟩ | ⟨moved, _⟩⟩ := turn_cases framing phase <;> rw [moved] <;> simp
  sent stream conn frame out kept offered :=
    ⟨(pushes_keeps framing fun _ => True).sent stream conn frame out kept.1 offered, by simp [connectionLoop]⟩
  refused impossible := absurd rfl impossible

end

def weight (conn : Connection) : Nat :=
  match conn.phase with
  | .reading => 2 * conn.stream.reader.flat.length + 1
  | .sending _ => 2 * conn.stream.reader.flat.length + 2
  | .ended _ => 0

theorem turn_lowers (framing : FileModel.Framing) (conn : Connection) :
    (conn.phase ≠ .reading ∧ conn.turn framing = conn) ∨ weight (conn.turn framing) < weight conn := by
  cases phase : conn.phase with
  | sending frame =>
    left
    refine ⟨by simp, ?_⟩
    rw [Connection.turn, phase]
  | ended refused =>
    left
    refine ⟨by simp, ?_⟩
    rw [Connection.turn, phase]
  | reading =>
    right
    obtain ⟨r, ⟨frame, moved, less, _⟩ | ⟨moved, less, _⟩ | ⟨moved, _⟩⟩ := turn_cases framing phase
    · rw [moved]
      simp only [weight, phase]
      omega
    · rw [moved]
      simp only [weight, phase]
      omega
    · rw [moved]
      simp only [weight, phase]
      omega

theorem connectionLoop_terminates (framing : FileModel.Framing) :
    Channel.Terminates (connectionLoop framing) weight [fun _ => True] where
  turn _ conn _ := by
    obtain ⟨_, same⟩ | lower := turn_lowers framing conn
    · exact Or.inl (congrArg (Prod.mk ()) same)
    · exact Or.inr lower
  sent conn frame offered := by
    have sending := offer_sending offered
    simp only [weight, connectionLoop, sending]
    omega
  refused conn frame offered := by
    have sending := offer_sending offered
    simp only [weight, connectionLoop, sending]
    omega
  awake _ conn silent still := by
    obtain ⟨_, _, same⟩ := still _ List.mem_cons_self
    cases phase : conn.phase with
    | ended refused => simp only [weight, phase]
    | sending frame =>
      unfold connectionLoop at silent
      simp [phase] at silent
    | reading =>
      obtain ⟨other, _⟩ | lower := turn_lowers framing conn
      · exact absurd phase other
      · rw [show conn.turn framing = conn from congrArg Prod.snd same] at lower
        exact absurd lower (Nat.lt_irrefl _)

theorem stripCr_length (line : Bytes) : (stripCr line).length ≤ line.length := by
  unfold stripCr
  calc (line.reverse.dropWhile _).reverse.length
      = (line.reverse.dropWhile _).length := List.length_reverse
    _ ≤ line.reverse.length := (List.dropWhile_sublist _).length_le
    _ = line.length := List.length_reverse

theorem nextResult_bounded {framing : FileModel.Framing} {cap : Nat} {fails : Bool} {s frame : Bytes}
    (given : (nextResult framing cap fails s).1 = .ok frame) : frame.length ≤ cap := by
  have payload : ∀ P : Framing.LengthPrefix UInt8, (payloadResult P cap s).1 = .ok frame → frame.length ≤ cap := by
    intro P given
    unfold payloadResult at given
    cases declared : P.declared s with
    | none =>
      rw [declared] at given
      cases given
    | some n =>
      rw [declared] at given
      dsimp only at given
      split at given
      · cases given
      · split at given
        · cases given
        · cases given
          rw [List.length_take]
          omega
  cases framing with
  | lengthDelimited => exact payload Framing.u16Be given
  | lengthU32le => exact payload Framing.u32Le given
  | line =>
    unfold nextResult lineResult at given
    dsimp only at given
    split at given
    · cases given
    · dsimp only at given
      split at given
      · rename_i short
        cases given
        exact Nat.le_trans (stripCr_length _) short
      · cases given

theorem resultsLoop_bounded {framing : FileModel.Framing} {cap : Nat} {fails : Bool} (fuel : Nat) (s : Bytes)
    {frame : Bytes} (member : .ok frame ∈ resultsLoop framing cap fails fuel s) : frame.length ≤ cap := by
  induction fuel generalizing s with
  | zero => cases member
  | succ fuel ih =>
    rw [resultsLoop] at member
    split at member
    · cases member
    · rename_i result rest _ found
      obtain here | later := List.mem_cons.mp member
      · exact nextResult_bounded (by rw [found, here])
      · exact ih rest later

theorem carried_bounded {framing : FileModel.Framing} {stream : Incoming} {frame : Bytes}
    (member : frame ∈ carried framing stream) : frame.length ≤ maxFrameBytes := by
  obtain ⟨result, among, given⟩ := List.mem_filterMap.mp member
  cases result with
  | error e => cases given
  | ok other =>
    cases given
    exact resultsLoop_bounded _ _ among

/-- However pushers, their reads, the sends and the runtime's receives interleave, and however the streams are cut:
    what the runtime gets is made up of a front of the frames of each stream, in order and whole, and the channel
    keeps its bound. -/
theorem pushers_are_kept_apart (framing : FileModel.Framing) (events : List (Channel.Event Incoming Unit)) :
    ∃ out : Nat → List Bytes,
      Channel.Interleaves out ((serve framing events).received ++ (serve framing events).channel) ∧
      (∀ k, (Channel.spawned events).length ≤ k → out k = []) ∧
      (∀ k stream, (Channel.spawned events)[k]? = some stream → out k <+: carried framing stream) ∧
      (serve framing events).channel.length ≤ channelFrames ∧
      ∀ frame ∈ (serve framing events).received, recvInto maxFrameBytes frame = frame := by
  obtain ⟨out, sound⟩ := Channel.run_sound (pushes_keeps framing fun _ => True) channelFrames () events fun _ _ => trivial
  have fronts : ∀ k stream, (Channel.spawned events)[k]? = some stream → out k <+: carried framing stream := by
    intro k stream opened
    have inside := (List.getElem?_eq_some_iff.mp opened).1
    rw [← sound.tasks] at inside
    exact (sound.kept k stream _ opened (List.getElem?_eq_getElem inside)).front
  refine ⟨out, sound.merged, sound.rest, fronts, sound.bound, ?_⟩
  intro frame taken
  obtain ⟨k, member⟩ := (sound.merged.mem_iff frame).mp (List.mem_append_left _ taken)
  have inside : k < (Channel.spawned events).length := by
    by_contra beyond
    rw [sound.rest k (Nat.le_of_not_lt beyond)] at member
    cases member
  have bound := carried_bounded ((fronts k _ (List.getElem?_eq_getElem inside)).subset member)
  rw [recvInto, List.take_of_length_le (Nat.le_min.mpr ⟨Nat.le_refl _, bound⟩)]

/-- As long as the source lives, every fair schedule hands on every frame of every pusher: where a stream is frames
    as they are written and a tail that is none, exactly these. -/
theorem fair_schedules_hand_on_every_push (framing : FileModel.Framing) (events : List (Channel.Event Incoming Unit))
    (rounds : List (List (Channel.Event Incoming Unit))) (lives : ∀ event ∈ events, event ≠ .dropReceiver)
    (fair : ∀ round ∈ rounds, Channel.Round [fun _ => True] (Channel.spawned events).length round)
    (enough : ((Channel.spawned events).map fun stream => 4 * stream.reader.flat.length + 2).sum ≤ rounds.length) :
    ∃ out : Nat → List Bytes,
      Channel.Interleaves out (serve framing (events ++ rounds.flatten)).received ∧
      (∀ k, (Channel.spawned events).length ≤ k → out k = []) ∧
      ∀ k stream, (Channel.spawned events)[k]? = some stream → out k = carried framing stream ∧
        ∀ frames tail, (∀ frame ∈ frames, Fits framing maxFrameBytes frame) →
          stream.reader.flat = frames.flatMap (encodeFrame framing) ++ tail →
          results framing maxFrameBytes stream.fails tail = [] → out k = frames := by
  have light : ((Channel.spawned events).map fun stream => 2 * weight ((connectionLoop framing).start stream)).sum ≤
      rounds.length := by
    refine Nat.le_trans (Nat.le_of_eq ?_) enough
    congr 2
    funext stream
    simp only [connectionLoop, weight]
    omega
  have quiet : ∀ event ∈ events ++ rounds.flatten, event ≠ .dropReceiver := by
    intro event member
    obtain first | later := List.mem_append.mp member
    · exact lives event first
    · obtain ⟨round, among, inside⟩ := List.mem_flatten.mp later
      exact ((fair round among).only event inside).1
  obtain ⟨out, sound, empty, ended⟩ := Channel.fair_sound (undropped_keeps framing) (connectionLoop_terminates framing)
    (show 0 < channelFrames by decide) () events rounds quiet lives fair light
  have all : ∀ k stream, (Channel.spawned events)[k]? = some stream → out k = carried framing stream := by
    intro k stream opened
    have inside := (List.getElem?_eq_some_iff.mp opened).1
    rw [← sound.tasks] at inside
    have found := List.getElem?_eq_getElem inside
    obtain ⟨pushes, open'⟩ := sound.kept k stream _ opened found
    have rest := ended _ (List.mem_of_getElem? found)
    unfold Pushes at pushes
    unfold weight at rest
    split at pushes <;> rename_i phase <;> rw [phase] at rest open'
    · cases rest
    · cases rest
    · exact pushes.symm
    · exact absurd rfl open'
  have merged := sound.merged
  rw [empty, List.append_nil] at merged
  refine ⟨out, merged, sound.rest, fun k stream opened => ⟨all k stream opened, ?_⟩⟩
  intro frames tail fits bytes torn
  rw [all k stream opened, carried_encoded fits bytes torn]

/-- Two pushers: lines that end in the middle of one, and one that is cut off by an error. -/
def lineFeeds : List Incoming :=
  [⟨⟨[65], [(66, [10]), (67, [10, 68])]⟩, true⟩, ⟨⟨[], [(69, [10])]⟩, false⟩]

def pushRound : List (Channel.Event Incoming Unit) := [.turn 1 (), .send 0, .receive, .turn 0 (), .send 1]

theorem pushRound_fair : Channel.Round [fun _ => True] 2 pushRound where
  turns k below kind known := by
    obtain rfl := List.mem_singleton.mp known
    refine ⟨(), trivial, ?_⟩
    obtain rfl | rfl : k = 0 ∨ k = 1 := by omega
    · simp [pushRound]
    · simp [pushRound]
  sends k below := by
    obtain rfl | rfl : k = 0 ∨ k = 1 := by omega
    · simp [pushRound]
    · simp [pushRound]
  receives := by simp [pushRound]
  only event member := by
    simp only [pushRound, List.mem_cons, List.not_mem_nil, or_false] at member
    obtain rfl | rfl | rfl | rfl | rfl := member <;> simp

theorem two_pushers_are_heard :
    ∃ out : Nat → List Bytes,
      Channel.Interleaves out
        (serve .line (lineFeeds.map Channel.Event.spawn ++ (List.replicate 36 pushRound).flatten)).received ∧
      out 0 = [[65, 66], [67]] ∧ out 1 = [[69]] := by
  obtain ⟨out, merged, _, each⟩ := fair_schedules_hand_on_every_push .line (lineFeeds.map Channel.Event.spawn)
    (List.replicate 36 pushRound) (by simp) (by
      intro round among
      obtain rfl := List.eq_of_mem_replicate among
      exact pushRound_fair) (by decide)
  exact ⟨out, merged, (each 0 _ rfl).1.trans (by decide), (each 1 _ rfl).1.trans (by decide)⟩

section

variable {read : Incoming → Except ReadError Bytes × Reader} {passes : ReadError → Bool} {framing : FileModel.Framing}
  {cap : Nat}

def handsOn (passes : ReadError → Bool) : Except ReadError Bytes → Bool
  | .ok _ => true
  | .error e => passes e

/-- What a source that hands on only some errors gives of one stream: it leaves it at the first other one. -/
def contributes (passes : ReadError → Bool) (framing : FileModel.Framing) (cap : Nat) (s : Incoming) :
    List (Except ReadError Bytes) :=
  (results framing cap s.fails s.reader.flat).takeWhile (handsOn passes)

/-- What a source has still to give. -/
def pendingResults (passes : ReadError → Bool) (framing : FileModel.Framing) (cap : Nat) (s : Reconnecting) :
    List (Except ReadError Bytes) := (s.current.toList ++ s.later).flatMap (contributes passes framing cap)

/-- `read` is `read_frame` of the framing. -/
def ReadsAs (read : Incoming → Except ReadError Bytes × Reader) (framing : FileModel.Framing) (cap : Nat) : Prop :=
  ∀ s : Incoming, (read s).1 = (nextResult framing cap s.fails s.reader.flat).1 ∧
    (read s).2.flat = (nextResult framing cap s.fails s.reader.flat).2

/-- A read hands on the next result of its stream or the stream is done. -/
theorem read_cases (reads : ReadsAs read framing cap) (ends : passes .unexpectedEof = false) (stream : Incoming) :
    (handsOn passes (read stream).1 = true ∧ contributes passes framing cap stream =
        (read stream).1 :: contributes passes framing cap { stream with reader := (read stream).2 }) ∨
      (handsOn passes (read stream).1 = false ∧ contributes passes framing cap stream = []) := by
  obtain ⟨result, left⟩ := reads stream
  unfold contributes
  by_cases ended : (read stream).1 = .error .unexpectedEof
  · right
    rw [results_ended framing cap stream.fails (result ▸ ended), ended]
    exact ⟨ends, rfl⟩
  · have next := results_next framing cap stream.fails (s := stream.reader.flat) (result ▸ ended)
    rw [← result, ← left] at next
    cases passed : handsOn passes (read stream).1 with
    | true =>
      left
      rw [next, List.takeWhile_cons_of_pos passed]
      exact ⟨rfl, rfl⟩
    | false =>
      right
      rw [next, List.takeWhile_cons_of_neg (by rw [passed]; decide)]
      exact ⟨rfl, rfl⟩

theorem recvFrom_pending (reads : ReadsAs read framing cap) (ends : passes .unexpectedEof = false) (stream : Incoming)
    (later : List Incoming) :
    (recvFrom read passes stream later).1 = (pendingResults passes framing cap ⟨some stream, later⟩).head? ∧
      ((recvFrom read passes stream later).1 ≠ none → pendingResults passes framing cap (recvFrom read passes stream later).2 =
        (pendingResults passes framing cap ⟨some stream, later⟩).tail) := by
  have split : ∀ s : Incoming, pendingResults passes framing cap ⟨some s, later⟩ =
      contributes passes framing cap s ++ later.flatMap (contributes passes framing cap) := fun s => List.flatMap_cons
  induction later generalizing stream with
  | nil =>
    rw [recvFrom, split]
    have cases := read_cases reads ends stream
    generalize read stream = outcome at cases ⊢
    obtain ⟨given, r⟩ := outcome
    dsimp only at cases ⊢
    obtain ⟨passed, next⟩ | ⟨stopped, none⟩ := cases
    · rw [next]
      cases given with
      | ok frame => exact ⟨rfl, fun _ => split _⟩
      | error e =>
        dsimp only
        rw [if_pos (show passes e = true from passed)]
        exact ⟨rfl, fun _ => split _⟩
    · rw [none]
      cases given with
      | ok frame => cases stopped
      | error e =>
        dsimp only
        rw [if_neg (by rw [show passes e = false from stopped]; decide)]
        exact ⟨rfl, fun impossible => absurd rfl impossible⟩
  | cons stream' later ih =>
    rw [recvFrom, split]
    have cases := read_cases reads ends stream
    generalize read stream = outcome at cases ⊢
    obtain ⟨given, r⟩ := outcome
    dsimp only at cases ⊢
    obtain ⟨passed, next⟩ | ⟨stopped, none⟩ := cases
    · rw [next]
      cases given with
      | ok frame => exact ⟨rfl, fun _ => split _⟩
      | error e =>
        dsimp only
        rw [if_pos (show passes e = true from passed)]
        exact ⟨rfl, fun _ => split _⟩
    · rw [none]
      cases given with
      | ok frame => cases stopped
      | error e =>
        dsimp only
        rw [if_neg (by rw [show passes e = false from stopped]; decide)]
        exact ih stream' fun s => List.flatMap_cons

theorem recv_pending (reads : ReadsAs read framing cap) (ends : passes .unexpectedEof = false) (s : Reconnecting) :
    (s.recv read passes).1 = (pendingResults passes framing cap s).head? ∧
      ((s.recv read passes).1 ≠ none → pendingResults passes framing cap (s.recv read passes).2 =
        (pendingResults passes framing cap s).tail) := by
  obtain ⟨current, later⟩ := s
  cases current with
  | some stream => exact recvFrom_pending reads ends stream later
  | none =>
    cases later with
    | nil => exact ⟨rfl, fun impossible => absurd rfl impossible⟩
    | cons next later => exact recvFrom_pending reads ends next later

variable (passes) in
theorem calls_pending (reads : ReadsAs read framing cap) (ends : passes .unexpectedEof = false) (n : Nat)
    (s : Reconnecting) : Reconnecting.calls read passes n s = (pendingResults passes framing cap s).take n := by
  induction n generalizing s with
  | zero => rfl
  | succ n ih =>
    obtain ⟨first, rest⟩ := recv_pending reads ends s
    rw [Reconnecting.calls]
    generalize s.recv read passes = outcome at first rest ⊢
    obtain ⟨given, s'⟩ := outcome
    dsimp only at first rest
    cases given with
    | none =>
      rw [List.head?_eq_none_iff.mp first.symm]
      rfl
    | some result =>
      have later := rest (by simp)
      obtain ⟨tail, split⟩ := List.head?_eq_some_iff.mp first.symm
      rw [split] at later ⊢
      dsimp only
      rw [ih, later, List.take_succ_cons]
      rfl

end

theorem resultsLoop_open {framing : FileModel.Framing} {cap : Nat} {fails : Bool} (fuel : Nat) (s : Bytes) :
    .error .unexpectedEof ∉ resultsLoop framing cap fails fuel s := by
  induction fuel generalizing s with
  | zero => exact List.not_mem_nil
  | succ fuel ih =>
    rw [resultsLoop]
    split
    · exact List.not_mem_nil
    · rename_i result rest going found
      intro member
      obtain here | later := List.mem_cons.mp member
      · exact going here.symm
      · exact ih rest later

theorem contributes_encoded {passes : ReadError → Bool} {framing : FileModel.Framing} {cap : Nat} {s : Incoming}
    {frames : List Bytes} {tail : Bytes} (fits : ∀ frame ∈ frames, Fits framing cap frame)
    (bytes : s.reader.flat = frames.flatMap (encodeFrame framing) ++ tail) (torn : results framing cap s.fails tail = []) :
    contributes passes framing cap s = frames.map .ok := by
  unfold contributes
  rw [bytes, results_encoded fits, torn, List.append_nil]
  apply List.takeWhile_eq_self_iff.mpr
  intro result member
  obtain ⟨frame, _, rfl⟩ := List.mem_map.mp member
  rfl

/-- The clients read on over every reconnect. A `TcpSource` and an `ExecSource` give each stream's results up to its
    first refused frame, a `SerialSource` all of them, and from streams of frames as they are written and a tail that
    is none, all give exactly these frames. -/
theorem reconnecting_sources_read_on (framing : FileModel.Framing) (n : Nat) (feeds : List Incoming) :
    TcpSource.calls framing n feeds = (feeds.flatMap (contributes (fun _ => false) framing maxFrameBytes)).take n ∧
    ExecSource.calls n feeds = (feeds.flatMap (contributes (fun _ => false) .line maxFrameBytes)).take n ∧
    SerialSource.calls n feeds =
      (feeds.flatMap fun s => results .line maxFrameBytes s.fails s.reader.flat).take n ∧
    ∀ frames : Incoming → List Bytes,
      (∀ s ∈ feeds, (∀ frame ∈ frames s, Fits framing maxFrameBytes frame) ∧
        ∃ tail, s.reader.flat = (frames s).flatMap (encodeFrame framing) ++ tail ∧
          results framing maxFrameBytes s.fails tail = []) →
      TcpSource.calls framing n feeds = ((feeds.flatMap frames).map .ok).take n ∧
        (framing = .line → ExecSource.calls n feeds = ((feeds.flatMap frames).map .ok).take n ∧
          SerialSource.calls n feeds = ((feeds.flatMap frames).map .ok).take n) := by
  have tcp : TcpSource.calls framing n feeds =
      (feeds.flatMap (contributes (fun _ => false) framing maxFrameBytes)).take n :=
    calls_pending (fun _ => false) (readFrame_flat framing maxFrameBytes) rfl n ⟨none, feeds⟩
  have exec : ExecSource.calls n feeds = (feeds.flatMap (contributes (fun _ => false) .line maxFrameBytes)).take n :=
    calls_pending (fun _ => false) (readLine_flat maxFrameBytes) rfl n ⟨none, feeds⟩
  have serial : SerialSource.calls n feeds = (feeds.flatMap (contributes (· == .invalidData) .line maxFrameBytes)).take n :=
    calls_pending (· == .invalidData) (readLine_flat maxFrameBytes) rfl n ⟨none, feeds⟩
  have whole : ∀ s, contributes (· == .invalidData) .line maxFrameBytes s = results .line maxFrameBytes s.fails s.reader.flat := by
    intro s
    apply List.takeWhile_eq_self_iff.mpr
    intro result member
    cases result with
    | ok frame => rfl
    | error e =>
      cases e with
      | invalidData => rfl
      | unexpectedEof => exact absurd member (resultsLoop_open _ _)
  refine ⟨tcp, exec, ?_, ?_⟩
  · rw [serial, List.flatMap_congr fun s _ => whole s]
  · intro frames carry
    have each : ∀ passes, feeds.flatMap (contributes passes framing maxFrameBytes) = (feeds.flatMap frames).map .ok := by
      intro passes
      rw [List.map_flatMap]
      apply List.flatMap_congr
      intro s member
      obtain ⟨fits, tail, bytes, torn⟩ := carry s member
      exact contributes_encoded fits bytes torn
    refine ⟨by rw [tcp, each], ?_⟩
    rintro rfl
    exact ⟨by rw [exec, each], by rw [serial, each]⟩

theorem two_feeds_are_read : TcpSource.calls .line 5 lineFeeds = [.ok [65, 66], .ok [67], .ok [69]] := by
  rw [(reconnecting_sources_read_on .line 5 lineFeeds).1]
  decide

end StreamProof
